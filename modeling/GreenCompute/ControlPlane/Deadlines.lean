import GreenCompute.ControlPlane.Edits
import GreenCompute.ControlPlane.Reassigning

/-!
# The deadline of a lease

A lease is written when its deployment is placed, with the time by which the deployment has to be
ready. Whatever happens to the deployment after that changes the status of the lease and not its
deadline, a suspension and a resume included. So the deadline of a deployment that comes back from a
suspension is still the one of its placement, which may be long past.

The sweep that gives up deployments looks at the leases of those that are on their way. It spares
one that is suspended or ready, and any before its deadline (`timeouts_spare_resumed`).
-/

namespace GreenCompute

open ControlPlaneRepository ControlPlaneService

variable {settings : Settings} {protocol : Protocol} {s s' : Fleet} {d : DeploymentId}

/-! ## Deadlines -/

/-- The time by which the deployment has to be ready, as its lease has it. -/
def Fleet.deadline (s : Fleet) (d : DeploymentId) : Option Time :=
  (s.leases.get? d).bind LeaseAssignment.expiresAt

/-- The step that places the deployment. -/
def places (d : DeploymentId) : Event ControlPlane → Bool
  | ⟨.saveAssignment d' _, _⟩ => d' = d
  | _ => false

/-- Only a placement sets the deadline. -/
theorem deadline_exec (settings : Settings) (o : FleetOp) (s : Fleet)
    (h : places d ⟨o, (o.exec settings s).2⟩ = false) :
    (o.exec settings s).1.deadline d = s.deadline d := by
  by_cases hlease : o.leaseOf = some d
  · cases o with
    | saveAssignment d' lease =>
      obtain rfl := Option.some.inj hlease
      exact absurd rfl (of_decide_eq_false h)
    | updateAssignmentStatus d' status =>
      obtain rfl := Option.some.inj hlease
      have hmoved := congrArg Stand.lease (stand_updateAssignmentStatus settings s d' status)
      have hlease : ((FleetOp.updateAssignmentStatus d' status).exec settings s).1.leases.get? d' =
          (s.leases.get? d').map fun lease ↦ { lease with status := status } := hmoved
      rw [Fleet.deadline, hlease, Option.bind_map]
      rfl
    | _ => cases hlease
  · rw [Fleet.deadline, (leaves_exec settings o s).lease d hlease, Fleet.deadline]

/-- A method that does not place the deployment leaves its deadline. -/
theorem deadline_run {α : Type} {p : Program ControlPlane α} {s : Fleet}
    (h : ∀ e ∈ history settings p s, places d e = false) :
    (run settings p s).1.deadline d = s.deadline d := by
  induction p generalizing s with
  | done a => rfl
  | call o k ih =>
    have hfirst := deadline_exec settings o s (h _ List.mem_cons_self)
    have hrest := ih _ fun e he ↦ h e (List.mem_cons_of_mem _ he)
    exact hrest.trans hfirst

/-- The call does not place the deployment. -/
def Unplacing (settings : Settings) (protocol : Protocol) (d : DeploymentId) (c : FleetCall)
    (s : Fleet) : Prop :=
  ∀ e ∈ history settings (c.body settings protocol) s, places d e = false

instance (settings : Settings) (protocol : Protocol) (d : DeploymentId) (c : FleetCall)
    (s : Fleet) : Decidable (Unplacing settings protocol d c s) :=
  inferInstanceAs (Decidable (∀ e ∈ history settings (c.body settings protocol) s,
    places d e = false))

theorem deadline_afterAll {calls : List FleetCall}
    (hcalls : (controlPlane settings protocol).Admits (Unplacing settings protocol d) s calls) :
    ((controlPlane settings protocol).afterAll s calls).deadline d = s.deadline d := by
  induction calls generalizing s with
  | nil => rfl
  | cons c calls ih =>
    obtain ⟨hc, hcalls⟩ := hcalls
    exact (ih hcalls).trans (deadline_run hc)

/-! ## The deadline of a placement -/

theorem expiresAt_of_assignLease {workload : WorkloadSpec} {lease : LeaseAssignment}
    (h : (run settings (assignLease settings workload d) s).2 = some lease) :
    lease.expiresAt = some (s.now + settings.defaultLeaseTtlSeconds) := by
  have hlook : (run settings (schedulableNodes settings (some d)) s).1 = s :=
    run_of_looks settings (schedulableNodes_uses (fun _ h ↦ h) (some d)) s
  rw [assignLease, run_bind, hlook, run_bind, run_bind, run_bind] at h
  split at h
  · cases h
  · next assignment hassigned =>
    rw [run_bind, run_bind] at h
    have hlocked : (run settings (call .now) (run settings (call .reservedGpusByNode)
        (run settings (call .lockPlacement) s).1).1).1.now = s.now := rfl
    generalize (run settings (call .now) (run settings (call .reservedGpusByNode)
        (run settings (call .lockPlacement) s).1).1).1 = locked at hlocked h
    have habout : (holdNode (run settings (schedulableNodes settings (some d)) s).2 d
        workload.requirements.gpuCount assignment).Uses (About d) :=
      holdNode_uses (about_of_looks d) (about_of_reports d) (fun _ _ _ _ ↦ about_self rfl rfl) _ _ _
    have hnow := now_run_of_about settings habout locked
    generalize run settings (holdNode (run settings (schedulableNodes settings (some d)) s).2 d
        workload.requirements.gpuCount assignment) locked = held at hnow h
    split at h
    · rw [run_bind] at h
      obtain rfl := Option.some.inj h
      change some (held.1.now + _) = _
      rw [hnow, hlocked]
    · cases h

/-- A deployment that is placed has the usual time to become ready. -/
theorem deadline_of_placed {attempts : ℕ}
    (h : (run settings (processDeploymentRequest settings protocol d attempts) s).2.isSome) :
    (run settings (processDeploymentRequest settings protocol d attempts) s).1.deadline d =
      some (s.now + settings.defaultLeaseTtlSeconds) := by
  rw [processDeploymentRequest, run_bind, run_getDeployment] at h ⊢
  cases hrecord : s.record d with
  | none =>
    rw [hrecord] at h
    cases h
  | some record =>
    rw [hrecord] at h
    dsimp only at h ⊢
    by_cases hpending : record.state = .pending
    swap
    · rw [if_pos hpending] at h
      cases h
    rw [if_neg (not_not.mpr hpending), run_bind, run_getWorkload] at h ⊢
    cases hworkload : s.workloads.get? record.workloadId with
    | none =>
      rw [hworkload] at h
      cases h
    | some workload =>
      rw [hworkload] at h
      dsimp only at h ⊢
      rw [run_bind] at h ⊢
      cases hassigned : (run settings (assignLease settings workload d) s).2 with
      | none =>
        rw [hassigned] at h
        dsimp only at h
        rw [run_bind] at h
        cases h
      | some assignment =>
        have hdeadline := expiresAt_of_assignLease hassigned
        dsimp only
        rw [run_bind, placed, run_bind, run_bind, run_bind, run_bind]
        generalize (run settings (assignLease settings workload d) s).1 = reserved
        change ((reserved.leases.insert d assignment).get? d).bind _ = _
        rw [Table.get?_insert_self]
        exact hdeadline

/-! ## The sweep -/

/-- The deadline of the deployment has not come, or it is not on its way. -/
def Spared (observedAt : Time) (d : DeploymentId) (s : Fleet) : Prop :=
  (∃ deadline ∈ s.deadline d, observedAt < deadline) ∨
    s.state d = some .suspended ∨ s.state d = some .ready

theorem Spared.of_stand {observedAt : Time} (h : Spared observedAt d s)
    (hstand : s'.stand d = s.stand d) : Spared observedAt d s' := by
  have hstate : s'.state d = s.state d :=
    congrArg (fun f : Stand ↦ f.record.map DeploymentRecord.state) hstand
  have hdeadline : s'.deadline d = s.deadline d :=
    congrArg (fun f : Stand ↦ f.lease.bind LeaseAssignment.expiresAt) hstand
  rw [Spared, hstate, hdeadline]
  exact h

/-- A suspended deployment is not failed by a report. -/
theorem stand_report_of_suspended (settings : Settings) {record : DeploymentRecord}
    (hrecord : s.record d = some record) (hsuspended : record.state = .suspended)
    {update : DeploymentStatusUpdate} (hfailed : update.state = .failed) :
    (run settings (updateDeploymentStatus d update) s).1.stand d = s.stand d := by
  cases run_updateDeploymentStatus settings d update s with
  | refused same why => exact same
  | saved record' readyAt found live allowed moved =>
    obtain rfl : record = record' := Option.some.inj (hrecord.symm.trans found)
    rw [hsuspended, hfailed] at allowed
    exact absurd allowed (by decide)

theorem stand_expire {observedAt : Time} {lease : LeaseAssignment} (h : Spared observedAt d s)
    (hlease : lease.expiresAt = s.deadline d) :
    (run settings (expire observedAt d lease) s).1.stand d = s.stand d := by
  unfold expire
  by_cases hlong : lease.expiresAt.all (fun expiresAt ↦ decide (observedAt < expiresAt)) = true
  · rw [if_pos hlong]
    rfl
  rw [if_neg hlong, run_bind, run_getDeployment]
  cases hrecord : s.record d with
  | none => rfl
  | some record =>
    dsimp only
    have hstate : s.state d = some record.state := Fleet.state_of_some hrecord
    split
    · rfl
    · next hgoing =>
      rcases h with ⟨deadline, hdeadline, hearly⟩ | hsuspended | hready
      · rw [hlease, Option.mem_def.mp hdeadline] at hlong
        exact absurd (decide_eq_true hearly) hlong
      · rw [run_bind]
        exact stand_report_of_suspended settings hrecord
          (Option.some.inj (hstate.symm.trans hsuspended)) rfl
      · exact absurd (.inl (Option.some.inj (hstate.symm.trans hready))) hgoing

/-- The sweep leaves a deployment that is spared where it stands. -/
theorem stand_expireAll {observedAt : Time} {assignments : List (DeploymentId × LeaseAssignment)}
    (h : Spared observedAt d s)
    (hleases : ∀ lease, (d, lease) ∈ assignments → lease.expiresAt = s.deadline d) :
    (run settings (expireAll observedAt assignments) s).1.stand d = s.stand d := by
  induction assignments generalizing s with
  | nil => rfl
  | cons entry assignments ih =>
    obtain ⟨d', lease⟩ := entry
    have hpass : (run settings (expire observedAt d' lease) s).1.stand d = s.stand d := by
      by_cases hd : d' = d
      · subst hd
        exact stand_expire h (hleases lease List.mem_cons_self)
      · exact stand_run_of_about settings ((permits_about _).expire_uses observedAt lease)
          (Ne.symm hd) s
    have hdeadline : (run settings (expire observedAt d' lease) s).1.deadline d = s.deadline d :=
      congrArg (fun f : Stand ↦ f.lease.bind LeaseAssignment.expiresAt) hpass
    rw [expireAll, run_bind]
    split
    · exact hpass
    · rw [run_bind]
      refine (ih (h.of_stand hpass) fun lease hmem ↦ ?_).trans hpass
      rw [hdeadline]
      exact hleases lease (List.mem_cons_of_mem _ hmem)

theorem stand_processTimeouts (protocol : Protocol) {now : Option Time}
    (h : Spared (now.getD s.now) d s) :
    ((controlPlane settings protocol).after (.processTimeouts now) s).stand d = s.stand d := by
  change (run settings (discard (processTimeouts now)) s).1.stand d = s.stand d
  have htime : run settings (timeOr now) s = (s, now.getD s.now) := by
    cases now <;> rfl
  rw [run_discard, processTimeouts, run_bind, htime, run_bind, run_listAssignments]
  refine stand_expireAll h fun lease hmem ↦ ?_
  have hlisted : (d, lease) ∈ listAssignments [.assigned, .activating] s := hmem
  have hlease : s.leases.get? d = some lease := (Table.mem_select.mp hlisted).1
  rw [Fleet.deadline, hlease]
  rfl

/-- A deployment that was placed, and resumed after whatever else: the sweep leaves it as it is
before the deadline of that placement, and as long as no machine has reported that it is on its way,
and once it is ready. -/
theorem timeouts_spare_resumed (settings : Settings) (protocol : Protocol) {s₀ s : Fleet}
    {d : DeploymentId} {attempts : ℕ}
    (hplaced : (run settings (processDeploymentRequest settings protocol d attempts) s₀).2.isSome)
    {calls calls' : List FleetCall}
    (hcalls : (controlPlane settings protocol).Admits (Unplacing settings protocol d)
      ((controlPlane settings protocol).after (.processDeploymentRequest d attempts) s₀)
      (calls ++ .resumeDeployment d :: calls'))
    (hs : s = (controlPlane settings protocol).afterAll
      ((controlPlane settings protocol).after (.processDeploymentRequest d attempts) s₀)
      (calls ++ .resumeDeployment d :: calls'))
    {now : Option Time}
    (hspared : now.getD s.now < s₀.now + settings.defaultLeaseTtlSeconds ∨
      s.state d = some .suspended ∨ s.state d = some .ready) :
    ((controlPlane settings protocol).after (.processTimeouts now) s).state d = s.state d := by
  have hdeadline : s.deadline d = some (s₀.now + settings.defaultLeaseTtlSeconds) := by
    rw [hs, deadline_afterAll hcalls]
    change (run settings (discard (processDeploymentRequest settings protocol d attempts))
      s₀).1.deadline d = _
    rw [run_discard]
    exact deadline_of_placed hplaced
  have hstand : ((controlPlane settings protocol).after (.processTimeouts now) s).stand d =
      s.stand d := by
    refine stand_processTimeouts protocol (hspared.imp_left fun hearly ↦ ?_)
    exact ⟨_, hdeadline, hearly⟩
  exact congrArg (fun f : Stand ↦ f.record.map DeploymentRecord.state) hstand

/-- Pod 1 has been placed. -/
def placedPod : Fleet :=
  (controlPlane {} quotedRates).after (.processDeploymentRequest 1 1) (queuedPod {})

/-- Pod 1 is ready, and is stopped 4000 seconds after it was placed. Its GPU is free again. -/
def runThenStop : List FleetCall :=
  [.deploymentStatus 1 7 { state := .ready, readyInstances := 1, observedAt := 0 }, .advance 4000,
    .updateDeploymentStatus 1 { state := .suspended, observedAt := 4000 },
    .updateCapacity ⟨7, [oneNode], 4000⟩]

/-- The pod is resumed and its machine says nothing for 20 seconds. The sweep leaves it alone. -/
theorem timeouts_spare_resumed_silent :
    ((controlPlane {} quotedRates).after (.processTimeouts none)
      ((controlPlane {} quotedRates).afterAll placedPod
        (runThenStop ++ .resumeDeployment 1 :: [.advance 20]))).state 1 =
      ((controlPlane {} quotedRates).afterAll placedPod
        (runThenStop ++ .resumeDeployment 1 :: [.advance 20])).state 1 := by
  have hplaced : (run {} (processDeploymentRequest {} quotedRates 1 1) (queuedPod {})).2.isSome :=
    by decide +kernel
  exact timeouts_spare_resumed {} quotedRates hplaced (by decide +kernel) rfl
    (.inr (.inl (by decide +kernel)))

/-- The pod is resumed and says that it is starting. The sweep gives it up as one that was never
ready, although it was resumed a moment ago. -/
theorem resumed_pod_given_up :
    ¬∀ (update : DeploymentStatusUpdate) (seconds : Time),
      (run {} (resumeDeployment 1)
        ((controlPlane {} quotedRates).afterAll placedPod runThenStop)).2.isOk = true →
      update.state = .pulling ∨ update.state = .starting →
      0 ≤ seconds → seconds < ({} : Settings).defaultLeaseTtlSeconds →
        ((controlPlane {} quotedRates).after (.processTimeouts none)
          ((controlPlane {} quotedRates).afterAll placedPod
            (runThenStop ++ .resumeDeployment 1 ::
              [.deploymentStatus 1 7 update, .advance seconds]))).state 1 ≠ some .failed := by
  intro h
  have hspared := h { state := .starting, observedAt := 4000 } 20 (by decide +kernel) (.inr rfl)
    (by decide) (by decide)
  exact hspared (by decide +kernel)

end GreenCompute
