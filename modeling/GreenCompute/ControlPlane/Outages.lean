import GreenCompute.ControlPlane.Suspensions

/-!
# Pods on silent machines

A rental's disk is on the machine it runs on, so one that has been ready is to stay recorded there
for the rest of its life. The sweep over silent machines spares a rental that is ready. It does not
spare one that was ready before and is on its way back from a suspension, so such a rental stays
where it is as long as no pass of the sweep finds fault with its machine.
-/

namespace GreenCompute

open ControlPlaneRepository ControlPlaneService

variable {settings : Settings} {protocol : Protocol} {s s' : Fleet} {d : DeploymentId}
  {c : FleetCall} {now : Time} {p q : Position} {origin : DeploymentRecord}

/-! ## Staying on a machine -/

/-- A record of a deployment that has left the queue, on the machine of `origin`. -/
structure Rooted (origin record : DeploymentRecord) : Prop where
  started : record.state ≠ .pending
  workloadId : record.workloadId = origin.workloadId
  hotkey : record.hotkey = origin.hotkey
  nodeId : record.nodeId = origin.nodeId

/-- The deployment is where `origin` has it. -/
def Position.RootedAt (origin : DeploymentRecord) (p : Position) : Prop :=
  ∃ record, p.stand.record = some record ∧ Rooted origin record

/-- No report takes a deployment back to the queue. -/
theorem started_of_transition {before after : DeploymentState} (hbefore : before ≠ .pending)
    (hlive : ¬(before = .terminated ∨ before = .failed))
    (h : before.transition after = some after) : after ≠ .pending := by
  rintro rfl
  revert hbefore hlive h
  cases before <;> decide

/-- Only a requeue takes a deployment that has left the queue off its machine. -/
theorem Edit.rooted (h : Edit c d now p q) (hc : ¬c.Requeues d) (hp : p.RootedAt origin) :
    q.RootedAt origin := by
  obtain ⟨before, hbefore, hrooted⟩ := hp
  cases h with
  | created request quote made missing => exact nomatch missing.symm.trans hbefore
  | noted record saved found same =>
    obtain rfl := Option.some.inj (found.symm.trans hbefore)
    refine ⟨saved, rfl, ?_, ?_, ?_, ?_⟩
    · rw [same.state]
      exact hrooted.started
    · rw [same.workloadId, hrooted.workloadId]
    · rw [same.hotkey, hrooted.hotkey]
    · rw [same.nodeId, hrooted.nodeId]
  | reported update record readyAt found origin live allowed =>
    obtain rfl := Option.some.inj (found.symm.trans hbefore)
    exact ⟨_, rfl, started_of_transition hrooted.started live allowed, hrooted.workloadId,
      hrooted.hotkey, hrooted.nodeId⟩
  | scheduled record saved stand attempts granted made found waiting =>
    obtain rfl := Option.some.inj (found.symm.trans hbefore)
    exact absurd waiting hrooted.started
  | unplaced record saved stand origin => exact absurd origin hc
  | ended record saved reason made found terms state hotkey nodeId =>
    obtain rfl := Option.some.inj (found.symm.trans hbefore)
    refine ⟨saved, rfl, ?_, ?_, ?_, ?_⟩
    · rw [state]
      decide
    · rw [terms.workloadId, hrooted.workloadId]
    · rw [hotkey, hrooted.hotkey]
    · rw [nodeId, hrooted.nodeId]
  | freed stand kept => exact ⟨before, kept.trans hbefore, hrooted⟩
  | resumed stand made kept => exact ⟨before, kept.trans hbefore, hrooted⟩
  | stamped => exact ⟨before, hbefore, hrooted⟩

theorem rooted_of_edits (h : Edits c d now p q) (hc : ¬c.Requeues d) (hp : p.RootedAt origin) :
    q.RootedAt origin := by
  induction h with
  | refl => exact hp
  | tail _ hedit ih => exact hedit.rooted hc ih

/-! ## The sweep over silent machines -/

/-- A rental: a pod or a virtual machine. -/
def WorkloadSpec.rental (w : WorkloadSpec) : Prop := w.kind ≠ .inference

instance (w : WorkloadSpec) : Decidable w.rental := inferInstanceAs (Decidable (_ ≠ _))

variable (settings) in
/-- A rental that is ready is ended or kept. -/
theorem silentReady_of_rental {workload : WorkloadSpec} (h : workload.rental)
    (silentFor : Option Time) : silentReady settings (some workload) silentFor ≠ .moved := by
  have hall : (some workload).all (fun w ↦ decide (w.kind ≠ .inference)) = true :=
    decide_eq_true h
  unfold silentReady
  rw [if_pos hall]
  cases silentFor with
  | none => simp
  | some t =>
    dsimp only
    split <;> simp

/-- A pass that finds a problem with the machine of a rental that is ready ends it or keeps it. -/
theorem rooted_of_ready {record : DeploymentRecord} {workload : WorkloadSpec} (observedAt : Time)
    (lease : LeaseAssignment) (hrecord : s.record d = some record) (hready : record.state = .ready)
    (needs : s.workloads.get? record.workloadId = some workload) (rental : workload.rental)
    (hrooted : Rooted origin record) :
    ((run settings (reassign settings observedAt d lease) s).1.position d).RootedAt origin := by
  have hp : (s.position d).RootedAt origin := ⟨record, hrecord, hrooted⟩
  rw [reassign, run_bind, run_of_looks settings (assignmentProblem_uses (fun _ h ↦ h) _ _)]
  cases (run settings (assignmentProblem settings lease observedAt) s).2 with
  | none => exact hp
  | some problem =>
    have hsilent : (run settings (silentDeployment settings (some record) problem.silentFor) s).2 =
        silentReady settings (some workload) problem.silentFor := by
      rw [silentDeployment, if_pos hready, run_bind, run_getWorkload, needs]
      rfl
    dsimp only
    rw [run_bind, run_getDeployment, hrecord, run_bind,
      run_of_looks settings (silentDeployment_uses (fun _ h ↦ h) _ _), hsilent]
    have hkept := silentReady_of_rental settings rental problem.silentFor
    cases hcase : silentReady settings (some workload) problem.silentFor with
    | ended silentFor =>
      dsimp only
      rw [run_bind, endOfflinePod, run_bind, run_bind]
      exact rooted_of_edits (c := .updateDeploymentStatus d _)
        (edits_updateDeploymentStatus settings rfl _ fun _ _ ↦ ⟨rfl, rfl⟩) (fun h ↦ h) hp
    | kept => exact hp
    | moved => exact absurd hcase hkept

/-- A pass does nothing to a deployment that is over. -/
theorem reassign_of_over {record : DeploymentRecord} (observedAt : Time) (lease : LeaseAssignment)
    (hrecord : s.record d = some record)
    (hover : record.state = .failed ∨ record.state = .terminated) :
    (run settings (reassign settings observedAt d lease) s).1 = s := by
  rw [reassign, run_bind, run_of_looks settings (assignmentProblem_uses (fun _ h ↦ h) _ _)]
  cases (run settings (assignmentProblem settings lease observedAt) s).2 with
  | none => rfl
  | some problem =>
    have hready : record.state ≠ .ready := by
      rcases hover with h | h <;> rw [h] <;> decide
    have hmoved : (run settings (silentDeployment settings (some record) problem.silentFor) s).2 =
        .moved := by
      rw [silentDeployment, if_neg hready]
      rfl
    dsimp only
    rw [run_bind, run_getDeployment, hrecord, run_bind,
      run_of_looks settings (silentDeployment_uses (fun _ h ↦ h) _ _), hmoved]
    dsimp only
    rw [requeueAssignment, run_bind, run_getDeployment, hrecord]
    dsimp only
    rw [if_pos hover]
    rfl

/-- A pass finds no fault with the machine. -/
def faultless (settings : Settings) (observedAt : Time) (lease : LeaseAssignment) (s : Fleet) :
    Bool :=
  (run settings (assignmentProblem settings lease observedAt) s).2.isNone

theorem reassign_of_faultless {observedAt : Time} {lease : LeaseAssignment}
    (h : faultless settings observedAt lease s = true) :
    (run settings (reassign settings observedAt d lease) s).1 = s := by
  rw [reassign, run_bind, run_of_looks settings (assignmentProblem_uses (fun _ h ↦ h) _ _),
    Option.isNone_iff_eq_none.mp h]
  rfl

/-- The states in which the sweep leaves a rental where it is. -/
abbrev sparedStates : List DeploymentState := [.ready, .failed, .terminated]

/-- The sweep comes to no lease of the deployment, unless that is in a state it spares or the
machine is without fault. -/
def Spares (settings : Settings) (observedAt : Time) (d : DeploymentId) :
    List (DeploymentId × LeaseAssignment) → Fleet → Prop
  | [], _ => True
  | (d', lease) :: rest, s =>
    (d' = d → (∃ state ∈ sparedStates, s.state d = some state) ∨
      faultless settings observedAt lease s = true) ∧
    Spares settings observedAt d rest (run settings (reassign settings observedAt d' lease) s).1

instance decidableSpares (settings : Settings) (observedAt : Time) (d : DeploymentId) :
    ∀ (assignments : List (DeploymentId × LeaseAssignment)) (s : Fleet),
      Decidable (Spares settings observedAt d assignments s)
  | [], _ => .isTrue trivial
  | (_, _) :: rest, _ =>
    have := decidableSpares settings observedAt d rest
    inferInstanceAs (Decidable (_ ∧ _))

theorem rooted_reassign {workload : WorkloadSpec} {observedAt : Time} {d' : DeploymentId}
    {lease : LeaseAssignment} (needs : s.workloads.get? origin.workloadId = some workload)
    (rental : workload.rental) (hp : (s.position d).RootedAt origin)
    (spared : d' = d → (∃ state ∈ sparedStates, s.state d = some state) ∨
      faultless settings observedAt lease s = true) :
    ((run settings (reassign settings observedAt d' lease) s).1.position d).RootedAt origin := by
  by_cases hd : d' = d
  · subst hd
    rcases spared rfl with ⟨state, hmem, hstate⟩ | hfine
    · obtain ⟨record, hrecord, hrooted⟩ := hp
      obtain rfl : record.state = state :=
        Option.some.inj ((Fleet.state_of_some hrecord).symm.trans hstate)
      by_cases hready : record.state = .ready
      · exact rooted_of_ready observedAt lease hrecord hready (by rw [hrooted.workloadId, needs])
          rental hrooted
      · have hover : record.state = .failed ∨ record.state = .terminated := by
          simpa [sparedStates, hready] using hmem
        rw [reassign_of_over observedAt lease hrecord hover]
        exact ⟨record, hrecord, hrooted⟩
    · rw [reassign_of_faultless hfine]
      exact hp
  · have habout : (reassign settings observedAt d' lease).Uses (About d') :=
      (permits_about d').reassign_uses (about_self rfl rfl) observedAt lease
    rw [position_run_of_about settings habout (Ne.symm hd)]
    exact hp

theorem rooted_reassignAll {workload : WorkloadSpec} {observedAt : Time}
    {assignments : List (DeploymentId × LeaseAssignment)}
    (needs : s.workloads.get? origin.workloadId = some workload) (rental : workload.rental)
    (hp : (s.position d).RootedAt origin) (spared : Spares settings observedAt d assignments s) :
    ((run settings (reassignAll settings observedAt assignments) s).1.position d).RootedAt
      origin := by
  induction assignments generalizing s with
  | nil => exact hp
  | cons entry assignments ih =>
    obtain ⟨d', lease⟩ := entry
    obtain ⟨hfirst, hrest⟩ := spared
    rw [reassignAll, run_bind, run_bind]
    refine ih ?_ (rooted_reassign needs rental hp hfirst) hrest
    rw [workloads_run]
    exact needs

/-! ## Every run -/

/-- Nobody requeues the deployment by hand, and each pass of the sweep over silent machines that
comes to it finds it in a state it spares, or its machine without fault. -/
def leftInPlace (settings : Settings) (d : DeploymentId) : FleetCall → Fleet → Prop
  | .requeueAssignment d' .., _ | .requeueDeployment d', _ => d' ≠ d
  | .processUnhealthyMiners time, s =>
    (run settings (anyMinerReporting settings (time.getD s.now)) s).2 = true →
      Spares settings (time.getD s.now) d (listAssignments activeStatuses s) s
  | _, _ => True

instance (c : FleetCall) (s : Fleet) : Decidable (leftInPlace settings d c s) := by
  rcases c with _ | _ <;> unfold leftInPlace <;> infer_instance

theorem rooted_after {workload : WorkloadSpec}
    (needs : s.workloads.get? origin.workloadId = some workload) (rental : workload.rental)
    (admitted : leftInPlace settings d c s) (hp : (s.position d).RootedAt origin) :
    (((controlPlane settings protocol).after c s).position d).RootedAt origin := by
  by_cases hsweep : ∃ time, c = .processUnhealthyMiners time
  · obtain ⟨time, rfl⟩ := hsweep
    change ((run settings (FleetCall.body settings protocol (.processUnhealthyMiners time))
      s).1.position d).RootedAt origin
    have hlook := run_of_looks settings (timeOr_uses (fun _ h ↦ h) time) s
    have htime : (run settings (timeOr time) s).2 = time.getD s.now := by
      cases time <;> rfl
    rw [FleetCall.body, run_discard, processUnhealthyMiners, run_bind, hlook, htime, run_bind,
      run_listAssignments, run_bind, run_of_looks settings (anyMinerReporting_uses (fun _ h ↦ h) _)]
    split
    · exact hp
    · next hgo =>
      by_cases hreporting : (run settings (anyMinerReporting settings (time.getD s.now)) s).2 = true
      · exact rooted_reassignAll needs rental hp (admitted hreporting)
      · -- No machine reports, so there is no lease to go through.
        have hnone : listAssignments activeStatuses s = [] := by
          by_contra hsome
          exact hgo ⟨hsome, Bool.not_eq_true _ ▸ hreporting⟩
        rw [hnone]
        exact hp
  · refine rooted_of_edits (edits_after settings protocol c s d) ?_ hp
    cases c with
    | requeueAssignment | requeueDeployment => exact admitted
    | processUnhealthyMiners time => exact absurd ⟨time, rfl⟩ hsweep
    | _ => exact fun h ↦ h

/-- **A rental's disk is not abandoned.** In every run in which nobody requeues a rental by hand and
the sweep over silent machines finds no fault with its machine while it is suspended or on its way
back, a rental that is ready keeps its miner and its node for the rest of its life. -/
theorem rental_keeps_machine {record : DeploymentRecord} {workload : WorkloadSpec}
    (hrecord : s.record d = some record) (ready : record.state = .ready)
    (needs : s.workloads.get? record.workloadId = some workload) (rental : workload.rental)
    (run : (controlPlane settings protocol).Calls (leftInPlace settings d) s s') :
    ∃ record', s'.record d = some record' ∧ record'.hotkey = record.hotkey ∧
      record'.nodeId = record.nodeId := by
  have hstart : (s.position d).RootedAt record :=
    ⟨record, hrecord, by rw [ready]; decide, rfl, rfl, rfl⟩
  have hend : s'.workloads.get? record.workloadId = some workload ∧
      (s'.position d).RootedAt record := by
    induction run with
    | refl => exact ⟨needs, hstart⟩
    | tail _ hcall ih =>
      obtain ⟨c, admitted, rfl⟩ := hcall
      refine ⟨?_, rooted_after ih.1 rental admitted ih.2⟩
      rw [← ih.1]
      exact congrArg (Table.get? · _) (workloads_run ..)
  obtain ⟨record', hrecord', hrooted⟩ := hend.2
  exact ⟨record', hrecord', hrooted.hotkey, hrooted.nodeId⟩

/-- User 1's pod runs on node 3 of miner 7. -/
private def runningPod : Fleet := (controlPlane {} quotedRates).afterAll (podOwner 0) startPod

private theorem runningPod_record :
    ∃ record, runningPod.record 1 = some record ∧ record.state = .ready ∧ record.hotkey = some 7 ∧
      record.nodeId = some 3 ∧
      ∃ workload, runningPod.workloads.get? record.workloadId = some workload ∧ workload.rental := by
  have h : (runningPod.record 1).any (fun record ↦ record.state = .ready ∧
      record.hotkey = some 7 ∧ record.nodeId = some 3 ∧
        (runningPod.workloads.get? record.workloadId).any fun w ↦ w.rental) = true := by
    decide +kernel
  simpa [Option.any_eq_true] using h

/-- Miner 7 goes silent and another one reports on: the sweep keeps the pod where it is. -/
theorem rental_keeps_machine_silent :
    ∃ s', (controlPlane {} quotedRates).Calls (leftInPlace {} 1) runningPod s' ∧
      ∃ record, s'.record 1 = some record ∧ record.hotkey = some 7 ∧ record.nodeId = some 3 := by
  obtain ⟨s', run, -⟩ := Service.exists_calls_of_makeCalls
    (S := controlPlane {} quotedRates) (G := leftInPlace {} 1) (s := runningPod)
    [.advance 1000, .recordHeartbeat 8 ⟨true, some 1000⟩, .processUnhealthyMiners none]
    (P := fun s ↦ s.state 1 = some .ready) (by decide +kernel)
  obtain ⟨record, hrecord, hready, hhotkey, hnode, workload, needs, rental⟩ := runningPod_record
  obtain ⟨record', hrecord', hhotkey', hnode'⟩ :=
    rental_keeps_machine hrecord hready needs rental run
  exact ⟨s', run, record', hrecord', by rw [hhotkey', hhotkey], by rw [hnode', hnode]⟩

/-- Nobody requeues anything by hand. -/
def unattended : FleetCall → Fleet → Prop
  | .requeueAssignment .., _ | .requeueDeployment _, _ => False
  | _, _ => True

instance (c : FleetCall) (s : Fleet) : Decidable (unattended c s) := by
  rcases c with _ | _ <;> unfold unattended <;> infer_instance

/-- The pod is suspended, its machine reports the GPU free, the pod is resumed, and the machine goes
silent before it has started the pod again: the sweep takes the pod off its machine. -/
theorem resumed_rental_moved :
    ∃ record, runningPod.record 1 = some record ∧ record.state = .ready ∧
      record.nodeId = some 3 ∧
      (∃ workload, runningPod.workloads.get? record.workloadId = some workload ∧
        workload.rental) ∧
      ∃ s', (controlPlane {} quotedRates).Calls unattended runningPod s' ∧
        (s'.record 1).map DeploymentRecord.nodeId = some none := by
  obtain ⟨record, hrecord, hready, -, hnode, hrental⟩ := runningPod_record
  exact ⟨record, hrecord, hready, hnode, hrental, Service.exists_calls_of_makeCalls
    [.advance 100, .meterUsage (some 100), .updateCapacity ⟨7, [oneNode], 100⟩, .resumeDeployment 1,
      .advance 1000, .recordHeartbeat 8 ⟨true, some 1100⟩, .processUnhealthyMiners none]
    (by decide +kernel)⟩

end GreenCompute
