import GreenCompute.ControlPlane.Leases

/-!
# Refused changes of status

A method that refuses to change a deployment's status is to have changed nothing: its row, its
lease and placement, its hold and the capacity of its node are what they were. Reports and resumes
look first and write afterwards. An operator's failing of a deployment takes it off its machine
before it asks whether the deployment can fail at all, and a suspended one cannot. Where such a one
is being resumed it has been taken off its machine, and the call is refused
(`refused_unchanged_iff`).
-/

namespace GreenCompute

open ControlPlaneRepository ControlPlaneService

variable {settings : Settings} {s : Fleet} {d : DeploymentId}

/-- The method, run with nothing in between, raises only if it leaves everything as it was. -/
def Refuses {α : Type} (settings : Settings)
    (p : Program ControlPlane (Except ControlPlaneError α)) (s : Fleet) : Prop :=
  ∀ e, (run settings p s).2 = .error e → (run settings p s).1 = s

/-! ## Reports -/

/-- A report that raises has changed nothing, and a deployment that it is about is in a state that
may not go over to the reported one. -/
theorem error_updateDeploymentStatus {update : DeploymentStatusUpdate} {e : ControlPlaneError}
    (he : (run settings (updateDeploymentStatus d update) s).2 = .error e) :
    (run settings (updateDeploymentStatus d update) s).1 = s ∧ ∀ record, s.record d = some record →
      ¬(record.state = .terminated ∨ record.state = .failed) ∧
        record.state.transition update.state = none := by
  rw [updateDeploymentStatus, run_bind, run_getDeployment] at he ⊢
  cases hrecord : s.record d with
  | none => exact ⟨rfl, by rintro _ ⟨⟩⟩
  | some record =>
    rw [hrecord] at he
    dsimp only at he ⊢
    by_cases hterminal : record.state = .terminated ∨ record.state = .failed
    · rw [if_pos hterminal] at he
      cases he
    · rw [if_neg hterminal] at he ⊢
      cases hnext : record.state.transition update.state with
      | none =>
        refine ⟨rfl, fun record' hrecord' ↦ ?_⟩
        obtain rfl := Option.some.inj hrecord'
        exact ⟨hterminal, hnext⟩
      | some next =>
        rw [hnext] at he
        simp only [run_bind, run_pure] at he
        cases he

theorem refuses_updateDeploymentStatus (settings : Settings) (d : DeploymentId)
    (update : DeploymentStatusUpdate) (s : Fleet) :
    Refuses settings (updateDeploymentStatus d update) s :=
  fun _ he ↦ (error_updateDeploymentStatus he).1

/-- Only a suspended deployment, of those that there are, refuses a report of failure. -/
theorem suspended_of_error {update : DeploymentStatusUpdate} (hfailed : update.state = .failed)
    {e : ControlPlaneError} (he : (run settings (updateDeploymentStatus d update) s).2 = .error e)
    {record : DeploymentRecord} (hrecord : s.record d = some record) :
    record.state = .suspended := by
  obtain ⟨hlive, hnext⟩ := (error_updateDeploymentStatus he).2 record hrecord
  rw [hfailed] at hnext
  cases hstate : record.state with
  | suspended => rfl
  | failed => exact (hlive (.inr hstate)).elim
  | terminated => exact (hlive (.inl hstate)).elim
  | _ =>
    rw [hstate] at hnext
    cases hnext

theorem updateDeploymentStatus_suspended (settings : Settings) {update : DeploymentStatusUpdate}
    (hfailed : update.state = .failed) (hstate : s.state d = some .suspended) :
    (run settings (updateDeploymentStatus d update) s).2 =
      .error .invalidDeploymentTransition := by
  obtain ⟨record, hrecord, hsuspended⟩ := Option.map_eq_some_iff.mp hstate
  rw [updateDeploymentStatus, run_bind, run_getDeployment, hrecord]
  dsimp only
  rw [if_neg (by simp [hsuspended]), hfailed, hsuspended]
  rfl

/-! ## Resuming -/

theorem refuses_resumeDeployment (settings : Settings) (d : DeploymentId) (s : Fleet) :
    Refuses settings (resumeDeployment d) s := by
  intro e he
  rw [resumeDeployment, run_bind, run_getDeployment] at he ⊢
  cases hrecord : s.record d with
  | none => rfl
  | some record =>
    rw [hrecord] at he
    dsimp only at he ⊢
    split
    · rfl
    · next hsuspended =>
      rw [if_neg hsuspended] at he
      split
      · next hotkey nodeId hhotkey hnode =>
        rw [hhotkey, hnode] at he
        dsimp only at he
        rw [run_bind, run_getWorkload] at he ⊢
        cases hworkload : s.workloads.get? record.workloadId with
        | none => rfl
        | some workload =>
          rw [hworkload] at he
          dsimp only at he ⊢
          rw [run_bind, run_of_looks settings (findNode_uses (fun _ h ↦ h) nodeId)] at he ⊢
          cases hnode : (run settings (findNode nodeId) s).2 with
          | none => rfl
          | some node =>
            rw [hnode] at he
            dsimp only at he ⊢
            rw [run_bind, run_reservedGpusByNode] at he ⊢
            dsimp only at he ⊢
            split
            · rfl
            · next havailable =>
              rw [if_neg havailable] at he
              simp only [run_bind, run_pure] at he
              cases he
      · rfl

/-! ## Failing -/

/-- The lease under which a deployment is on a machine. -/
theorem leased_iff (s : Fleet) (d : DeploymentId) :
    s.Leased d ↔ ((s.stand d).lease.filter fun lease ↦ lease.status ∈ activeStatuses) ≠ none := by
  rw [← Option.isSome_iff_ne_none, Option.isSome_filter, Option.any_eq_true]
  exact exists_congr fun lease ↦ and_congr_right fun _ ↦ decide_eq_true_iff.symm

/-- A deployment that is taken off its machine is not left as it was. -/
theorem endLease_changes (settings : Settings) (record : DeploymentRecord)
    (assignment : LeaseAssignment) (cooldown : Time → Time) (hleased : s.Leased d) :
    (run settings (endLease d record assignment .failed true cooldown) s).1 ≠ s := by
  intro hsame
  have hended := stand_run_endLease settings d record assignment .failed true cooldown s
  rw [hsame] at hended
  obtain ⟨lease, hlease, hactive⟩ := hleased
  have hstand : (s.stand d).lease = some lease := hlease
  have hterminated : (s.stand d).lease = some { lease with status := .terminated } := by
    rw [hended, Stand.setLease, Stand.release, hstand]
    rfl
  rw [hstand] at hterminated
  rw [congrArg LeaseAssignment.status (Option.some.inj hterminated)] at hactive
  have hended : LeaseStatus.terminated ∉ activeStatuses := by decide
  exact hended hactive

/-- A deployment is taken off its machine, and then reported as failed. -/
theorem run_failDeployment (settings : Settings) {record : DeploymentRecord}
    (hrecord : s.record d = some record) :
    ∃ update : DeploymentStatusUpdate, update.state = .failed ∧
      run settings (failDeployment settings d) s = run settings (updateDeploymentStatus d update)
        (run settings (failAssignment settings d record
          ((s.stand d).lease.filter fun lease ↦ lease.status ∈ activeStatuses)) s).1 := by
  rw [failDeployment, run_bind, run_getDeployment, hrecord]
  dsimp only
  rw [run_bind, run_activeAssignment, run_bind, run_bind]
  exact ⟨_, rfl, rfl⟩

/-- Its record is not touched when it is taken off its machine. -/
theorem record_failAssignment (settings : Settings) (record : DeploymentRecord)
    (assignment : Option LeaseAssignment) (s : Fleet) :
    (run settings (failAssignment settings d record assignment) s).1.record d = s.record d := by
  cases assignment with
  | none => rfl
  | some assignment =>
    have hended := stand_run_endLease settings d record assignment .failed true
      (· + settings.placementFailureCooldownSeconds) s
    exact congrArg Stand.record hended

/-- Failing a deployment raises without a change exactly if it is not a suspended one that is on a
machine. -/
theorem refuses_failDeployment_iff (settings : Settings) (d : DeploymentId) (s : Fleet) :
    Refuses settings (failDeployment settings d) s ↔
      ¬(s.state d = some .suspended ∧ s.Leased d) := by
  constructor
  · rintro hrefuses ⟨hstate, hleased⟩
    obtain ⟨record, hrecord, -⟩ := Option.map_eq_some_iff.mp hstate
    obtain ⟨assignment, hassignment⟩ := Option.ne_none_iff_exists'.mp ((leased_iff s d).mp hleased)
    obtain ⟨update, hfailed, hrun⟩ := run_failDeployment settings hrecord
    have hsame := record_failAssignment (d := d) settings record
      ((s.stand d).lease.filter fun lease ↦ lease.status ∈ activeStatuses) s
    rw [hassignment] at hrun hsame
    have hstate' : (run settings (failAssignment settings d record (some assignment)) s).1.state d =
        some .suspended := (congrArg (Option.map DeploymentRecord.state) hsame).trans hstate
    have herror := updateDeploymentStatus_suspended settings hfailed hstate'
    rw [← hrun] at herror
    -- The call raises, and what the report was refused on is what the machine was taken from.
    have hunchanged := hrefuses _ herror
    rw [hrun, (error_updateDeploymentStatus (hrun ▸ herror)).1] at hunchanged
    exact endLease_changes settings record assignment _ hleased hunchanged
  · intro hspared e he
    cases hrecord : s.record d with
    | none =>
      rw [failDeployment, run_bind, run_getDeployment, hrecord]
      rfl
    | some record =>
      obtain ⟨update, hfailed, hrun⟩ := run_failDeployment settings hrecord
      have hsame := record_failAssignment (d := d) settings record
        ((s.stand d).lease.filter fun lease ↦ lease.status ∈ activeStatuses) s
      rw [hrun] at he ⊢
      have hsuspended := suspended_of_error hfailed he (hsame.trans hrecord)
      have hstate : s.state d = some .suspended := by
        rw [Fleet.state, hrecord, Option.map_some, hsuspended]
      have hnone : ((s.stand d).lease.filter fun lease ↦ lease.status ∈ activeStatuses) = none :=
        of_not_not fun hsome ↦ hspared ⟨hstate, (leased_iff s d).mpr hsome⟩
      rw [(error_updateDeploymentStatus he).1, hnone]
      rfl

/-- **A refused change of status changes nothing**, exactly where no suspended deployment that is
being resumed is failed. -/
theorem refused_unchanged_iff (settings : Settings) (d : DeploymentId) (s : Fleet) :
    (∀ update, Refuses settings (updateDeploymentStatus d update) s) ∧
      Refuses settings (resumeDeployment d) s ∧
      (Refuses settings (failDeployment settings d) s ↔
        ¬(s.state d = some .suspended ∧ s.Leased d)) :=
  ⟨fun update ↦ refuses_updateDeploymentStatus settings d update s,
    refuses_resumeDeployment settings d s, refuses_failDeployment_iff settings d s⟩

/-- User 1's pod, suspended and, once its machine reports its GPU as free, resumed. -/
def resumedPod : Fleet :=
  (controlPlane {} quotedRates).afterAll (podOwner 100) (startPod ++
    [.updateDeploymentStatus 1 { state := .suspended, observedAt := 0 },
      .updateCapacity ⟨7, [oneNode], 0⟩, .resumeDeployment 1])

/-- Failing the pod while it is being resumed raises, after its lease has been ended, its GPU given
back and its placement marked as failed. -/
theorem failed_while_resuming :
    (run {} (failDeployment {} 1) resumedPod).2.isOk = false ∧
      resumedPod.Leased 1 ∧ (resumedPod.hold 1).isSome ∧
      ¬(run {} (failDeployment {} 1) resumedPod).1.Leased 1 ∧
      (run {} (failDeployment {} 1) resumedPod).1.hold 1 = none ∧
      (run {} (failDeployment {} 1) resumedPod).1.state 1 = some .suspended := by
  decide +kernel

end GreenCompute
