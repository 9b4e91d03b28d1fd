import GreenCompute.ControlPlane.Leases
import GreenCompute.ControlPlane.Metering
import GreenCompute.ControlPlane.Outages

/-!
# How often a deployment is moved

A deployment whose machine dies is sent back to the queue, and a count that survives this says how
often. There is a limit to it, but only the request that finds no machine looks at the limit. Where
a machine is found every time, the deployment is moved on for ever.

In the runs in which a request for a deployment that has reached the limit finds no machine,
the limit holds, and the deployment is given up (`reassignment_bounded`).
-/

namespace GreenCompute

open ControlPlaneRepository ControlPlaneService

variable {settings : Settings} {protocol : Protocol} {s s' : Fleet} {d : DeploymentId}

/-! ## Moves -/

/-- The step of `_requeue_assignment` that takes the deployment off its machine. -/
def reassigns (d : DeploymentId) : Event ControlPlane → Bool
  | ⟨.updateAssignmentStatus d' status, _⟩ => d' = d ∧ status = .reassigned
  | _ => false

/-- How often the deployment is moved. -/
def moves (d : DeploymentId) (history : List (Event ControlPlane)) : ℕ :=
  history.countP (reassigns d)

/-- A transaction that does not move the deployment. -/
def Staying (d : DeploymentId) (o : FleetOp) : Prop := o ≠ .updateAssignmentStatus d .reassigned

theorem moves_of_uses (settings : Settings) {α : Type} {p : Program ControlPlane α}
    (hp : p.Uses (Staying d)) (s : Fleet) : moves d (history settings p s) = 0 := by
  refine List.countP_eq_zero.mpr fun e he hmoves ↦ ?_
  have hstays : Staying d e.1 := hp.trace s e he
  obtain ⟨o, answer⟩ := e
  cases o with
  | updateAssignmentStatus d' status =>
    obtain ⟨rfl, rfl⟩ := of_decide_eq_true hmoves
    exact hstays rfl
  | _ => cases hmoves

theorem moves_bind (settings : Settings) (d : DeploymentId) {α β : Type}
    (p : Program ControlPlane α) (f : α → Program ControlPlane β) (s : Fleet) :
    moves d (history settings (p >>= f) s) =
      moves d (history settings p s) +
        moves d (history settings (f (run settings p s).2) (run settings p s).1) := by
  rw [history_bind, moves, List.countP_append]
  rfl

theorem staying_of_looks (d : DeploymentId) (o : FleetOp) (h : o.looks = true) : Staying d o := by
  rintro rfl
  cases h

theorem staying_of_reports (d : DeploymentId) (o : FleetOp) (h : o.reports = true) :
    Staying d o := by
  rintro rfl
  cases h

/-- What is done about another deployment does not move this one. -/
theorem staying_of_about {d' : DeploymentId} (hd : d' ≠ d) {o : FleetOp} (h : About d' o) :
    Staying d o := by
  rintro rfl
  exact hd (h.2 d rfl).symm

/-- Only the requeue of the deployment moves it. -/
theorem permits_staying (d d' : DeploymentId) : Permits (Staying d) d' where
  looks := staying_of_looks d
  reports := staying_of_reports d
  lock := nofun
  unlock := nofun
  read := nofun
  create _ := nofun
  save _ := nofun
  stamp _ := nofun
  assign _ := nofun
  lease _ hstatus h := hstatus (FleetOp.updateAssignmentStatus.inj h).2
  placement _ _ _ := nofun
  reserve _ _ _ _ := nofun
  release := nofun

/-! ## What bounds them -/

namespace Stand

/-- A deployment that has been moved so often has counted it, and may be moved once more only if it
is on a machine. -/
structure Moved (limit : ℕ) (w : WorkloadId) (m : ℕ) (f : Stand) (record : DeploymentRecord) :
    Prop where
  found : f.record = some record
  workload : record.workloadId = w
  counted : m ≤ record.retryCount
  bounded : m ≤ limit
  placed : record.hotkey.isSome = true → m < limit
  leased : ∀ lease ∈ f.lease, lease.status ∈ activeStatuses → record.hotkey.isSome = true

variable {limit m : ℕ} {w : WorkloadId} {f : Stand} {record saved : DeploymentRecord}

/-- Saving a record that leaves the place as it is. -/
theorem Moved.save (h : f.Moved limit w m record) (hworkload : saved.workloadId = record.workloadId)
    (hcount : record.retryCount ≤ saved.retryCount) (hhotkey : saved.hotkey = record.hotkey) :
    (f.save saved).Moved limit w m saved where
  found := rfl
  workload := hworkload.trans h.workload
  counted := h.counted.trans hcount
  bounded := h.bounded
  placed := by
    rw [hhotkey]
    exact h.placed
  leased := by
    rw [hhotkey]
    exact h.leased

/-- A report about a deployment that is on a machine, or of its end. -/
theorem Moved.report (h : f.Moved limit w m record) (update : DeploymentStatusUpdate)
    (readyAt : Option Time)
    (horigin : record.hotkey.isSome = true ∨ update.state = .failed ∨ update.state = .terminated) :
    ((f.follow update.state).save (reported update record update.state readyAt)).Moved limit w m
      (reported update record update.state readyAt) where
  found := rfl
  workload := h.workload
  counted := h.counted
  bounded := h.bounded
  placed := h.placed
  leased := by
    intro lease hlease hactive
    have hfailed : LeaseStatus.failed ∉ activeStatuses := by decide
    have hterminated : LeaseStatus.terminated ∉ activeStatuses := by decide
    have hfollow : lease ∈ (f.follow update.state).lease := hlease
    -- The lease of a deployment that has ended is not active.
    rcases horigin with hplaced | hstate | hstate
    · exact hplaced
    · rw [hstate] at hfollow
      obtain ⟨old, -, rfl⟩ := Option.map_eq_some_iff.mp hfollow
      exact absurd hactive hfailed
    · rw [hstate] at hfollow
      obtain ⟨old, -, rfl⟩ := Option.map_eq_some_iff.mp hfollow
      exact absurd hactive hterminated

/-- A deployment that has been counted less often than the limit is placed. -/
theorem Moved.schedule (h : f.Moved limit w m record) (hbelow : record.retryCount < limit)
    {r : Option GpuReservation} {lease : LeaseAssignment}
    (hworkload : saved.workloadId = record.workloadId)
    (hcount : record.retryCount ≤ saved.retryCount) (hhotkey : saved.hotkey.isSome = true) :
    Moved limit w m (Stand.save ⟨f.record, r, some lease⟩ saved) saved where
  found := rfl
  workload := hworkload.trans h.workload
  counted := h.counted.trans hcount
  bounded := h.bounded
  placed := fun _ ↦ h.counted.trans_lt hbelow
  leased := fun _ _ _ ↦ hhotkey

/-- A deployment that is on a machine goes back to the queue. -/
theorem Moved.requeue (h : f.Moved limit w m record) (hplaced : record.hotkey.isSome = true)
    {r : Option GpuReservation} (hworkload : saved.workloadId = record.workloadId)
    (hcount : saved.retryCount = record.retryCount + 1) (hhotkey : saved.hotkey = none) :
    Moved limit w (m + 1) (Stand.save ((⟨f.record, r, f.lease⟩ : Stand).setLease .reassigned) saved)
      saved where
  found := rfl
  workload := hworkload.trans h.workload
  counted := by
    rw [hcount]
    exact Nat.succ_le_succ h.counted
  bounded := h.placed hplaced
  placed := by
    rw [hhotkey]
    exact fun h ↦ nomatch h
  leased := by
    intro lease hlease hactive
    have hreassigned : LeaseStatus.reassigned ∉ activeStatuses := by decide
    obtain ⟨old, -, rfl⟩ := Option.map_eq_some_iff.mp hlease
    exact absurd hactive hreassigned

end Stand

/-- A deployment of a workload that has been moved so often, and its count. -/
def Fleet.Moved (settings : Settings) (w : WorkloadId) (d : DeploymentId) (m : ℕ) (s : Fleet) :
    Prop :=
  ∃ record, (s.stand d).Moved settings.deploymentReassignRetryLimit w m record

section

variable {w : WorkloadId} {m : ℕ} {record : DeploymentRecord}

theorem Fleet.Moved.of_stand (h : s.Moved settings w d m) (hstand : s'.stand d = s.stand d) :
    s'.Moved settings w d m := by
  obtain ⟨record, hrecord⟩ := h
  exact ⟨record, by rwa [hstand]⟩

/-- A method that counts what it moves. -/
def Counts {α : Type} (settings : Settings) (w : WorkloadId) (d : DeploymentId) (m : ℕ)
    (p : Program ControlPlane α) (s : Fleet) : Prop :=
  (run settings p s).1.Moved settings w d (m + moves d (history settings p s))

theorem Counts.of_staying {α : Type} {p : Program ControlPlane α} (hp : p.Uses (Staying d))
    (h : (run settings p s).1.Moved settings w d m) : Counts settings w d m p s := by
  rw [Counts, moves_of_uses settings hp, Nat.add_zero]
  exact h

theorem Counts.bind {α β : Type} {p : Program ControlPlane α} {f : α → Program ControlPlane β}
    (hp : Counts settings w d m p s)
    (hf : ∀ m', (run settings p s).1.Moved settings w d m' →
      Counts settings w d m' (f (run settings p s).2) (run settings p s).1) :
    Counts settings w d m (p >>= f) s := by
  have hrest := hf _ hp
  rw [Counts, Nat.add_assoc, ← moves_bind, ← run_bind] at hrest
  exact hrest

/-- Reading a deployment first. -/
theorem Counts.read_bind {α : Type} {d' : DeploymentId}
    {f : Option DeploymentRecord → Program ControlPlane α}
    (hf : Counts settings w d m (f (s.record d')) s) :
    Counts settings w d m (call (.getDeployment d') >>= f) s := by
  have hread : moves d (history settings (call (.getDeployment d')) s) = 0 := rfl
  rw [Counts, moves_bind, hread, run_bind, Nat.zero_add]
  exact hf

/-- Looking first. -/
theorem Counts.looks_bind {α β : Type} {p : Program ControlPlane α}
    {f : α → Program ControlPlane β} (hp : p.Uses fun o : FleetOp ↦ o.looks = true)
    (hf : Counts settings w d m (f (run settings p s).2) s) :
    Counts settings w d m (p >>= f) s := by
  have hstays : moves d (history settings p s) = 0 :=
    moves_of_uses settings (hp.mono (staying_of_looks d)) s
  rw [Counts, moves_bind, hstays, run_bind, run_of_looks settings hp, Nat.zero_add]
  exact hf

theorem Counts.done {α : Type} (a : α) (h : s.Moved settings w d m) :
    Counts settings w d m (.done a : Program ControlPlane α) s := h

/-- What leaves the deployment where it stands. -/
theorem Counts.of_steady {α : Type} {p : Program ControlPlane α} (hp : p.Uses Steady)
    (h : s.Moved settings w d m) : Counts settings w d m p s := by
  refine .of_staying (hp.mono fun o ho ↦ ?_) (h.of_stand (stand_run_of_steady settings hp s d))
  rintro rfl
  exact nomatch ho.1

/-- What is done about another deployment. -/
theorem Counts.of_about {α : Type} {p : Program ControlPlane α} {d' : DeploymentId}
    (hp : p.Uses (About d')) (hd : d' ≠ d) (h : s.Moved settings w d m) :
    Counts settings w d m p s :=
  .of_staying (hp.mono fun _ ho ↦ staying_of_about hd ho)
    (h.of_stand (stand_run_of_about settings hp hd.symm s))

/-! ## Methods about the deployment -/

/-- Saving a record that leaves the place as it is. -/
theorem moved_save (h : (s.stand d).Moved settings.deploymentReassignRetryLimit w m record)
    (saved : DeploymentRecord) (hworkload : saved.workloadId = record.workloadId)
    (hcount : record.retryCount ≤ saved.retryCount) (hhotkey : saved.hotkey = record.hotkey) :
    (((FleetOp.updateDeployment d saved).exec settings s).1.stand d).Moved
      settings.deploymentReassignRetryLimit w m saved := by
  rw [stand_updateDeployment settings h.found hworkload]
  exact h.save hworkload hcount hhotkey

/-- A report of a machine the deployment is on, or of its end. -/
theorem moved_report (h : (s.stand d).Moved settings.deploymentReassignRetryLimit w m record)
    (update : DeploymentStatusUpdate)
    (horigin : record.hotkey.isSome = true ∨ update.state = .failed ∨ update.state = .terminated) :
    (run settings (updateDeploymentStatus d update) s).1.Moved settings w d m := by
  cases run_updateDeploymentStatus settings d update s with
  | refused same why => exact .of_stand ⟨record, h⟩ same
  | saved record' readyAt found live allowed moved =>
    obtain rfl : record = record' := Option.some.inj (h.found.symm.trans found)
    exact ⟨_, moved ▸ h.report update readyAt horigin⟩

/-- A machine's report is about a deployment that is on it. -/
theorem moved_deploymentStatus (h : s.Moved settings w d m) (hotkey : Hotkey)
    (update : DeploymentStatusUpdate) :
    (run settings (deploymentStatus d hotkey update) s).1.Moved settings w d m := by
  obtain ⟨record, hrecord⟩ := h
  have hfound : s.record d = some record := hrecord.found
  rw [deploymentStatus, run_bind, run_getDeployment, hfound]
  dsimp only
  by_cases hplaced : record.hotkey = some hotkey
  · have hreport := moved_report hrecord { update with suspendedReason := none }
      (.inl (by rw [hplaced]; rfl))
    rw [if_neg (not_not.mpr hplaced), run_bind]
    split <;> exact hreport
  · rw [if_pos hplaced]
    exact ⟨record, hrecord⟩

/-- A request that finds no machine. -/
theorem moved_notPlaced (h : (s.stand d).Moved settings.deploymentReassignRetryLimit w m record)
    (attempts : ℕ) :
    (run settings (notPlaced settings d record attempts) s).1.Moved settings w d m := by
  rw [notPlaced, run_bind, run_bind]
  have hwaiting := moved_save h { record with
    retryCount := max record.retryCount attempts
    lastError := some noCapacity
    lastRetryReason := some noCapacity
    failureClass := some "scheduler_failure".toList
    updatedAt := s.now } rfl (le_max_left _ _) rfl
  split
  · rw [run_bind, run_bind, run_bind]
    have hexhausted := moved_save hwaiting { record with
      retryCount := max record.retryCount attempts
      lastError := some noCapacity
      lastRetryReason := some noCapacity
      failureClass := some "scheduler_failure".toList
      retryExhausted := true
      updatedAt := s.now } rfl le_rfl rfl
    exact moved_report hexhausted _ (.inr (.inl rfl))
  · exact ⟨_, hwaiting⟩

/-! ### A request -/

/-- No machine that may be scheduled suits the deployment. -/
def Fleet.NoMachine (settings : Settings) (s : Fleet) (d : DeploymentId) : Prop :=
  ∀ record ∈ s.record d, ∀ workload ∈ s.workloads.get? record.workloadId,
    ∀ node ∈ (run settings (schedulableNodes settings (some d)) s).2,
      PlacementPolicy.suits workload (reservedGpusByNode s) node = false

instance (settings : Settings) (s : Fleet) (d : DeploymentId) :
    Decidable (s.NoMachine settings d) := by
  unfold Fleet.NoMachine
  infer_instance

theorem run_assignLease_of_noMachine (h : s.NoMachine settings d)
    (hrecord : s.record d = some record) {workload : WorkloadSpec}
    (hworkload : s.workloads.get? record.workloadId = some workload) :
    (run settings (assignLease settings workload d) s).2 = none := by
  have hnodes := h record hrecord workload hworkload
  have hlook : (run settings (schedulableNodes settings (some d)) s).1 = s :=
    run_of_looks settings (schedulableNodes_uses (fun _ h ↦ h) (some d)) s
  rw [assignLease, run_bind, hlook, run_bind, run_bind, run_bind]
  have hranked : PlacementPolicy.rankNodes workload
      (run settings (schedulableNodes settings (some d)) s).2 (reservedGpusByNode s) = [] := by
    refine List.eq_nil_iff_forall_not_mem.mpr fun node hnode ↦ ?_
    obtain ⟨hmem, hsuits⟩ := PlacementPolicy.mem_rankNodes.mp hnode
    rw [hnodes node hmem] at hsuits
    cases hsuits
  have hnone : PlacementPolicy.assignLease workload
      (run settings (schedulableNodes settings (some d)) s).2 (reservedGpusByNode s) s.now =
        none := by
    rw [PlacementPolicy.assignLease, hranked]
    rfl
  split
  · rfl
  · next hassigned => cases hnone.symm.trans hassigned

/-- A request for a deployment that has reached the limit finds no machine. -/
def GivesUp (settings : Settings) (d : DeploymentId) (s : Fleet) : Prop :=
  ∀ record ∈ s.record d, record.state = .pending →
    settings.deploymentReassignRetryLimit ≤ record.retryCount → s.NoMachine settings d

instance (settings : Settings) (d : DeploymentId) (s : Fleet) :
    Decidable (GivesUp settings d s) := by
  unfold GivesUp
  infer_instance

theorem moved_processDeploymentRequest (h : s.Moved settings w d m) (hgives : GivesUp settings d s)
    (attempts : ℕ) :
    (run settings (processDeploymentRequest settings protocol d attempts) s).1.Moved
      settings w d m := by
  obtain ⟨record, hrecord⟩ := h
  have hfound : s.record d = some record := hrecord.found
  rw [processDeploymentRequest, run_bind, run_getDeployment, hfound]
  dsimp only
  by_cases hpending : record.state = .pending
  swap
  · rw [if_pos hpending]
    exact ⟨record, hrecord⟩
  rw [if_neg (not_not.mpr hpending), run_bind, run_getWorkload]
  cases hworkload : s.workloads.get? record.workloadId with
  | none => exact ⟨record, hrecord⟩
  | some workload =>
    dsimp only
    rw [run_bind]
    have hfull := fun hlimit ↦
      run_assignLease_of_noMachine (hgives record hfound hpending hlimit) hfound hworkload
    have hattempt := run_assignLease settings workload d s
    generalize run settings (assignLease settings workload d) s = attempt at hattempt hfull ⊢
    obtain ⟨s', assignment⟩ := attempt
    generalize hstand : s'.stand d = f at hattempt
    cases hattempt with
    | refused =>
      dsimp only
      rw [run_bind]
      exact moved_notPlaced (hstand ▸ hrecord) attempts
    | held assignment hassigned =>
      -- A machine was found, so that the limit is not reached.
      have hbelow : record.retryCount < settings.deploymentReassignRetryLimit := by
        by_contra hlimit
        cases hfull (not_lt.mp hlimit)
      have hfound' : ((FleetOp.saveAssignment d assignment).exec settings s').1.record d =
          some record := by
        rw [← stand_record, stand_saveAssignment, hstand]
        exact hfound
      have hscheduled : ∀ saved : DeploymentRecord, saved.workloadId = record.workloadId →
          record.retryCount ≤ saved.retryCount → saved.hotkey.isSome = true →
            (((FleetOp.updateDeployment d saved).exec settings
              ((FleetOp.saveAssignment d assignment).exec settings s').1).1).Moved
                settings w d m := by
        intro saved hsaved hcount hplaced
        refine ⟨saved, ?_⟩
        rw [stand_updateDeployment settings hfound' hsaved,
          stand_saveAssignment settings s' d assignment, hstand]
        exact hrecord.schedule hbelow hsaved hcount hplaced
      exact hscheduled _ rfl (le_max_left _ _) rfl

/-! ### Off a machine -/

/-- A deployment is moved once, or left where it is. -/
theorem counts_requeueAssignment (h : s.Moved settings w d m) (hleased : s.Leased d)
    (assignment : LeaseAssignment) (reason : Text) (observedAt : Time) :
    Counts settings w d m (requeueAssignment settings d assignment reason observedAt) s := by
  obtain ⟨record, hrecord⟩ := h
  have hfound : s.record d = some record := hrecord.found
  have hplaced : record.hotkey.isSome = true := by
    obtain ⟨lease, hlease, hactive⟩ := hleased
    exact hrecord.leased lease hlease hactive
  rw [requeueAssignment]
  refine .read_bind ?_
  rw [hfound]
  dsimp only
  split
  · exact .done none ⟨record, hrecord⟩
  refine .looks_bind ⟨rfl, fun _ ↦ trivial⟩ ?_
  rw [run_getWorkload]
  cases s.workloads.get? record.workloadId with
  | none => exact .done none ⟨record, hrecord⟩
  | some workload =>
    dsimp only
    rw [Counts, run_bind, run_bind, run_bind, moves_bind, moves_bind, moves_bind]
    have hfreed : moves d (history settings (freeLease d assignment (some workload)) s) = 0 :=
      moves_of_uses settings (freeLease_uses (staying_of_looks d) (staying_of_reports d)
        (by rintro ⟨⟩) _ _) s
    have hfree := stand_run_freeLease settings d assignment (some workload) s
    generalize run settings (freeLease d assignment (some workload)) s = freed at hfree ⊢
    have hended : moves d (history settings (setLease d (some .reassigned)) freed.1) = 1 :=
      List.countP_singleton.trans (if_pos (decide_eq_true ⟨rfl, rfl⟩))
    have hlease := stand_run_setLease settings d (some .reassigned) freed.1
    generalize run settings (setLease d (some .reassigned)) freed.1 = ended at hlease ⊢
    have hmark := stand_updatePlacementStatus settings ended.1 d .failed true
      (some (observedAt + settings.placementFailureCooldownSeconds))
    generalize run settings (call (.updatePlacementStatus d .failed true
      (some (observedAt + settings.placementFailureCooldownSeconds)))) ended.1 = marked at hmark ⊢
    have hfound' : marked.1.record d = some record := by
      rw [← stand_record, hmark, hlease, hfree]
      exact hfound
    have hsaved : ∀ saved : DeploymentRecord, saved.workloadId = record.workloadId →
        saved.retryCount = record.retryCount + 1 → saved.hotkey = none →
          ((FleetOp.updateDeployment d saved).exec settings marked.1).1.Moved settings w d
            (m + 1) := by
      intro saved hworkload hcount hhotkey
      refine ⟨saved, ?_⟩
      rw [stand_updateDeployment settings hfound' hworkload, hmark, hlease, hfree]
      exact hrecord.requeue hplaced hworkload hcount hhotkey
    rw [hfreed, hended]
    exact hsaved _ rfl rfl rfl

/-! ## Sweeps -/

/-- One pass over a deployment that is on a machine. -/
theorem counts_reassign (h : s.Moved settings w d m) (hleased : s.Leased d) (observedAt : Time)
    (lease : LeaseAssignment) :
    Counts settings w d m (reassign settings observedAt d lease) s := by
  rw [reassign]
  refine .looks_bind (assignmentProblem_uses (fun _ h ↦ h) _ _) ?_
  cases (run settings (assignmentProblem settings lease observedAt) s).2 with
  | none => exact .done none h
  | some problem =>
    dsimp only
    refine .read_bind (.looks_bind (silentDeployment_uses (fun _ h ↦ h) _ _) ?_)
    cases (run settings (silentDeployment settings (s.record d) problem.silentFor) s).2 with
    | ended silentFor =>
      obtain ⟨record, hrecord⟩ := h
      dsimp only
      refine .of_staying ?_ ?_
      · refine .bind (.op_bind (by rintro ⟨⟩) fun now ↦ ?_) fun _ ↦ trivial
        exact .bind ((permits_staying _ d).updateDeploymentStatus_uses _) fun _ ↦ trivial
      · rw [run_bind, endOfflinePod, run_bind, run_bind]
        exact moved_report (s := s) hrecord _ (.inr (.inr rfl))
    | kept => exact .done none h
    | moved => exact counts_requeueAssignment h hleased lease _ observedAt

/-- The sweep over machines that have gone silent. The leases are listed once and each deployment is
on the list once, so its lease is as it was listed when its turn comes. -/
theorem counts_reassignAll (observedAt : Time) {assignments : List (DeploymentId × LeaseAssignment)}
    (hnodup : (assignments.map Prod.fst).Nodup) (h : s.Moved settings w d m)
    (hleased : d ∈ assignments.map Prod.fst → s.Leased d) :
    Counts settings w d m (reassignAll settings observedAt assignments) s := by
  induction assignments generalizing s m with
  | nil => exact .done [] h
  | cons entry assignments ih =>
    obtain ⟨d', lease⟩ := entry
    obtain ⟨hfresh, hnodup⟩ := List.nodup_cons.mp hnodup
    rw [reassignAll]
    by_cases hd : d' = d
    · subst hd
      refine .bind (counts_reassign h (hleased List.mem_cons_self) observedAt lease) fun m' h' ↦ ?_
      exact .bind (ih hnodup h' fun hmem ↦ absurd hmem hfresh) fun _ h'' ↦ .done _ h''
    · have habout : (reassign settings observedAt d' lease).Uses (About d') :=
        (permits_about d').reassign_uses (about_self rfl rfl) observedAt lease
      refine .bind (.of_about habout hd h) fun m' h' ↦ ?_
      refine .bind (ih hnodup h' fun hmem ↦ ?_) fun _ h'' ↦ .done _ h''
      have hsame := stand_run_of_about settings habout (Ne.symm hd) s
      have hlease : (run settings (reassign settings observedAt d' lease) s).1.leases.get? d =
          s.leases.get? d := congrArg Stand.lease hsame
      rw [Fleet.Leased, hlease]
      exact hleased (List.mem_cons_of_mem _ hmem)

theorem counts_processUnhealthyMiners (h : s.Moved settings w d m) (now : Option Time) :
    Counts settings w d m (processUnhealthyMiners settings now) s := by
  rw [processUnhealthyMiners]
  refine .looks_bind (timeOr_uses (fun _ h ↦ h) now) (.looks_bind ⟨rfl, fun _ ↦ trivial⟩ ?_)
  refine .looks_bind (anyMinerReporting_uses (fun _ h ↦ h) _) ?_
  rw [run_listAssignments]
  dsimp only
  split
  · exact .done [] h
  · refine counts_reassignAll _ (s.leases.nodup_select _) h fun hmem ↦ ?_
    obtain ⟨⟨_, lease⟩, hlisted, rfl⟩ := List.mem_map.mp hmem
    obtain ⟨hlease, hactive⟩ := Table.mem_select.mp hlisted
    exact ⟨lease, hlease, of_decide_eq_true hactive⟩

/-- One pass over a lease that may have run out. -/
theorem counts_expire (h : s.Moved settings w d m) (observedAt : Time) (lease : LeaseAssignment) :
    Counts settings w d m (expire observedAt d lease) s := by
  obtain ⟨record, hrecord⟩ := h
  have hfound : s.record d = some record := hrecord.found
  unfold expire
  split
  · exact .done _ ⟨record, hrecord⟩
  refine .read_bind ?_
  rw [hfound]
  dsimp only
  split
  · exact .done _ ⟨record, hrecord⟩
  · refine .of_staying (.bind ((permits_staying _ d).updateDeploymentStatus_uses _) fun _ ↦ trivial) ?_
    rw [run_bind]
    exact moved_report hrecord _ (.inr (.inl rfl))

/-- Giving up deployments that never became ready. -/
theorem counts_expireAll (h : s.Moved settings w d m) (observedAt : Time)
    (assignments : List (DeploymentId × LeaseAssignment)) :
    Counts settings w d m (expireAll observedAt assignments) s := by
  induction assignments generalizing s m with
  | nil => exact .done _ h
  | cons entry assignments ih =>
    obtain ⟨d', lease⟩ := entry
    have hexpire : Counts settings w d m (expire observedAt d' lease) s := by
      by_cases hd : d' = d
      · subst hd
        exact counts_expire h observedAt lease
      · exact .of_about ((permits_about _).expire_uses observedAt lease) hd h
    rw [expireAll]
    refine .bind hexpire fun m' h' ↦ ?_
    split
    · exact .done _ h'
    · exact .bind (ih h') fun _ h'' ↦ .done _ h''

/-! ## Every call -/

/-- The requests and sweeps, the reports of machines and what happens around: everything that goes
on while no operator looks after the deployment. -/
def Unattended (d : DeploymentId) : FleetCall → Prop
  | .createDeployment d' _ => d' ≠ d
  | .processDeploymentRequest .. | .processUnhealthyMiners _ | .processTimeouts _
  | .deploymentStatus .. | .updateCapacity _ | .recordHeartbeat .. | .drainMiner .. | .money _
  | .advance _ => True
  | _ => False

instance (d : DeploymentId) (c : FleetCall) : Decidable (Unattended d c) := by
  rcases c with _ | _ <;> unfold Unattended <;> infer_instance

/-- A request for a deployment that has reached the limit finds no machine. -/
def GivesUpCall (settings : Settings) (d : DeploymentId) (c : FleetCall) (s : Fleet) : Prop :=
  Unattended d c ∧ ∀ attempts, c = .processDeploymentRequest d attempts → GivesUp settings d s

theorem counts_discard {α : Type} {p : Program ControlPlane α} (h : Counts settings w d m p s) :
    Counts settings w d m (discard p) s :=
  .bind h fun _ h' ↦ .done () h'

theorem counts_body (h : s.Moved settings w d m) {c : FleetCall}
    (hc : GivesUpCall settings d c s) :
    Counts settings w d m (c.body settings protocol) s := by
  obtain ⟨hc, hgives⟩ := hc
  cases c with
  | createDeployment d' request =>
    exact counts_discard (.of_about ((permits_about d').createDeployment_uses request) hc h)
  | deploymentStatus d' hotkey update =>
    refine counts_discard ?_
    by_cases hd : d' = d
    · subst hd
      exact .of_staying ((permits_staying _ d').deploymentStatus_uses hotkey update)
        (moved_deploymentStatus h hotkey update)
    · exact .of_about ((permits_about d').deploymentStatus_uses hotkey update) hd h
  | processDeploymentRequest d' attempts =>
    refine counts_discard ?_
    by_cases hd : d' = d
    · subst hd
      exact .of_staying ((permits_staying _ d').processDeploymentRequest_uses attempts)
        (moved_processDeploymentRequest h (hgives attempts rfl) attempts)
    · exact .of_about ((permits_about d').processDeploymentRequest_uses attempts) hd h
  | processTimeouts now =>
    refine counts_discard (.looks_bind (timeOr_uses (fun _ h ↦ h) now) ?_)
    exact .looks_bind ⟨rfl, fun _ ↦ trivial⟩ (counts_expireAll h _ _)
  | processUnhealthyMiners now => exact counts_discard (counts_processUnhealthyMiners h now)
  | updateCapacity update => exact .of_steady ⟨steady_of_reports _ rfl, fun _ ↦ trivial⟩ h
  | recordHeartbeat hotkey heartbeat => exact .of_steady ⟨⟨rfl, rfl⟩, fun _ ↦ trivial⟩ h
  | drainMiner hotkey drained => exact .of_steady ⟨⟨rfl, rfl⟩, fun _ ↦ trivial⟩ h
  | money op => exact .of_steady ⟨⟨rfl, rfl⟩, fun _ ↦ trivial⟩ h
  | advance seconds => exact .of_steady ⟨⟨rfl, rfl⟩, fun _ ↦ trivial⟩ h
  | _ => exact hc.elim

/-- How often a deployment is moved while some calls are made. -/
def timesMoved (settings : Settings) (protocol : Protocol) (d : DeploymentId) :
    Fleet → List FleetCall → ℕ
  | _, [] => 0
  | s, c :: calls =>
    moves d (history settings (c.body settings protocol) s) +
      timesMoved settings protocol d ((controlPlane settings protocol).after c s) calls

theorem moved_afterAll {calls : List FleetCall} (h : s.Moved settings w d m)
    (hcalls : (controlPlane settings protocol).Admits (GivesUpCall settings d) s calls) :
    ((controlPlane settings protocol).afterAll s calls).Moved settings w d
      (m + timesMoved settings protocol d s calls) := by
  induction calls generalizing s m with
  | nil => exact h
  | cons c calls ih =>
    obtain ⟨hc, hcalls⟩ := hcalls
    have hcounts : Counts settings w d m (c.body settings protocol) s := counts_body h hc
    rw [timesMoved, ← Nat.add_assoc]
    exact ih hcounts hcalls

theorem workloads_afterAll (calls : List FleetCall) :
    ((controlPlane settings protocol).afterAll s calls).workloads = s.workloads := by
  induction calls generalizing s with
  | nil => rfl
  | cons c calls ih => exact ih.trans (workloads_run (c.body settings protocol) s)

/-! ## Giving up -/

/-- The deployment was given up. -/
def Fleet.Exhausted (s : Fleet) (d : DeploymentId) : Prop :=
  ∃ record ∈ s.record d, record.state = .failed ∧ record.retryExhausted = true

theorem exhausted_notPlaced (settings : Settings) (hrecord : s.record d = some record)
    (hpending : record.state = .pending)
    (hlimit : settings.deploymentReassignRetryLimit ≤ record.retryCount) (attempts : ℕ) :
    (run settings (notPlaced settings d record attempts) s).1.Exhausted d := by
  have hgives : settings.deploymentRequestRetryLimit ≤ attempts ∨
      settings.deploymentReassignRetryLimit ≤ max record.retryCount attempts :=
    .inr (hlimit.trans (le_max_left _ _))
  rw [notPlaced, run_bind, run_bind, if_pos hgives, run_bind, run_bind, run_bind]
  have hfailed : ∀ (t : Fleet) (saved : DeploymentRecord) (update : DeploymentStatusUpdate),
      t.record d = some saved → saved.state = .pending → saved.retryExhausted = true →
        update.state = .failed →
          (run settings (updateDeploymentStatus d update) t).1.Exhausted d := by
    intro t saved update hsaved hstate hexhausted hupdate
    cases run_updateDeploymentStatus settings d update t with
    | refused same why =>
      have hwhy := why saved hsaved
      rw [hstate, hupdate] at hwhy
      exact absurd hwhy (by decide)
    | saved record' readyAt found live allowed moved =>
      obtain rfl : saved = record' := Option.some.inj (hsaved.symm.trans found)
      refine ⟨_, congrArg Stand.record moved, hupdate, ?_⟩
      have hready : update.state ≠ .ready := by rw [hupdate]; decide
      exact (if_neg hready).trans hexhausted
  exact hfailed _ _ _ (record_updateDeployment settings
    (record_updateDeployment settings (s := s) hrecord rfl) rfl) hpending rfl rfl

/-- A request for a deployment that has reached the limit gives it up when it finds no machine. -/
theorem exhausted_of_request (protocol : Protocol) (hrecord : s.record d = some record)
    (hpending : record.state = .pending)
    (hlimit : settings.deploymentReassignRetryLimit ≤ record.retryCount)
    {workload : WorkloadSpec} (hworkload : s.workloads.get? record.workloadId = some workload)
    (hnone : s.NoMachine settings d) (attempts : ℕ) :
    (run settings (processDeploymentRequest settings protocol d attempts) s).1.Exhausted d := by
  have hrefused := run_assignLease_of_noMachine hnone hrecord hworkload
  rw [processDeploymentRequest, run_bind, run_getDeployment, hrecord]
  dsimp only
  rw [if_neg (not_not.mpr hpending), run_bind, run_getWorkload, hworkload]
  dsimp only
  rw [run_bind]
  have hattempt := run_assignLease settings workload d s
  generalize run settings (assignLease settings workload d) s = attempt at hattempt hrefused ⊢
  obtain ⟨s', assignment⟩ := attempt
  generalize hstand : s'.stand d = f at hattempt
  obtain rfl : assignment = none := hrefused
  cases hattempt with
  | refused =>
    dsimp only
    rw [run_bind]
    refine exhausted_notPlaced settings ?_ hpending hlimit attempts
    rw [← stand_record, hstand]
    exact hrecord

end

/-- A deployment that waits for its first machine is moved at most as often as the limit says, if no
request finds a machine for it any more once it has reached the limit. When it has been moved that
often and is back in the queue, the next request gives it up. -/
theorem reassignment_bounded (settings : Settings) (protocol : Protocol) {s : Fleet}
    {d : DeploymentId} {record : DeploymentRecord} {workload : WorkloadSpec}
    (hrecord : s.record d = some record) (hqueued : record.hotkey = none) (hidle : ¬s.Leased d)
    (hworkload : s.workloads.get? record.workloadId = some workload) {calls : List FleetCall}
    (hcalls : (controlPlane settings protocol).Admits (GivesUpCall settings d) s calls) :
    timesMoved settings protocol d s calls ≤ settings.deploymentReassignRetryLimit ∧
      ∀ attempts, timesMoved settings protocol d s calls = settings.deploymentReassignRetryLimit →
        ((controlPlane settings protocol).afterAll s calls).state d = some .pending →
        GivesUp settings d ((controlPlane settings protocol).afterAll s calls) →
          ((controlPlane settings protocol).after (.processDeploymentRequest d attempts)
            ((controlPlane settings protocol).afterAll s calls)).Exhausted d := by
  have hstart : s.Moved settings record.workloadId d 0 := by
    refine ⟨record, hrecord, rfl, Nat.zero_le _, Nat.zero_le _, fun h ↦ ?_, fun lease hlease h ↦ ?_⟩
    · rw [hqueued] at h
      cases h
    · exact absurd ⟨lease, hlease, h⟩ hidle
  obtain ⟨last, hlast⟩ := moved_afterAll hstart hcalls
  rw [Nat.zero_add] at hlast
  refine ⟨hlast.bounded, fun attempts hmost hpending hgives ↦ ?_⟩
  have hfound : ((controlPlane settings protocol).afterAll s calls).record d = some last :=
    hlast.found
  have hstate : last.state = .pending :=
    Option.some.inj ((Fleet.state_of_some hfound).symm.trans hpending)
  have hlimit : settings.deploymentReassignRetryLimit ≤ last.retryCount := hmost ▸ hlast.counted
  have hknown : ((controlPlane settings protocol).afterAll s calls).workloads.get? last.workloadId =
      some workload := by
    rw [workloads_afterAll, hlast.workload]
    exact hworkload
  change (run settings
    (discard (processDeploymentRequest settings protocol d attempts)) _).1.Exhausted d
  rw [run_discard]
  exact exhausted_of_request protocol hfound hstate hlimit hknown
    (hgives last hfound hstate hlimit) attempts

/-! ### A machine that comes and goes -/

/-- Pod 1 of user 1 waits for a machine, and machine 7 is there. -/
def queuedPod (settings : Settings) : Fleet :=
  (controlPlane settings quotedRates).afterAll (podOwner 100)
    [.updateCapacity ⟨7, [oneNode], 0⟩, .recordHeartbeat 7 ⟨true, some 0⟩,
      .createDeployment 1 ⟨"pod".toList, some 1, none, 1, true, false, true⟩]

/-- The pod is placed on machine 7, and 200 seconds later only machine 8 has reported. -/
def machineDies (t : Time) : List FleetCall :=
  [.processDeploymentRequest 1 1, .advance 200, .recordHeartbeat 8 ⟨true, some t⟩,
    .processUnhealthyMiners none]

/-- Machine 7 is back. -/
def machineReturns (t : Time) : List FleetCall :=
  [.recordHeartbeat 7 ⟨true, some t⟩, .updateCapacity ⟨7, [oneNode], t⟩]

/-- With a limit of one, the pod is moved once and then given up. -/
theorem reassignment_bounded_once :
    timesMoved { deploymentReassignRetryLimit := 1 } quotedRates 1
        (queuedPod { deploymentReassignRetryLimit := 1 }) (machineDies 200) ≤ 1 ∧
      ((controlPlane { deploymentReassignRetryLimit := 1 } quotedRates).after
        (.processDeploymentRequest 1 1)
        ((controlPlane { deploymentReassignRetryLimit := 1 } quotedRates).afterAll
          (queuedPod { deploymentReassignRetryLimit := 1 }) (machineDies 200))).Exhausted 1 := by
  have hcalls : (controlPlane { deploymentReassignRetryLimit := 1 } quotedRates).Admits
      (GivesUpCall { deploymentReassignRetryLimit := 1 } 1)
      (queuedPod { deploymentReassignRetryLimit := 1 }) (machineDies 200) := by
    refine ⟨⟨trivial, fun _ _ ↦ by decide +kernel⟩, ⟨trivial, fun _ h ↦ nomatch h⟩,
      ⟨trivial, fun _ h ↦ nomatch h⟩, ⟨trivial, fun _ h ↦ nomatch h⟩, trivial⟩
  have hrecord : (queuedPod { deploymentReassignRetryLimit := 1 }).record 1 =
      some { podRecord with hotkey := none, nodeId := none } := rfl
  have hworkload : (queuedPod { deploymentReassignRetryLimit := 1 }).workloads.get? "pod".toList =
      some onePod := rfl
  obtain ⟨hbounded, hgives⟩ := reassignment_bounded { deploymentReassignRetryLimit := 1 }
    quotedRates hrecord rfl (by decide +kernel) hworkload hcalls
  exact ⟨hbounded, hgives 1 (by decide +kernel) (by decide +kernel) (by decide +kernel)⟩

/-- A machine that comes and goes is found every time, and the pod is moved beyond the limit. -/
theorem moved_beyond_limit :
    ¬∀ calls, (∀ c ∈ calls, Unattended 1 c) →
      timesMoved {} quotedRates 1 (queuedPod {}) calls ≤
        ({} : Settings).deploymentReassignRetryLimit := by
  intro h
  have hmany := h ((List.range 11).flatMap fun k ↦
    machineDies (200 * (k + 1)) ++ machineReturns (200 * (k + 1))) (by decide +kernel)
  exact absurd hmany (by decide +kernel)

end GreenCompute
