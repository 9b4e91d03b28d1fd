import GreenCompute.ControlPlane.Effects

/-!
# Where a deployment stands

The control plane keeps three things about a deployment in step: its record, its reservation and
its lease. Together they are its `Stand`. This module says what each method, run as a whole, does
to a stand: it leaves every other deployment's alone, and moves its own in one of a few ways.
-/

namespace GreenCompute

open ControlPlaneRepository ControlPlaneService

/-! ## Whole methods -/

section run

variable {α β : Type} (settings : Settings)

/-- A method run with nothing in between. -/
def run (p : Program ControlPlane α) (s : Fleet) : Fleet × α := Program.eval (fleet settings) p s

variable {settings} {s : Fleet} {p : Program ControlPlane α}

@[simp] theorem run_done (a : α) : run settings (.done a : Program ControlPlane α) s = (s, a) := rfl

@[simp] theorem run_pure (a : α) : run settings (pure a : Program ControlPlane α) s = (s, a) := rfl

@[simp] theorem run_call (o : FleetOp) : run settings (call o) s = o.exec settings s := rfl

@[simp] theorem run_bind (f : α → Program ControlPlane β) :
    run settings (p >>= f) s = run settings (f (run settings p s).2) (run settings p s).1 :=
  Program.eval_bind _ p f s

/-- What each operation of a method keeps, the method keeps. -/
theorem run_keeps {δ : Type} (g : Fleet → δ) (s : Fleet)
    (hp : p.Uses fun o ↦ ∀ s, g (o.exec settings s).1 = g s) : g (run settings p s).1 = g s :=
  (Program.Along.of_uses (M := fleet settings) hp s).keeps g fun _ _ h ↦ h

@[simp] theorem workloads_run (p : Program ControlPlane α) (s : Fleet) :
    (run settings p s).1.workloads = s.workloads :=
  run_keeps Fleet.workloads s (.of_forall (fun o s ↦ (leaves_exec settings o s).workloads) p)

end run

/-! ## Stands -/

/-- What is kept about a deployment beside its meter. -/
structure Stand where
  record : Option DeploymentRecord
  reservation : Option GpuReservation
  lease : Option LeaseAssignment

namespace Stand

/-- The deployment holds its GPUs. -/
def holding (f : Stand) : Bool := f.reservation.any fun r ↦ r.status = .active

/-- The lease in another status. -/
def setLease (f : Stand) (status : LeaseStatus) : Stand :=
  { f with lease := f.lease.map fun lease ↦ { lease with status := status } }

/-- The hold given back. -/
def release (f : Stand) : Stand :=
  { f with reservation := f.reservation.map fun r ↦ { r with status := .released } }

/-- Another record. -/
def save (f : Stand) (record : DeploymentRecord) : Stand := { f with record := some record }

/-- What a reported state does to the lease and the hold. -/
def follow (f : Stand) (state : DeploymentState) : Stand :=
  let f' := match leaseStatusFor state with
    | none => f
    | some status => f.setLease status
  if releasesHold state then f'.release else f'

@[simp] theorem holding_release (f : Stand) : f.release.holding = false := by
  unfold release holding
  cases f.reservation <;> rfl

end Stand

namespace Fleet

/-- Where a deployment stands. -/
def stand (s : Fleet) (d : DeploymentId) : Stand :=
  ⟨s.record d, s.reservations.get? d, s.leases.get? d⟩

theorem holding_stand (s : Fleet) (d : DeploymentId) :
    (s.stand d).holding = (s.hold d).isSome := by
  unfold Stand.holding stand hold
  cases s.reservations.get? d with
  | none => rfl
  | some r => by_cases h : r.status = .active <;> simp [Option.filter, h]

end Fleet

/-- The deployment whose stand a transaction may move. -/
def FleetOp.moves : FleetOp → Option DeploymentId
  | createDeployment d _ | updateDeployment d _ | saveAssignment d _ | updateAssignmentStatus d _
  | reserveGpus d .. | releaseGpuReservation d => some d
  | _ => none

/-- A transaction that moves no stand. -/
def Steady (o : FleetOp) : Prop := o.moves = none ∧ o.sweeps = false

/-- What happens around the control plane: machines report that they live, staff drain miners, money
moves and time passes. -/
def FleetOp.outside : FleetOp → Bool
  | upsertHeartbeat .. | setMinerDrained .. | money _ | advance _ => true
  | _ => false

/-- A transaction of the control plane's own that writes the rows of no deployment but perhaps
`d`. -/
def About (d : DeploymentId) (o : FleetOp) : Prop :=
  (o.sweeps || o.outside) = false ∧ ∀ d', o.subject = some d' → d' = d

variable {settings : Settings} {s : Fleet} {d : DeploymentId}

theorem stand_exec (settings : Settings) {o : FleetOp} (hmoves : o.moves ≠ some d)
    (hsweeps : o.sweeps = false) :
    (o.exec settings s).1.stand d = s.stand d := by
  have hleaves := leaves_exec settings o s
  have hrecord : (o.exec settings s).1.record d = s.record d := by
    cases recordStep_exec settings o d s with
    | kept h => exact h
    | saved record op h => exact absurd (by rw [op]; rfl) hmoves
    | created record op fresh h => exact absurd (by rw [op]; rfl) hmoves
  have hreservation : (o.exec settings s).1.reservations.get? d = s.reservations.get? d := by
    cases hholds : o.holds with
    | false => rw [hleaves.reservations hholds]
    | true =>
      refine hleaves.reservation d (fun hsubject ↦ hmoves ?_) hsweeps
      cases o <;> first | exact hsubject | cases hholds
  have hlease := hleaves.lease d fun hleaseOf ↦ hmoves (by
    cases o <;> first | exact hleaseOf | cases hleaseOf)
  rw [Fleet.stand, hrecord, hreservation, hlease, Fleet.stand]

/-- A method that moves no stand. -/
theorem stand_run_of_steady (settings : Settings) {α : Type} {p : Program ControlPlane α}
    (hp : p.Uses Steady)
    (s : Fleet) (d : DeploymentId) : (run settings p s).1.stand d = s.stand d := by
  refine run_keeps (Fleet.stand · d) s (hp.mono fun o ho s ↦ stand_exec settings ?_ ho.2)
  rw [ho.1]
  exact fun h ↦ nomatch h

theorem About.sweeps {o : FleetOp} (h : About d o) : o.sweeps = false :=
  (Bool.or_eq_false_iff.mp h.1).1

theorem About.outside {o : FleetOp} (h : About d o) : o.outside = false :=
  (Bool.or_eq_false_iff.mp h.1).2

theorem subject_of_moves {o : FleetOp} {d : DeploymentId} (h : o.moves = some d) :
    o.subject = some d := by
  cases o <;> first | exact h | cases h

/-- A method about one deployment moves no other's stand. -/
theorem stand_run_of_about (settings : Settings) {α : Type} {p : Program ControlPlane α}
    {d' : DeploymentId}
    (hp : p.Uses (About d)) (hd' : d' ≠ d) (s : Fleet) :
    (run settings p s).1.stand d' = s.stand d' :=
  run_keeps (Fleet.stand · d') s (hp.mono fun _ ho _ ↦
    stand_exec settings (fun h ↦ hd' (ho.2 d' (subject_of_moves h))) ho.sweeps)

theorem steady_of_looks (o : FleetOp) (h : o.looks = true) : Steady o := by
  cases o <;> first | exact ⟨rfl, rfl⟩ | cases h

theorem steady_of_reports (o : FleetOp) (h : o.reports = true) : Steady o := by
  cases o <;> first | exact ⟨rfl, rfl⟩ | cases h

/-- A transaction with no subject. -/
theorem about_of_none {o : FleetOp} (hsubject : o.subject = none)
    (hsweeps : (o.sweeps || o.outside) = false) : About d o :=
  ⟨hsweeps, fun _ hd' ↦ nomatch (hsubject.symm.trans hd')⟩

/-- A transaction whose subject is the deployment. -/
theorem about_self {o : FleetOp} (hsubject : o.subject = some d)
    (hsweeps : (o.sweeps || o.outside) = false) : About d o :=
  ⟨hsweeps, fun _ hd' ↦ Option.some.inj (hd'.symm.trans hsubject)⟩

theorem about_of_looks (d : DeploymentId) (o : FleetOp) (h : o.looks = true) : About d o := by
  cases o <;> first | exact about_of_none rfl rfl | cases h

theorem about_of_reports (d : DeploymentId) (o : FleetOp) (h : o.reports = true) : About d o := by
  cases o <;> first | exact about_of_none rfl rfl | cases h

/-! ## The transactions that move a stand -/

theorem stand_updateAssignmentStatus (settings : Settings) (s : Fleet) (d : DeploymentId)
    (status : LeaseStatus) :
    ((FleetOp.updateAssignmentStatus d status).exec settings s).1.stand d =
      (s.stand d).setLease status := by
  simp only [FleetOp.exec, updateAssignmentStatus, Stand.setLease, Fleet.stand]
  split
  · next hnone => rw [hnone]; rfl
  · next lease hlease =>
    obtain ⟨placements, hplacements⟩ := modifyLatestPlacement_eq d
      (fun p ↦ { p with status := status, updatedAt := s.now }) s
    rw [hplacements, hlease]
    simp [Fleet.record]

theorem stand_releaseGpuReservation (settings : Settings) (s : Fleet) (d : DeploymentId) :
    ((FleetOp.releaseGpuReservation d).exec settings s).1.stand d = (s.stand d).release := by
  simp only [FleetOp.exec, releaseGpuReservation, Stand.release, Fleet.stand, Fleet.record,
    Table.get?_modify_self]

/-- Saving a record that keeps the workload. -/
theorem stand_updateDeployment (settings : Settings) {record saved : DeploymentRecord}
    (hrecord : s.record d = some record)
    (hworkload : saved.workloadId = record.workloadId) :
    ((FleetOp.updateDeployment d saved).exec settings s).1.stand d = (s.stand d).save saved := by
  obtain ⟨row, hrow, rfl⟩ := Fleet.record_eq_some hrecord
  have hsaved : { saved with workloadId := row.record.workloadId } = saved := by
    rw [← hworkload]
  simp only [FleetOp.exec, ControlPlaneRepository.updateDeployment, Fleet.stand, Fleet.record,
    Table.get?_insert_self,
    hrow, savedRow, Option.map_some, hsaved, Stand.save]

theorem stand_saveAssignment (settings : Settings) (s : Fleet) (d : DeploymentId)
    (lease : LeaseAssignment) :
    ((FleetOp.saveAssignment d lease).exec settings s).1.stand d =
      { s.stand d with lease := some lease } := by
  simp only [FleetOp.exec, saveAssignment, Fleet.stand, Fleet.record, Table.get?_insert_self]

/-- Reserving GPUs: refused, or held. -/
theorem stand_reserveGpus (settings : Settings) (s : Fleet) (d : DeploymentId) (hotkey : Hotkey)
    (node : NodeId)
    (gpuCount : ℕ) (capacity : Option ℕ) :
    ((FleetOp.reserveGpus d hotkey node gpuCount capacity).exec settings s).1.stand d =
      if ((FleetOp.reserveGpus d hotkey node gpuCount capacity).exec settings s).2 = true then
        { s.stand d with reservation := some ⟨hotkey, node, gpuCount, .active⟩ }
      else s.stand d := by
  simp only [FleetOp.exec, reserveGpus]
  split
  · rfl
  · simp [Fleet.stand, Fleet.record]

/-! ## Methods about one deployment -/

theorem permits_about (d : DeploymentId) : Permits (About d) d where
  looks := about_of_looks d
  reports := about_of_reports d
  lock := about_of_none rfl rfl
  unlock := about_of_none rfl rfl
  read := about_of_none rfl rfl
  create _ := about_self rfl rfl
  save _ := about_self rfl rfl
  stamp _ := about_self rfl rfl
  assign _ := about_self rfl rfl
  lease _ _ := about_self rfl rfl
  placement _ _ _ := about_self rfl rfl
  reserve _ _ _ _ := about_self rfl rfl
  release := about_self rfl rfl

theorem meterDeployment_about (d : DeploymentId) (cycle now : Time) (record : DeploymentRecord) :
    (meterDeployment settings cycle now d record).Uses (About d) :=
  meterDeployment_uses (about_of_looks d) (about_of_none rfl rfl) (fun _ ↦ about_self rfl rfl)
    (about_self rfl rfl) (fun _ _ ↦ about_self rfl rfl) (fun _ ↦ about_self rfl rfl)
    (fun _ ↦ about_self rfl rfl) (fun _ ↦ about_self rfl rfl)
    (fun _ _ _ ↦ about_of_none rfl rfl) cycle now record

/-! ## What status reports do -/

theorem stand_run_setLease (settings : Settings) (d : DeploymentId) (status : Option LeaseStatus)
    (s : Fleet) :
    (run settings (setLease d status) s).1.stand d =
      match status with
      | none => s.stand d
      | some status => (s.stand d).setLease status := by
  cases status with
  | none => rfl
  | some status => exact stand_updateAssignmentStatus settings s d status

theorem stand_run_releaseFor (settings : Settings) (d : DeploymentId) (state : DeploymentState)
    (s : Fleet) :
    (run settings (releaseFor d state) s).1.stand d =
      if releasesHold state then (s.stand d).release else s.stand d := by
  unfold releaseFor
  split
  · exact stand_releaseGpuReservation settings s d
  · rfl

theorem stampBillable_steady (d : DeploymentId) (becameReady : Bool) :
    (stampBillable d becameReady).Uses Steady :=
  stampBillable_uses steady_of_looks (fun _ ↦ ⟨rfl, rfl⟩) becameReady

theorem stand_record (s : Fleet) (d : DeploymentId) : (s.stand d).record = s.record d := rfl

/-- The lease and the hold after a report, before the record is saved. -/
theorem stand_run_follow (settings : Settings) (d : DeploymentId) (state : DeploymentState)
    (s : Fleet) :
    (run settings (releaseFor d state)
      (run settings (setLease d (leaseStatusFor state)) s).1).1.stand d =
      (s.stand d).follow state := by
  rw [stand_run_releaseFor, stand_run_setLease]
  rfl

/-- Everything a status update can do to a deployment's stand: it is refused, or saved. -/
inductive ReportSpec (d : DeploymentId) (update : DeploymentStatusUpdate) (s s' : Fleet) : Prop
  | refused (same : s'.stand d = s.stand d)
      (why : ∀ record, s.record d = some record → (record.state = .terminated ∨
        record.state = .failed) ∨ record.state.transition update.state = none)
  | saved (record : DeploymentRecord) (readyAt : Option Time) (found : s.record d = some record)
      (live : ¬(record.state = .terminated ∨ record.state = .failed))
      (allowed : record.state.transition update.state = some update.state)
      (moved : s'.stand d =
        ((s.stand d).follow update.state).save (reported update record update.state readyAt))

theorem run_updateDeploymentStatus (settings : Settings) (d : DeploymentId)
    (update : DeploymentStatusUpdate)
    (s : Fleet) :
    ReportSpec d update s (run settings (updateDeploymentStatus d update) s).1 := by
  rw [updateDeploymentStatus, run_bind, run_call]
  simp only [FleetOp.exec, ControlPlaneRepository.getDeployment]
  cases hrecord : s.record d with
  | none => exact .refused rfl fun record h ↦ by cases hrecord.symm.trans h
  | some record =>
    dsimp only
    split
    · next hterm =>
      refine .refused rfl fun record' h ↦ .inl ?_
      obtain rfl := Option.some.inj (hrecord.symm.trans h)
      exact hterm
    · next hlive =>
      cases hnext : record.state.transition update.state with
      | none =>
        refine .refused rfl fun record' h ↦ .inr ?_
        obtain rfl := Option.some.inj (hrecord.symm.trans h)
        exact hnext
      | some next =>
        obtain rfl := DeploymentState.transition_eq_some hnext
        dsimp only
        simp only [run_bind, run_pure]
        -- The stand before the save is the old one with its lease and hold moved.
        have hstamp := stand_run_of_steady settings
          (stampReadyAt_uses steady_of_looks update record) s d
        generalize run settings (stampReadyAt update record) s = stamped at hstamp ⊢
        have hfollow := stand_run_follow settings d update.state stamped.1
        rw [hstamp] at hfollow
        generalize run settings (releaseFor d update.state) _ = followed at hfollow ⊢
        have hfound : followed.1.record d = some record := by
          rw [← stand_record, hfollow, ← hrecord, ← stand_record]
          unfold Stand.follow
          split <;> split <;> rfl
        refine .saved record stamped.2 hrecord hlive hnext ?_
        rw [stand_run_of_steady settings (stampBillable_steady d _), ← hfollow]
        exact stand_updateDeployment settings hfound rfl

end GreenCompute
