import GreenCompute.ControlPlane.Cycles

/-!
# How a call shifts a deployment

Every call of the control plane, run as a whole, changes what is kept about a deployment by a few
kinds of shifts: it creates it, notes something on its record, follows a report, places it, takes it
off its machine, ends it or resumes it. Each shift says what was found and exactly what is left;
`shifted_after` shows once, for every call, that it makes no other.
-/

namespace GreenCompute

open ControlPlaneRepository ControlPlaneService

variable {settings : Settings} {protocol : Protocol} {s s' : Fleet} {d : DeploymentId}

/-! ## Stands -/

namespace Stand

@[simp] theorem record_follow (f : Stand) (state : DeploymentState) :
    (f.follow state).record = f.record := by
  unfold follow
  split <;> split <;> rfl

@[simp] theorem isSome_lease_follow (f : Stand) (state : DeploymentState) :
    (f.follow state).lease.isSome = f.lease.isSome := by
  unfold follow
  split <;> split <;> simp [setLease, release]

@[simp] theorem holding_setLease (f : Stand) (status : LeaseStatus) :
    (f.setLease status).holding = f.holding := rfl

@[simp] theorem isSome_lease_setLease (f : Stand) (status : LeaseStatus) :
    (f.setLease status).lease.isSome = f.lease.isSome :=
  Option.isSome_map

/-- Following a failure overwrites what the end of a lease has left. -/
theorem follow_ended (f : Stand) (status : LeaseStatus) :
    (f.release.setLease status).follow .failed = f.follow .failed := by
  obtain ⟨record, reservation, lease⟩ := f
  cases reservation <;> cases lease <;> rfl

end Stand

theorem active_mem_activeStatuses : LeaseStatus.active ∈ activeStatuses := by decide

/-! ## Positions -/

/-- Where a deployment stands, and since when it is billed. -/
structure Position where
  stand : Stand
  since : Option Time

/-- A deployment's position. -/
def Fleet.position (s : Fleet) (d : DeploymentId) : Position := ⟨s.stand d, getBillableSince d s⟩

/-- The state of the deployment. -/
def Position.state (p : Position) : Option DeploymentState :=
  p.stand.record.map DeploymentRecord.state

theorem Position.state_of_record {p : Position} {record : DeploymentRecord}
    (h : p.stand.record = some record) : p.state = some record.state := by
  rw [state, h, Option.map_some]

theorem Position.state_congr {p q : Position} (h : q.stand.record = p.stand.record) :
    q.state = p.state := by
  rw [state, h, state]

theorem state_position (s : Fleet) (d : DeploymentId) : (s.position d).state = s.state d := rfl

/-- Two records are of one deployment on the same terms. -/
structure SameTerms (record saved : DeploymentRecord) : Prop where
  workloadId : saved.workloadId = record.workloadId
  ownerUserId : saved.ownerUserId = record.ownerUserId
  saveOnExhaustion : saved.saveOnExhaustion = record.saveOnExhaustion
  suspendedAt : saved.suspendedAt = record.suspendedAt

/-- Something is noted on a record that has no bearing on where it runs and what it costs. -/
structure Noted (record saved : DeploymentRecord) : Prop extends SameTerms record saved where
  state : saved.state = record.state
  hotkey : saved.hotkey = record.hotkey
  nodeId : saved.nodeId = record.nodeId
  hourlyRateCents : saved.hourlyRateCents = record.hourlyRateCents
  readyInstances : saved.readyInstances = record.readyInstances

namespace FleetCall

/-- The reports about a deployment that a call makes. -/
def Reports (c : FleetCall) (d : DeploymentId) (now : Time) (update : DeploymentStatusUpdate)
    (record : DeploymentRecord) : Prop :=
  match c with
  | deploymentStatus d' hotkey update' =>
    d' = d ∧ record.hotkey = some hotkey ∧ update = { update' with suspendedReason := none }
  | updateDeploymentStatus d' update' => d' = d ∧ update = update'
  | meterUsage _ | processIdleInferenceDeployments .. =>
    update.state = .suspended ∧ update.observedAt = now
  | processUnhealthyMiners _ | reapExhaustedPods _ => update.state = .terminated
  | recordDeploymentHealthFailure d' _ | processDeploymentRequest d' _ | failDeployment d' =>
    d' = d ∧ update.state = .failed
  | processTimeouts _ => update.state = .failed
  | _ => False

/-- The calls that can send a deployment back to the queue. -/
def Requeues (c : FleetCall) (d : DeploymentId) : Prop :=
  match c with
  | requeueAssignment d' .. | requeueDeployment d' => d' = d
  | processUnhealthyMiners _ => True
  | _ => False

end FleetCall

/-- The record of a deployment that goes back to the queue. -/
structure Unplaced (record saved : DeploymentRecord) : Prop extends SameTerms record saved where
  state : saved.state = .pending
  hotkey : saved.hotkey = none
  nodeId : saved.nodeId = none
  hourlyRateCents : saved.hourlyRateCents = record.hourlyRateCents
  readyInstances : saved.readyInstances = 0

/-- The lease that is active, if there is one. -/
def Stand.activeLease (f : Stand) : Option LeaseAssignment :=
  f.lease.filter fun lease ↦ lease.status ∈ activeStatuses

/-- The GPUs taken again on a node, and the lease active again. -/
def Stand.resume (f : Stand) (hotkey : Hotkey) (node : NodeId) (gpuCount : ℕ) : Stand :=
  Stand.setLease { f with reservation := some ⟨hotkey, node, gpuCount, .active⟩ } .active

/-- The deployment failed or was terminated. -/
abbrev DeploymentRecord.Over (record : DeploymentRecord) : Prop :=
  record.state = .terminated ∨ record.state = .failed

/-- A report that the state machine admits, made by the call at a time. -/
inductive ReportShift (c : FleetCall) (d : DeploymentId) (now : Time) (p : Position) :
    Position → Prop
  | admitted (update : DeploymentStatusUpdate) (record : DeploymentRecord) (readyAt : Option Time)
      (found : p.stand.record = some record) (origin : c.Reports d now update record)
      (live : ¬record.Over) (allowed : record.state.transition update.state = some update.state) :
      ReportShift c d now p
        ⟨(p.stand.follow update.state).save (reported update record update.state readyAt),
          if update.state = .ready ∧ record.state ≠ .ready then some now else p.since⟩

/-- One shift of a deployment, as a call can make it at a time. -/
inductive PositionShift (workloads : Table WorkloadId WorkloadSpec) (c : FleetCall)
    (d : DeploymentId)
    (now : Time) (p : Position) : Position → Prop
  | created (request : DeploymentCreateRequest) (quote : ℕ) (made : c = .createDeployment d request)
      (missing : p.stand.record = none) :
      PositionShift workloads c d now p ⟨p.stand.save (newRecord request quote now), none⟩
  | noted (record saved : DeploymentRecord) (found : p.stand.record = some record)
      (same : Noted record saved) : PositionShift workloads c d now p ⟨p.stand.save saved, p.since⟩
  | reported (q : Position) (report : ReportShift c d now p q) : PositionShift workloads c d now p q
  | scheduled (record saved : DeploymentRecord) (workload : WorkloadSpec)
      (assignment : LeaseAssignment) (attempts granted : ℕ)
      (made : c = .processDeploymentRequest d attempts) (found : p.stand.record = some record)
      (waiting : record.state = .pending) (needs : workloads.get? record.workloadId = some workload)
      (assigned : assignment.status = .assigned) (terms : SameTerms record saved)
      (state : saved.state = .scheduled) (node : saved.nodeId = some assignment.nodeId)
      (positive : 0 < granted)
      (rate : saved.hourlyRateCents = lockedRate granted record.hourlyRateCents)
      (instances : saved.readyInstances = record.readyInstances) :
      PositionShift workloads c d now p ⟨⟨some saved, some ⟨assignment.hotkey, assignment.nodeId,
        workload.requirements.gpuCount, .active⟩, some assignment⟩, p.since⟩
  | requeued (record saved : DeploymentRecord) (origin : c.Requeues d)
      (found : p.stand.record = some record) (same : Unplaced record saved) :
      PositionShift workloads c d now p ⟨(p.stand.release.setLease .reassigned).save saved, p.since⟩
  | unplaced (record saved : DeploymentRecord) (origin : c.Requeues d)
      (found : p.stand.record = some record) (same : Unplaced record saved)
      (why : p.stand.activeLease = none ∨ record.Over ∨ workloads.get? record.workloadId = none) :
      PositionShift workloads c d now p ⟨p.stand.save saved, p.since⟩
  | released (record : DeploymentRecord) (made : c = .failDeployment d)
      (found : p.stand.record = some record) (leased : p.stand.activeLease.isSome)
      (why : record.Over ∨ record.state.transition .failed = none) :
      PositionShift workloads c d now p ⟨p.stand.release.setLease .terminated, p.since⟩
  | ended (record saved : DeploymentRecord) (stand : Stand) (reason : Text)
      (made : c = .cleanupDeployment d reason) (found : p.stand.record = some record)
      (kept : stand.record = p.stand.record) (lease : stand.lease.isSome = p.stand.lease.isSome)
      (hold : stand.holding = true → p.stand.holding = true ∧ p.stand.activeLease = none)
      (terms : SameTerms record saved) (state : saved.state = .terminated)
      (hotkey : saved.hotkey = record.hotkey) (nodeId : saved.nodeId = record.nodeId)
      (rate : saved.hourlyRateCents = record.hourlyRateCents)
      (instances : saved.readyInstances = 0) :
      PositionShift workloads c d now p ⟨stand.save saved, p.since⟩
  | reclaimed (r : GpuReservation) (made : c = .reclaimOrphanedReservations)
      (reserved : p.stand.reservation = some r) (active : r.status = .active)
      (gone : p.state = none ∨ p.state = some .terminated ∨ p.state = some .failed) :
      PositionShift workloads c d now p
        ⟨{ p.stand with reservation := some { r with status := .released } }, p.since⟩
  | resumed (record saved : DeploymentRecord) (workload : WorkloadSpec) (hotkey : Hotkey)
      (node : NodeId) (made : c = .resumeDeployment d) (found : p.stand.record = some record)
      (suspended : record.state = .suspended) (onHotkey : record.hotkey = some hotkey)
      (onNode : record.nodeId = some node)
      (needs : workloads.get? record.workloadId = some workload) (same : Noted record saved) :
      PositionShift workloads c d now p
        ⟨(p.stand.resume hotkey node workload.requirements.gpuCount).save saved, p.since⟩
  | stamped (elapsed : Option Time) (made : c = .meterUsage elapsed) (unset : p.since = none) :
      PositionShift workloads c d now p ⟨p.stand, some now⟩

/-- The shifts that make one position another. -/
abbrev Shifts (workloads : Table WorkloadId WorkloadSpec) (c : FleetCall) (d : DeploymentId)
    (now : Time) : Position → Position → Prop :=
  Relation.ReflTransGen (PositionShift workloads c d now)

/-- A call has shifted each deployment by shifts of its own, and taken no time. -/
structure Shifted (c : FleetCall) (s s' : Fleet) : Prop where
  now : s'.now = s.now
  workloads : s'.workloads = s.workloads
  position : ∀ d, Shifts s.workloads c d s.now (s.position d) (s'.position d)

namespace Shifted

variable {c : FleetCall} {t : Fleet}

theorem refl (c : FleetCall) (s : Fleet) : Shifted c s s := ⟨rfl, rfl, fun _ ↦ .refl⟩

theorem trans (h : Shifted c s s') (h' : Shifted c s' t) : Shifted c s t := by
  refine ⟨h'.now.trans h.now, h'.workloads.trans h.workloads, fun d ↦ (h.position d).trans ?_⟩
  have hrest := h'.position d
  rwa [h.now, h.workloads] at hrest

/-- A store in which neither time nor a position has moved. -/
theorem of_still (hnow : s'.now = s.now) (hworkloads : s'.workloads = s.workloads)
    (h : ∀ d, s'.position d = s.position d) : Shifted c s s' :=
  ⟨hnow, hworkloads, fun d ↦ by rw [h d]⟩

end Shifted

/-! ## What keeps time and positions -/

theorem MoneyOp.now_exec (op : MoneyOp) (db : Db) : (op.exec db).now = db.now := by
  cases op with
  | creditUser => simp only [exec, BillingRepository.creditUser]; split <;> rfl
  | debitUser => simp only [exec, BillingRepository.debitUser]; split <;> [rfl; (split <;> rfl)]
  | debitUserToFloor =>
    simp only [exec, BillingRepository.debitUserToFloor]
    split <;> [rfl; (split <;> rfl)]
  | confirmAndCreditInvoice unseen id txHash ref allowExpired creditCents =>
    have hspec := BillingRepository.confirmAndCreditInvoice_spec unseen id txHash ref allowExpired
      creditCents db
    rw [exec]
    generalize BillingRepository.confirmAndCreditInvoice unseen id txHash ref allowExpired
      creditCents db = out at hspec ⊢
    cases hspec <;> rfl
  | creditDeposit unseen ref u amount matchedBy =>
    have hspec := BillingRepository.creditDeposit_spec unseen ref u amount matchedBy db
    rw [exec]
    generalize BillingRepository.creditDeposit unseen ref u amount matchedBy db = out at hspec ⊢
    cases hspec <;> rfl
  | completeAndCreditStripeSession =>
    simp only [exec, BillingRepository.completeAndCreditStripeSession]
    repeat' split
    all_goals rfl
  | reverseStripeTopup =>
    simp only [exec, BillingRepository.reverseStripeTopup]
    repeat' split
    all_goals rfl

/-- Only the surroundings take time. -/
theorem now_exec (settings : Settings) {o : FleetOp} (h : o.outside = false) (s : Fleet) :
    (o.exec settings s).1.now = s.now := by
  by_cases hbooks : o.books = true
  · cases o with
    | debitUserToFloor u amount kind reference =>
      exact (MoneyOp.debitUserToFloor u amount kind reference).now_exec s.billing
    | money | advance => cases h
    | _ => cases hbooks
  · have hleaves := leaves_exec settings o s
    rw [Fleet.now, hleaves.billing (Bool.not_eq_true _ ▸ hbooks), Fleet.now]

/-- Only the meter and a report say since when a deployment is billed. -/
theorem since_exec (settings : Settings) {o : FleetOp} (h : o.stamps = false) (s : Fleet)
    (d : DeploymentId) : getBillableSince d (o.exec settings s).1 = getBillableSince d s := by
  by_cases hsubject : o.subject = some d
  · cases o with
    | createDeployment d' record =>
      obtain rfl : d' = d := Option.some.inj hsubject
      simp only [FleetOp.exec, ControlPlaneRepository.createDeployment, getBillableSince]
      split
      · rfl
      · next hfresh =>
        rw [Table.get?_insert_self, Option.not_isSome_iff_eq_none.mp hfresh]
        rfl
    | updateDeployment d' record =>
      obtain rfl : d' = d := Option.some.inj hsubject
      simp only [FleetOp.exec, ControlPlaneRepository.updateDeployment, getBillableSince,
        Table.get?_insert_self]
      cases s.deployments.get? d' <;> rfl
    | accrueMetering d' add =>
      obtain rfl : d' = d := Option.some.inj hsubject
      simp only [FleetOp.exec, accrueMetering, getBillableSince]
      split
      · rfl
      · next row hrow =>
        rw [Table.get?_insert_self, hrow]
        rfl
    | returnMeteringMcents d' mcents =>
      obtain rfl : d' = d := Option.some.inj hsubject
      simp only [FleetOp.exec, returnMeteringMcents, getBillableSince]
      split
      · rfl
      · next row hrow =>
        split
        · rfl
        · rw [Table.get?_insert_self, hrow]
          rfl
    | setBillableSince => cases h
    | saveAssignment | releaseGpuReservation => rfl
    | updateAssignmentStatus d' status =>
      simp only [FleetOp.exec, updateAssignmentStatus]
      split
      · rfl
      · obtain ⟨placements, hplacements⟩ := modifyLatestPlacement_eq d'
          (fun p ↦ { p with status := status, updatedAt := s.now }) s
        rw [hplacements]
        rfl
    | updatePlacementStatus d' status failed cooldown =>
      simp only [FleetOp.exec, updatePlacementStatus]
      obtain ⟨placements, hplacements⟩ := modifyLatestPlacement_eq d' _ s
      rw [hplacements]
      rfl
    | reserveGpus =>
      simp only [FleetOp.exec, reserveGpus]
      split <;> rfl
    | _ => cases hsubject
  · rw [getBillableSince, (leaves_exec settings o s).row d hsubject, getBillableSince]

/-- A method that does not say so leaves it as it is. -/
theorem since_run (settings : Settings) {α : Type} {p : Program ControlPlane α}
    (hp : p.Uses fun o : FleetOp ↦ o.stamps = false) (s : Fleet) (d : DeploymentId) :
    getBillableSince d (run settings p s).1 = getBillableSince d s :=
  run_keeps (getBillableSince d) s (hp.mono fun _ ho s ↦ since_exec settings ho s d)

theorem unstamped_of_looks (o : FleetOp) (h : o.looks = true) : o.stamps = false := by
  cases o <;> first | rfl | cases h

theorem unstamped_of_reports (o : FleetOp) (h : o.reports = true) : o.stamps = false := by
  cases o <;> first | rfl | cases h

theorem position_run_of_about (settings : Settings) {α : Type} {p : Program ControlPlane α}
    {d' : DeploymentId} (hp : p.Uses (About d)) (hd' : d' ≠ d) (s : Fleet) :
    (run settings p s).1.position d' = s.position d' := by
  have hsince : getBillableSince d' (run settings p s).1 = getBillableSince d' s := by
    refine run_keeps (getBillableSince d') s (hp.mono fun o ho s ↦ ?_)
    have hrow := (leaves_exec settings o s).row d' fun h ↦ hd' (ho.2 d' h)
    rw [getBillableSince, hrow, getBillableSince]
  rw [Fleet.position, stand_run_of_about settings hp hd', hsince, Fleet.position]

theorem now_run_of_about (settings : Settings) {α : Type} {p : Program ControlPlane α}
    (hp : p.Uses (About d)) (s : Fleet) : (run settings p s).1.now = s.now :=
  run_keeps Fleet.now s (hp.mono fun _ ho _ ↦ now_exec settings ho.outside _)

/-- A method about one deployment has to shift that one. -/
theorem shifted_of_about {α : Type} {p : Program ControlPlane α} {c : FleetCall}
    (hp : p.Uses (About d))
    (hd : Shifts s.workloads c d s.now (s.position d) ((run settings p s).1.position d)) :
    Shifted c s (run settings p s).1 := by
  refine ⟨now_run_of_about settings hp s, workloads_run p s, fun d' ↦ ?_⟩
  by_cases heq : d' = d
  · subst heq
    exact hd
  · rw [position_run_of_about settings hp heq]

/-! ## Steps of methods

What the steps that no report makes do to the position of their deployment. -/

section

variable {record saved : DeploymentRecord}

/-- A transaction that moves no stand and says nothing of the billing. -/
theorem position_exec (settings : Settings) {o : FleetOp} (hshifts : o.moves ≠ some d)
    (hsweeps : o.sweeps = false) (hstamps : o.stamps = false) (s : Fleet) :
    (o.exec settings s).1.position d = s.position d := by
  rw [Fleet.position, stand_exec settings hshifts hsweeps, since_exec settings hstamps,
    Fleet.position]

/-- A step that says nothing of the billing moves the stand only. -/
theorem position_run {α : Type} {p : Program ControlPlane α} {f : Stand}
    (hp : p.Uses fun o : FleetOp ↦ o.stamps = false) (hstand : (run settings p s).1.stand d = f) :
    (run settings p s).1.position d = ⟨f, (s.position d).since⟩ := by
  rw [Fleet.position, hstand, since_run settings hp, Fleet.position]

theorem position_save (settings : Settings) {q : Position} (hq : s.position d = q)
    (hrecord : q.stand.record = some record) (hworkload : saved.workloadId = record.workloadId) :
    ((FleetOp.updateDeployment d saved).exec settings s).1.position d =
      ⟨q.stand.save saved, q.since⟩ := by
  subst hq
  rw [Fleet.position, stand_updateDeployment settings hrecord hworkload, since_exec settings rfl,
    Fleet.position]

/-- A saved record can be read again. -/
theorem record_updateDeployment (settings : Settings) {record saved : DeploymentRecord}
    (hrecord : s.record d = some record) (hworkload : saved.workloadId = record.workloadId) :
    ((FleetOp.updateDeployment d saved).exec settings s).1.record d = some saved := by
  rw [← stand_record, stand_updateDeployment settings hrecord hworkload]
  rfl

theorem position_setLease (settings : Settings) (s : Fleet) (status : LeaseStatus) :
    (run settings (setLease d (some status)) s).1.position d =
      ⟨(s.position d).stand.setLease status, (s.position d).since⟩ :=
  position_run (setLease_uses (fun _ ↦ rfl) _) (stand_run_setLease settings d (some status) s)

theorem stand_run_adjustNodeCapacity (settings : Settings) (hotkey : Hotkey) (node : NodeId)
    (deltaGpus : ℤ) (s : Fleet) (d : DeploymentId) :
    (run settings (adjustNodeCapacity hotkey node deltaGpus) s).1.stand d = s.stand d :=
  stand_run_of_steady settings
    (adjustNodeCapacity_uses steady_of_looks steady_of_reports hotkey node deltaGpus) s d

theorem stand_run_freeLease (settings : Settings) (d : DeploymentId) (assignment : LeaseAssignment)
    (workload : Option WorkloadSpec) (s : Fleet) :
    (run settings (freeLease d assignment workload) s).1.stand d = (s.stand d).release := by
  unfold freeLease
  rw [run_bind, run_call]
  have hrelease := stand_releaseGpuReservation settings s d
  cases workload with
  | none => exact hrelease
  | some workload =>
    rw [← hrelease]
    exact stand_run_adjustNodeCapacity settings _ _ _ _ d

theorem stand_updatePlacementStatus (settings : Settings) (s : Fleet) (d : DeploymentId)
    (status : LeaseStatus) (failed : Bool) (cooldown : Option Time) :
    (run settings (call (.updatePlacementStatus d status failed cooldown)) s).1.stand d =
      s.stand d :=
  stand_exec settings (fun h ↦ nomatch h) rfl

theorem position_freeLease (settings : Settings) (s : Fleet) (assignment : LeaseAssignment)
    (workload : Option WorkloadSpec) :
    (run settings (freeLease d assignment workload) s).1.position d =
      ⟨(s.position d).stand.release, (s.position d).since⟩ :=
  position_run (freeLease_uses unstamped_of_looks unstamped_of_reports (by rfl) _ _)
    (stand_run_freeLease settings d assignment workload s)

theorem stand_run_endLease (settings : Settings) (d : DeploymentId) (record : DeploymentRecord)
    (assignment : LeaseAssignment) (placement : LeaseStatus) (incrementFailure : Bool)
    (cooldown : Time → Time) (s : Fleet) :
    (run settings (endLease d record assignment placement incrementFailure cooldown) s).1.stand d =
      (s.stand d).release.setLease .terminated := by
  rw [endLease, run_bind, run_call]
  simp only [FleetOp.exec]
  rw [run_bind, run_bind, run_bind, stand_updatePlacementStatus]
  have hfree := stand_run_freeLease settings d assignment (s.workloads.get? record.workloadId) s
  generalize run settings (freeLease d assignment (s.workloads.get? record.workloadId)) s = freed
    at hfree ⊢
  have hlease := stand_run_setLease settings d (some .terminated) freed.1
  rw [hfree] at hlease
  exact hlease

theorem position_endLease (settings : Settings) (s : Fleet) (record : DeploymentRecord)
    (assignment : LeaseAssignment) (placement : LeaseStatus) (incrementFailure : Bool)
    (cooldown : Time → Time) :
    (run settings (endLease d record assignment placement incrementFailure cooldown)
      s).1.position d = ⟨(s.position d).stand.release.setLease .terminated, (s.position d).since⟩ :=
  position_run (endLease_uses unstamped_of_looks unstamped_of_reports (by rfl) (fun _ ↦ rfl)
    (fun _ _ _ ↦ rfl) _ _ _ _ _)
    (stand_run_endLease settings d record assignment placement incrementFailure cooldown s)

/-- A deployment is on a machine when its lease is active. -/
theorem run_activeAssignment (settings : Settings) (d : DeploymentId) (s : Fleet) :
    run settings (activeAssignment d) s =
      (s, (s.stand d).lease.filter fun lease ↦ lease.status ∈ activeStatuses) := by
  rw [activeAssignment, run_bind, run_call, run_pure]
  simp only [FleetOp.exec, listAssignments]
  rw [Table.lookup_select]
  rfl

end

/-! ## Methods about one deployment -/

section

variable {workloads : Table WorkloadId WorkloadSpec} {c : FleetCall} {now : Time}
  {record saved : DeploymentRecord}

/-- A method that ends in saving a record. -/
theorem shifts_of_save (settings : Settings) {p q : Position} (hq : s.position d = q)
    (hrecord : q.stand.record = some record) (saved : DeploymentRecord)
    (hworkload : saved.workloadId = record.workloadId)
    (hshift : PositionShift workloads c d now p ⟨q.stand.save saved, q.since⟩) :
    Shifts workloads c d now p
      (((FleetOp.updateDeployment d saved).exec settings s).1.position d) := by
  rw [position_save settings hq hrecord hworkload]
  exact .single hshift

/-- A saved record on which something is noted. -/
theorem shifts_save (settings : Settings) (hrecord : s.record d = some record)
    (saved : DeploymentRecord) (same : Noted record saved) :
    Shifts workloads c d now (s.position d)
      (((FleetOp.updateDeployment d saved).exec settings s).1.position d) :=
  shifts_of_save settings rfl hrecord saved same.workloadId (.noted record saved hrecord same)

/-- Two saves in a row on which something is noted. -/
theorem shifts_save_twice (settings : Settings) (hrecord : s.record d = some record)
    (saved saved' : DeploymentRecord) (same : Noted record saved) (same' : Noted saved saved') :
    Shifts workloads c d now (s.position d)
      (((FleetOp.updateDeployment d saved').exec settings
        ((FleetOp.updateDeployment d saved).exec settings s).1).1.position d) :=
  (shifts_save settings hrecord saved same).trans
    (shifts_save settings (record_updateDeployment settings hrecord same.workloadId) saved' same')

theorem since_stampBillable (settings : Settings) (d : DeploymentId) (becameReady : Bool)
    (s : Fleet) (hfound : (s.record d).isSome) :
    getBillableSince d (run settings (stampBillable d becameReady) s).1 =
      if becameReady then some s.now else getBillableSince d s := by
  unfold stampBillable
  cases becameReady with
  | false => rfl
  | true =>
    obtain ⟨record, hrecord⟩ := Option.isSome_iff_exists.mp hfound
    obtain ⟨row, hrow, -⟩ := Fleet.record_eq_some hrecord
    rw [if_pos rfl, if_pos rfl, run_bind]
    show ((s.deployments.modify d _).get? d).bind DeploymentRow.billableSince = _
    rw [Table.get?_modify_self, hrow]
    rfl

/-- What a status update does before it says since when the deployment is billed. -/
def saveReport (d : DeploymentId) (update : DeploymentStatusUpdate) (record : DeploymentRecord) :
    Program ControlPlane Unit := do
  let readyAt ← stampReadyAt update record
  setLease d (leaseStatusFor update.state)
  releaseFor d update.state
  call (.updateDeployment d (reported update record update.state readyAt))

theorem saveReport_uses {allowed : FleetOp → Prop} (hlooks : ∀ o, o.looks = true → allowed o)
    (hlease : ∀ status, allowed (.updateAssignmentStatus d status))
    (hrelease : allowed (.releaseGpuReservation d))
    (hsave : ∀ saved, allowed (.updateDeployment d saved)) (update : DeploymentStatusUpdate)
    (record : DeploymentRecord) : (saveReport d update record).Uses allowed :=
  .bind (stampReadyAt_uses hlooks update record) fun _ ↦ .bind (setLease_uses hlease _) fun _ ↦
    .bind (releaseFor_uses hrelease _) fun _ ↦ ⟨hsave _, fun _ ↦ trivial⟩

/-- An admitted report saves its record, and bills from then on if the deployment became ready. -/
theorem since_report (settings : Settings) {update : DeploymentStatusUpdate}
    {saved : DeploymentRecord} (found : s.record d = some record) (live : ¬record.Over)
    (allowed : record.state.transition update.state = some update.state)
    (hsaved : (run settings (updateDeploymentStatus d update) s).1.record d = some saved) :
    getBillableSince d (run settings (updateDeploymentStatus d update) s).1 =
      if update.state = .ready ∧ record.state ≠ .ready then some s.now
      else getBillableSince d s := by
  have hrun : (run settings (updateDeploymentStatus d update) s).1 =
      (run settings (stampBillable d (update.state = .ready ∧ record.state ≠ .ready))
        (run settings (saveReport d update record) s).1).1 := by
    rw [updateDeploymentStatus, run_bind, run_getDeployment, found]
    dsimp only
    rw [if_neg live, allowed, saveReport]
    simp only [run_bind, run_pure]
  have hnow := now_run_of_about settings (saveReport_uses (about_of_looks d)
    (fun _ ↦ about_self rfl rfl) (about_self rfl rfl) (fun _ ↦ about_self rfl rfl) update record) s
  have hsince := since_run settings (saveReport_uses (d := d) unstamped_of_looks (fun _ ↦ rfl) rfl
    (fun _ ↦ rfl) update record) s d
  rw [hrun] at hsaved ⊢
  generalize run settings (saveReport d update record) s = written at hnow hsince hsaved ⊢
  have hfound : (written.1.record d).isSome := by
    rw [← stand_record, stand_run_of_steady settings (stampBillable_steady d _), stand_record]
      at hsaved
    rw [hsaved]
    rfl
  rw [since_stampBillable settings d _ _ hfound, hnow, hsince]
  simp only [decide_eq_true_eq]

/-- A status update is refused, or an admitted report. -/
theorem position_updateDeploymentStatus (settings : Settings) (update : DeploymentStatusUpdate)
    (s : Fleet) :
    ((run settings (updateDeploymentStatus d update) s).1.position d = s.position d ∧
        ∀ record, s.record d = some record →
          record.Over ∨ record.state.transition update.state = none) ∨
      ∃ record readyAt, s.record d = some record ∧ ¬record.Over ∧
        record.state.transition update.state = some update.state ∧
        (run settings (updateDeploymentStatus d update) s).1.position d =
          ⟨((s.stand d).follow update.state).save (reported update record update.state readyAt),
            if update.state = .ready ∧ record.state ≠ .ready then some s.now
            else getBillableSince d s⟩ := by
  cases run_updateDeploymentStatus settings d update s with
  | refused same why =>
    refine .inl ⟨?_, why⟩
    have hsince : getBillableSince d (run settings (updateDeploymentStatus d update) s).1 =
        getBillableSince d s := by
      rw [updateDeploymentStatus, run_bind, run_getDeployment]
      cases hrecord : s.record d with
      | none => rfl
      | some record =>
        dsimp only
        split
        · rfl
        · next hlive =>
          rw [(why record hrecord).resolve_left hlive]
          rfl
    rw [Fleet.position, same, hsince, Fleet.position]
  | saved record readyAt found live allowed moved =>
    refine .inr ⟨record, readyAt, found, live, allowed, ?_⟩
    have hsince := since_report settings found live allowed (congrArg Stand.record moved)
    rw [Fleet.position, hsince, moved]

/-- A status update makes at most one shift of its deployment. -/
theorem report_updateDeploymentStatus (settings : Settings) (hnow : s.now = now)
    (update : DeploymentStatusUpdate)
    (origin : ∀ record, s.record d = some record → c.Reports d now update record) :
    Relation.ReflGen (ReportShift c d now) (s.position d)
      ((run settings (updateDeploymentStatus d update) s).1.position d) := by
  subst hnow
  obtain ⟨same, -⟩ | ⟨record, readyAt, found, live, allowed, moved⟩ :=
    position_updateDeploymentStatus (d := d) settings update s
  · rw [same]
  · rw [moved]
    exact .single (.admitted update record readyAt found (origin record found) live allowed)

theorem shifts_updateDeploymentStatus (settings : Settings) (hnow : s.now = now)
    (update : DeploymentStatusUpdate)
    (origin : ∀ record, s.record d = some record → c.Reports d now update record) :
    Shifts workloads c d now (s.position d)
      ((run settings (updateDeploymentStatus d update) s).1.position d) :=
  ((report_updateDeploymentStatus settings hnow update origin).mono fun _ _ ↦
    PositionShift.reported _).to_reflTransGen

theorem shifted_updateDeploymentStatus (settings : Settings) (d : DeploymentId)
    (update : DeploymentStatusUpdate)
    (origin : ∀ record, s.record d = some record → c.Reports d s.now update record) :
    Shifted c s (run settings (updateDeploymentStatus d update) s).1 :=
  shifted_of_about ((permits_about d).updateDeploymentStatus_uses update)
    (shifts_updateDeploymentStatus settings rfl update origin)

/-- A miner's report makes at most one shift of its deployment. -/
theorem report_deploymentStatus (settings : Settings) (hotkey : Hotkey)
    (update : DeploymentStatusUpdate) :
    Relation.ReflGen (ReportShift (.deploymentStatus d hotkey update) d s.now) (s.position d)
      ((run settings (deploymentStatus d hotkey update) s).1.position d) := by
  rw [deploymentStatus, run_bind, run_getDeployment]
  cases hrecord : s.record d with
  | none => exact .refl
  | some record =>
    dsimp only
    split
    · exact .refl
    · next hhotkey =>
      have hreport := report_updateDeploymentStatus (s := s) (d := d) settings rfl
        (c := .deploymentStatus d hotkey update) { update with suspendedReason := none }
        fun record' hrecord' ↦ by
          obtain rfl := Option.some.inj (hrecord.symm.trans hrecord')
          exact ⟨rfl, not_not.mp hhotkey, rfl⟩
      rw [run_bind]
      split <;> exact hreport

theorem shifts_create (settings : Settings) (request : DeploymentCreateRequest) (quote : ℕ) :
    Shifts workloads (.createDeployment d request) d s.now (s.position d)
      (((FleetOp.createDeployment d (newRecord request quote s.now)).exec settings
        s).1.position d) := by
  simp only [FleetOp.exec, ControlPlaneRepository.createDeployment]
  by_cases hfresh : (s.deployments.get? d).isSome
  · rw [if_pos hfresh]
  · rw [if_neg hfresh]
    have hmissing : s.deployments.get? d = none := Option.not_isSome_iff_eq_none.mp hfresh
    have hrecord : (s.position d).stand.record = none := by
      rw [Fleet.position, stand_record, Fleet.record, hmissing, Option.map_none]
    have hshift : PositionShift workloads (.createDeployment d request) d s.now (s.position d)
        ⟨(s.stand d).save (newRecord request quote s.now), none⟩ :=
      .created request quote rfl hrecord
    refine .single ?_
    simpa [Fleet.position, Fleet.stand, Fleet.record, getBillableSince, Stand.save] using hshift

theorem shifts_createDeployment (request : DeploymentCreateRequest) :
    Shifts workloads (.createDeployment d request) d s.now (s.position d)
      ((run settings (ControlPlaneService.createDeployment settings protocol d request)
        s).1.position d) := by
  rw [ControlPlaneService.createDeployment, run_bind, run_getWorkload]
  cases s.workloads.get? request.workloadId with
  | none => exact .refl
  | some workload =>
    dsimp only
    have hlook : (run settings (onlineGpuModels settings) s).1 = s :=
      run_of_looks settings (onlineGpuModels_uses fun _ h ↦ h) s
    rw [run_bind, hlook]
    exact shifts_create settings request _

theorem shifts_updateDeployment (request : DeploymentUpdateRequest) :
    Shifts workloads c d now (s.position d)
      ((run settings (ControlPlaneService.updateDeployment d request) s).1.position d) := by
  rw [ControlPlaneService.updateDeployment, run_bind, run_getDeployment]
  cases hrecord : s.record d with
  | none => exact .refl
  | some record =>
    dsimp only
    rw [run_bind, run_getWorkload]
    cases s.workloads.get? record.workloadId with
    | none => exact .refl
    | some workload =>
      exact shifts_save settings (s := s) hrecord _ ⟨⟨rfl, rfl, rfl, rfl⟩, rfl, rfl, rfl, rfl, rfl⟩

theorem shifts_recordDeploymentHealthFailure (error : Text) :
    Shifts workloads (.recordDeploymentHealthFailure d error) d s.now (s.position d)
      ((run settings (recordDeploymentHealthFailure settings d error) s).1.position d) := by
  rw [recordDeploymentHealthFailure, run_bind, run_getDeployment]
  cases hrecord : s.record d with
  | none => exact .refl
  | some record =>
    dsimp only
    rw [run_bind, run_bind]
    let saved : DeploymentRecord := { record with
      healthCheckFailures := record.healthCheckFailures + 1
      lastError := some error
      failureClass := some "health_check_failure".toList
      updatedAt := s.now }
    have hsaved : Shifts workloads (.recordDeploymentHealthFailure d error) d s.now (s.position d)
        (((FleetOp.updateDeployment d saved).exec settings s).1.position d) :=
      shifts_save settings hrecord saved ⟨⟨rfl, rfl, rfl, rfl⟩, rfl, rfl, rfl, rfl, rfl⟩
    split
    · refine hsaved.trans (shifts_updateDeploymentStatus settings (by rfl) _ fun _ _ ↦ ?_)
      exact ⟨rfl, rfl⟩
    · exact hsaved

theorem shifts_clearDeploymentHealthFailures :
    Shifts workloads c d now (s.position d)
      ((run settings (clearDeploymentHealthFailures d) s).1.position d) := by
  rw [clearDeploymentHealthFailures, run_bind, run_getDeployment]
  cases hrecord : s.record d with
  | none => exact .refl
  | some record =>
    dsimp only
    split
    · exact .refl
    · exact shifts_save settings (s := s) hrecord _ ⟨⟨rfl, rfl, rfl, rfl⟩, rfl, rfl, rfl, rfl, rfl⟩

/-! ### Placement -/

/-- What a placement attempt does to the stand: nothing, or it takes the hold. -/
inductive PlacementSpec (workload : WorkloadSpec) (f : Stand) :
    Stand → Option LeaseAssignment → Prop
  | refused : PlacementSpec workload f f none
  | held (lease : LeaseAssignment) (assigned : lease.status = .assigned) :
      PlacementSpec workload f
        { f with
          reservation := some ⟨lease.hotkey, lease.nodeId, workload.requirements.gpuCount, .active⟩ }
        (some lease)

theorem stand_run_holdNode (settings : Settings) (nodes : List NodeCapability) (d : DeploymentId)
    (gpuCount : ℕ) (assignment : LeaseAssignment) (s : Fleet) :
    (run settings (holdNode nodes d gpuCount assignment) s).1.stand d =
      if (run settings (holdNode nodes d gpuCount assignment) s).2 = true then
        { s.stand d with
          reservation := some ⟨assignment.hotkey, assignment.nodeId, gpuCount, .active⟩ }
      else s.stand d := by
  rw [holdNode, run_bind, run_call]
  have hreserve := stand_reserveGpus settings s d assignment.hotkey assignment.nodeId gpuCount
    ((nodes.find? fun n ↦ n.nodeId = assignment.nodeId).map NodeCapability.gpuCount)
  generalize (FleetOp.reserveGpus d assignment.hotkey assignment.nodeId gpuCount
    ((nodes.find? fun n ↦ n.nodeId = assignment.nodeId).map NodeCapability.gpuCount)).exec settings s
    = reserved at hreserve ⊢
  cases hheld : reserved.2 with
  | true =>
    rw [hheld, if_pos rfl] at hreserve
    simp only [if_true, run_bind, run_pure]
    rw [stand_run_adjustNodeCapacity, hreserve]
  | false =>
    rw [hheld] at hreserve
    exact hreserve

theorem run_assignLease (settings : Settings) (workload : WorkloadSpec) (d : DeploymentId)
    (s : Fleet) :
    PlacementSpec workload (s.stand d) ((run settings (assignLease settings workload d) s).1.stand d)
      (run settings (assignLease settings workload d) s).2 := by
  rw [assignLease, run_bind]
  have hsteady : (schedulableNodes settings (some d)).Uses Steady :=
    schedulableNodes_uses steady_of_looks _
  have hlook := stand_run_of_steady settings hsteady s d
  generalize run settings (schedulableNodes settings (some d)) s = looked at hlook ⊢
  rw [← hlook, run_bind, run_bind, run_bind]
  split
  · exact .refused
  · next assignment hassignment =>
    obtain ⟨node, -, -, -, -, hassigned⟩ := PlacementPolicy.assignLease_eq_some hassignment
    -- The lock moves no stand.
    have hlock : (run settings (call .now) (run settings (call .reservedGpusByNode)
        (run settings (call .lockPlacement) looked.1).1).1).1.stand d = looked.1.stand d := rfl
    generalize (run settings (call .now) (run settings (call .reservedGpusByNode)
        (run settings (call .lockPlacement) looked.1).1).1).1 = locked at hlock ⊢
    have hhold := stand_run_holdNode settings looked.2 d workload.requirements.gpuCount assignment
      locked
    rw [run_bind, run_bind, ← hlock]
    generalize run settings (holdNode looked.2 d workload.requirements.gpuCount assignment) locked
      = held at hhold ⊢
    cases hheld : held.2 with
    | true =>
      rw [hheld, if_pos rfl] at hhold
      rw [if_pos rfl, run_bind]
      exact hhold ▸ .held { assignment with expiresAt := some _ } hassigned
    | false =>
      rw [hheld] at hhold
      exact hhold ▸ .refused

theorem position_assignLease (settings : Settings) (workload : WorkloadSpec) (d : DeploymentId)
    (s : Fleet) :
    (run settings (assignLease settings workload d) s).1.position d =
      ⟨(run settings (assignLease settings workload d) s).1.stand d, (s.position d).since⟩ :=
  position_run (assignLease_uses unstamped_of_looks unstamped_of_reports (fun _ _ _ _ ↦ rfl) rfl
    rfl workload) rfl

theorem shifts_notPlaced (settings : Settings) (hnow : s.now = now)
    (hrecord : s.record d = some record) (attempts : ℕ) :
    Shifts workloads (.processDeploymentRequest d attempts) d now (s.position d)
      ((run settings (notPlaced settings d record attempts) s).1.position d) := by
  rw [notPlaced, run_bind, run_bind]
  split
  · rw [run_bind, run_bind, run_bind]
    refine Relation.ReflTransGen.trans ?_
      (shifts_updateDeploymentStatus settings ?_ _ fun _ _ ↦ ⟨rfl, rfl⟩)
    rotate_left
    · exact hnow
    exact shifts_save_twice settings hrecord _ _ ⟨⟨rfl, rfl, rfl, rfl⟩, rfl, rfl, rfl, rfl, rfl⟩
      ⟨⟨rfl, rfl, rfl, rfl⟩, rfl, rfl, rfl, rfl, rfl⟩
  · exact shifts_save settings (s := s) hrecord _ ⟨⟨rfl, rfl, rfl, rfl⟩, rfl, rfl, rfl, rfl, rfl⟩

theorem shifts_processDeploymentRequest (attempts : ℕ) :
    Shifts s.workloads (.processDeploymentRequest d attempts) d s.now (s.position d)
      ((run settings (processDeploymentRequest settings protocol d attempts) s).1.position d) := by
  rw [processDeploymentRequest, run_bind, run_getDeployment]
  cases hrecord : s.record d with
  | none => exact .refl
  | some record =>
    dsimp only
    split
    · exact .refl
    · next hpending =>
      rw [run_bind, run_getWorkload]
      cases hneeds : s.workloads.get? record.workloadId with
      | none => exact .refl
      | some workload =>
        dsimp only
        rw [run_bind]
        have hattempt := run_assignLease settings workload d s
        have hposition := position_assignLease settings workload d s
        have habout : (assignLease settings workload d).Uses (About d) :=
          (permits_about d).assignLease_uses workload
        have hnow := now_run_of_about settings habout s
        generalize run settings (assignLease settings workload d) s = attempt
          at hattempt hposition hnow ⊢
        obtain ⟨s', assignment⟩ := attempt
        dsimp only at hposition
        generalize s'.stand d = f at hattempt hposition
        -- Either nothing has moved, or the hold is taken and the record is as it was.
        cases hattempt with
        | refused =>
          have hrecord' : s'.record d = some record :=
            (congrArg (fun p ↦ p.stand.record) hposition).trans hrecord
          have hsame : s.position d = s'.position d := hposition.symm
          dsimp only
          rw [run_bind, hsame]
          exact shifts_notPlaced settings hnow hrecord' attempts
        | held assignment hassigned =>
          have hleased : ((FleetOp.saveAssignment d assignment).exec settings s').1.position d =
              ⟨{ (s'.position d).stand with lease := some assignment }, (s'.position d).since⟩ := by
            rw [Fleet.position, stand_saveAssignment, since_exec settings rfl, Fleet.position]
          rw [hposition] at hleased
          refine shifts_of_save settings hleased hrecord _ rfl ?_
          exact .scheduled record _ workload assignment attempts _ rfl hrecord (not_not.mp hpending)
            hneeds hassigned ⟨rfl, rfl, rfl, rfl⟩ rfl rfl (protocol.rateForGpu_pos _) rfl rfl

/-! ### Going back to the queue -/

theorem shifts_requeueUnassigned (settings : Settings) (hrecord : s.record d = some record)
    (origin : c.Requeues d) (why : (s.stand d).activeLease = none ∨ record.Over ∨
      workloads.get? record.workloadId = none) :
    Shifts workloads c d now (s.position d)
      ((run settings (requeueUnassigned d record) s).1.position d) := by
  rw [requeueUnassigned, run_bind, run_bind]
  refine shifts_of_save settings (s := s) rfl hrecord _ rfl ?_
  exact .unplaced record _ origin hrecord ⟨⟨rfl, rfl, rfl, rfl⟩, rfl, rfl, rfl, rfl, rfl⟩ why

/-- A requeue changes nothing, or frees its deployment and puts it back into the queue. -/
theorem shifts_requeueAssignment (settings : Settings) (now : Time) (assignment : LeaseAssignment)
    (reason : Text) (observedAt : Time) (origin : c.Requeues d) :
    Shifts s.workloads c d now (s.position d)
        ((run settings (requeueAssignment settings d assignment reason observedAt)
          s).1.position d) ∧
      ((run settings (requeueAssignment settings d assignment reason observedAt) s).2 = none →
        (run settings (requeueAssignment settings d assignment reason observedAt) s).1 = s ∧
          ∀ record, s.record d = some record →
            record.Over ∨ s.workloads.get? record.workloadId = none) := by
  rw [requeueAssignment, run_bind, run_getDeployment]
  cases hrecord : s.record d with
  | none => exact ⟨.refl, fun _ ↦ ⟨rfl, by rintro _ ⟨⟩⟩⟩
  | some record =>
    dsimp only
    split
    · next hover => exact ⟨.refl, fun _ ↦ ⟨rfl, fun _ h ↦ .inl (Option.some.inj h ▸ hover.symm)⟩⟩
    rw [run_bind, run_getWorkload]
    cases hneeds : s.workloads.get? record.workloadId with
    | none => exact ⟨.refl, fun _ ↦ ⟨rfl, fun _ h ↦ .inr (Option.some.inj h ▸ hneeds)⟩⟩
    | some workload =>
      dsimp only
      rw [run_bind, run_bind, run_bind]
      refine ⟨?_, by rintro ⟨⟩⟩
      have hfree := position_freeLease (d := d) settings s assignment (some workload)
      generalize run settings (freeLease d assignment (some workload)) s = freed at hfree ⊢
      have hlease := position_setLease (d := d) settings freed.1 .reassigned
      generalize run settings (setLease d (some .reassigned)) freed.1 = ended at hlease ⊢
      have hmark := position_exec settings (d := d) (o := .updatePlacementStatus d .failed true
        (some (observedAt + settings.placementFailureCooldownSeconds))) (by rintro ⟨⟩) rfl rfl
        ended.1
      rw [hlease, hfree] at hmark
      refine shifts_of_save settings hmark hrecord _ rfl ?_
      exact .requeued record _ origin hrecord ⟨⟨rfl, rfl, rfl, rfl⟩, rfl, rfl, rfl, rfl, rfl⟩

theorem shifts_requeueDeployment :
    Shifts s.workloads (.requeueDeployment d) d s.now (s.position d)
      ((run settings (requeueDeployment settings d) s).1.position d) := by
  rw [requeueDeployment, run_bind, run_getDeployment]
  cases hrecord : s.record d with
  | none => exact .refl
  | some record =>
    dsimp only
    rw [run_bind, run_activeAssignment]
    cases hactive : (s.stand d).lease.filter (fun lease ↦ lease.status ∈ activeStatuses) with
    | none =>
      dsimp only
      rw [run_bind]
      exact shifts_requeueUnassigned settings hrecord rfl (.inl hactive)
    | some assignment =>
      dsimp only
      rw [run_bind, run_bind, run_call]
      simp only [FleetOp.exec]
      have hrequeue := shifts_requeueAssignment (s := s) (c := .requeueDeployment d) (d := d)
        settings s.now assignment operatorRequeue s.now rfl
      generalize run settings (requeueAssignment settings d assignment operatorRequeue s.now) s =
        requeued at hrequeue ⊢
      obtain ⟨hshifts, hrefused⟩ := hrequeue
      cases hresult : requeued.2 with
      | some saved => exact hshifts
      | none =>
        obtain ⟨hsame, hwhy⟩ := hrefused hresult
        dsimp only
        rw [run_bind, hsame]
        exact shifts_requeueUnassigned settings hrecord rfl (.inr (hwhy record hrecord))

/-! ### Resuming, failing and cleaning up -/

theorem run_reservedGpusByNode (settings : Settings) (s : Fleet) :
    run settings (call .reservedGpusByNode) s = (s, reservedGpusByNode s) := rfl

/-- A resume is refused and moves nothing, or takes the hold again and makes the lease active. -/
theorem position_resumeDeployment (settings : Settings) (d : DeploymentId) (s : Fleet) :
    (∃ e, (run settings (resumeDeployment d) s).2 = .error e ∧
        (run settings (resumeDeployment d) s).1.position d = s.position d) ∨
      ∃ record saved workload hotkey node, s.record d = some record ∧ record.state = .suspended ∧
        record.hotkey = some hotkey ∧ record.nodeId = some node ∧
        s.workloads.get? record.workloadId = some workload ∧ Noted record saved ∧
        (run settings (resumeDeployment d) s).2 = .ok saved ∧
        (run settings (resumeDeployment d) s).1.position d =
          ⟨((s.stand d).resume hotkey node workload.requirements.gpuCount).save saved,
            getBillableSince d s⟩ := by
  rw [resumeDeployment, run_bind, run_getDeployment]
  cases hrecord : s.record d with
  | none => exact .inl ⟨_, rfl, rfl⟩
  | some record =>
    dsimp only
    split
    · exact .inl ⟨_, rfl, rfl⟩
    next hsuspended =>
    split
    · next hotkey node hhotkey hnode =>
      rw [run_bind, run_getWorkload]
      cases hneeds : s.workloads.get? record.workloadId with
      | none => exact .inl ⟨_, rfl, rfl⟩
      | some workload =>
        dsimp only
        have hfind : (run settings (findNode node) s).1 = s :=
          run_of_looks settings (findNode_uses (fun _ h ↦ h) node) s
        rw [run_bind, hfind]
        cases (run settings (findNode node) s).2 with
        | none => exact .inl ⟨_, rfl, rfl⟩
        | some capability =>
          dsimp only
          rw [run_bind, run_reservedGpusByNode]
          split
          · exact .inl ⟨_, rfl, rfl⟩
          rw [run_bind, run_bind, run_bind, run_call]
          -- The hold is taken and the lease is active again.
          have hreserve : ((FleetOp.reserveGpus d hotkey node workload.requirements.gpuCount
              none).exec settings s).1.position d = ⟨⟨s.record d, some ⟨hotkey, node,
                workload.requirements.gpuCount, .active⟩, s.leases.get? d⟩,
                getBillableSince d s⟩ := by
            rw [Fleet.position, stand_reserveGpus, since_exec settings rfl]
            rfl
          generalize (FleetOp.reserveGpus d hotkey node workload.requirements.gpuCount none).exec
            settings s = reserved at hreserve ⊢
          have hadjust := position_run (adjustNodeCapacity_uses unstamped_of_looks
            unstamped_of_reports _ _ _) (stand_run_adjustNodeCapacity settings hotkey node
              (-workload.requirements.gpuCount) reserved.1 d)
          generalize run settings (adjustNodeCapacity hotkey node (-workload.requirements.gpuCount))
            reserved.1 = adjusted at hadjust ⊢
          have hlease := position_setLease (d := d) settings adjusted.1 .active
          generalize run settings (setLease d (some .active)) adjusted.1 = leased at hlease ⊢
          have hresumed : leased.1.position d =
              ⟨(s.stand d).resume hotkey node workload.requirements.gpuCount,
                getBillableSince d s⟩ := by
            rw [hlease, hadjust]
            exact congrArg (fun p : Position ↦ (⟨p.stand.setLease .active, p.since⟩ : Position))
              hreserve
          refine .inr ⟨record, { record with
            lastError := none
            failureClass := none
            updatedAt := leased.1.now }, workload, hotkey, node, rfl, not_not.mp hsuspended,
            hhotkey, hnode, hneeds, ⟨⟨rfl, rfl, rfl, rfl⟩, rfl, rfl, rfl, rfl, rfl⟩, rfl, ?_⟩
          exact position_save settings hresumed hrecord rfl
    · exact .inl ⟨_, rfl, rfl⟩

theorem shifts_resumeDeployment :
    Shifts s.workloads (.resumeDeployment d) d now (s.position d)
      ((run settings (resumeDeployment d) s).1.position d) := by
  obtain ⟨e, -, same⟩ | ⟨record, saved, workload, hotkey, node, found, suspended, onHotkey, onNode,
    needs, same, -, moved⟩ := position_resumeDeployment settings d s
  · rw [same]
  · rw [moved]
    exact .single (.resumed record saved workload hotkey node rfl found suspended onHotkey onNode
      needs same)

/-- Failing a deployment makes at most one shift: if its failure is refused, the deployment is taken
off its machine all the same. -/
theorem shift_failDeployment :
    Relation.ReflGen (PositionShift workloads (.failDeployment d) d s.now) (s.position d)
      ((run settings (failDeployment settings d) s).1.position d) := by
  rw [failDeployment, run_bind, run_getDeployment]
  cases hrecord : s.record d with
  | none => exact .refl
  | some record =>
    dsimp only
    rw [run_bind, run_activeAssignment]
    dsimp only
    rw [run_bind, run_bind]
    cases hactive : (s.stand d).lease.filter (fun lease ↦ lease.status ∈ activeStatuses) with
    | none =>
      exact (report_updateDeploymentStatus (c := .failDeployment d) settings (s := s) rfl _
        fun _ _ ↦ ⟨rfl, rfl⟩).mono fun _ _ ↦ PositionShift.reported _
    | some assignment =>
      have hleased : (s.position d).stand.activeLease.isSome := Option.isSome_of_eq_some hactive
      have habout : (failAssignment settings d record (some assignment)).Uses (About d) :=
        (permits_about d).endLease_uses _ _ _ _ _
      have hnow := now_run_of_about settings habout s
      have hended : (run settings (failAssignment settings d record (some assignment)) s).1.position
          d = _ := position_endLease settings s record assignment .failed true _
      generalize run settings (failAssignment settings d record (some assignment)) s = ended
        at hnow hended ⊢
      have hkept : ended.1.record d = some record :=
        (congrArg (fun p ↦ p.stand.record) hended).trans hrecord
      obtain ⟨same, why⟩ | ⟨record', readyAt, found, live, allowed, moved⟩ :=
        position_updateDeploymentStatus (d := d) settings
          { state := .failed, error := some operatorFailure, observedAt := ended.1.now } ended.1
      · have hposition := same.trans hended
        refine hposition ▸ .single ?_
        exact .released record rfl hrecord hleased (why record hkept)
      · obtain rfl := Option.some.inj (hkept.symm.trans found)
        have hstand : ended.1.stand d = (s.stand d).release.setLease .terminated :=
          congrArg Position.stand hended
        rw [hstand, Stand.follow_ended, if_neg (fun h ↦ nomatch h.1)] at moved
        have hsince : getBillableSince d ended.1 = (s.position d).since :=
          congrArg Position.since hended
        rw [hsince] at moved
        refine moved ▸ .single (.reported _ ?_)
        exact .admitted _ record readyAt hrecord ⟨rfl, rfl⟩ live allowed

theorem shifts_cleanupDeployment (reason : Text) :
    Shifts workloads (.cleanupDeployment d reason) d now (s.position d)
      ((run settings (cleanupDeployment d reason) s).1.position d) := by
  rw [cleanupDeployment, run_bind, run_getDeployment]
  cases hrecord : s.record d with
  | none => exact .refl
  | some record =>
    dsimp only
    rw [run_bind, run_activeAssignment]
    dsimp only
    rw [run_bind, run_bind]
    have hfreed : ∃ f : Stand, (run settings (cleanupAssignment d record ((s.stand d).lease.filter
        fun lease ↦ lease.status ∈ activeStatuses)) s).1.position d = ⟨f, (s.position d).since⟩ ∧
        f.record = (s.stand d).record ∧ f.lease.isSome = (s.stand d).lease.isSome ∧
        (f.holding = true → (s.stand d).holding = true ∧ (s.stand d).activeLease = none) := by
      cases hactive : (s.stand d).lease.filter (fun lease ↦ lease.status ∈ activeStatuses) with
      | some assignment =>
        refine ⟨_, position_endLease settings s record assignment _ _ _, rfl,
          Stand.isSome_lease_setLease _ _, fun h ↦ ?_⟩
        rw [Stand.holding_setLease, Stand.holding_release] at h
        cases h
      | none =>
        refine ⟨_, position_run (setLease_uses (fun _ ↦ rfl) _) (stand_run_setLease settings d
          (if record.state = .suspended then some .terminated else none) s), ?_⟩
        split
        · exact ⟨rfl, rfl, fun h ↦ ⟨h, hactive⟩⟩
        · exact ⟨rfl, Stand.isSome_lease_setLease _ _, fun h ↦ ⟨h, hactive⟩⟩
    obtain ⟨f, hposition, hkept, hlease, hhold⟩ := hfreed
    refine shifts_of_save settings hposition (hkept.trans hrecord) _ rfl ?_
    exact .ended record _ f reason rfl hrecord hkept hlease hhold ⟨rfl, rfl, rfl, rfl⟩ rfl rfl rfl
      rfl rfl

/-! ### Metering -/

theorem shifts_suspendForBalance (settings : Settings) (elapsed : Option Time) (hnow : s.now = now)
    (shortfallCents : ℤ) :
    Shifts workloads (.meterUsage elapsed) d now (s.position d)
      ((run settings (suspendForBalance d shortfallCents) s).1.position d) := by
  rw [suspendForBalance, run_bind, run_call]
  have hposition := position_exec settings (d := d)
    (o := .returnMeteringMcents d (shortfallCents * 1000)) (fun h ↦ nomatch h) rfl rfl s
  have hnow' := now_exec settings (o := .returnMeteringMcents d (shortfallCents * 1000)) rfl s
  generalize (FleetOp.returnMeteringMcents d (shortfallCents * 1000)).exec settings s = returned
    at hposition hnow' ⊢
  rw [run_bind, run_bind, ← hposition]
  exact shifts_updateDeploymentStatus settings (s := returned.1) (hnow'.trans hnow) _
    fun _ _ ↦ ⟨rfl, hnow'.trans hnow⟩

theorem shifts_charge (settings : Settings) (elapsed : Option Time) (hnow : s.now = now)
    (owner : UserId) (addMcents : ℤ) :
    Shifts workloads (.meterUsage elapsed) d now (s.position d)
      ((run settings (charge d owner addMcents) s).1.position d) := by
  rw [charge, run_bind, run_call]
  have haccrued := position_exec settings (d := d) (o := .accrueMetering d addMcents)
    (fun h ↦ nomatch h) rfl rfl s
  have hnow₁ := now_exec settings (o := .accrueMetering d addMcents) rfl s
  generalize (FleetOp.accrueMetering d addMcents).exec settings s = accrued at haccrued hnow₁ ⊢
  obtain ⟨s₁, wholeCents, remainder⟩ := accrued
  dsimp only at haccrued hnow₁ ⊢
  rw [← haccrued]
  split
  · exact .refl
  rw [run_bind, run_call]
  have hdebited := position_exec settings (d := d)
    (o := .debitUserToFloor owner wholeCents .usage (some (.deployment d))) (fun h ↦ nomatch h) rfl
    rfl s₁
  have hnow₂ := now_exec settings
    (o := .debitUserToFloor owner wholeCents .usage (some (.deployment d))) rfl s₁
  generalize (FleetOp.debitUserToFloor owner wholeCents .usage (some (.deployment d))).exec settings
    s₁ = debited at hdebited hnow₂ ⊢
  rw [← hdebited]
  cases debited.2 with
  | error e => exact .refl
  | ok drain =>
    dsimp only
    split
    · rw [run_bind]
      exact shifts_suspendForBalance settings elapsed (hnow₂.trans (hnow₁.trans hnow)) _
    · exact .refl

theorem shifts_meterDeployment (settings : Settings) (elapsed : Option Time) (hnow : s.now = now)
    (cycle : Time) (record : DeploymentRecord) :
    Shifts workloads (.meterUsage elapsed) d now (s.position d)
      ((run settings (meterDeployment settings cycle now d record) s).1.position d) := by
  have hspec := run_meterDeployment settings cycle now d record s
  generalize run settings (meterDeployment settings cycle now d record) s = metered at hspec ⊢
  cases hspec with
  | passed h => exact .refl
  | stamped h unset =>
    cases hrow : s.deployments.get? d with
    | none =>
      -- There is no row to stamp.
      have hsame : (((FleetOp.setBillableSince d now).exec settings s).1).position d =
          s.position d := by
        simp [FleetOp.exec, setBillableSince, Fleet.position, Fleet.stand, Fleet.record,
          getBillableSince, hrow]
      rw [hsame]
    | some row =>
      have hstamped : (((FleetOp.setBillableSince d now).exec settings s).1).position d =
          ⟨s.stand d, some now⟩ := by
        simp [FleetOp.exec, setBillableSince, Fleet.position, Fleet.stand, Fleet.record,
          getBillableSince, hrow]
      rw [hstamped]
      exact .single (.stamped elapsed rfl unset)
  | charged owner seconds h => exact shifts_charge settings elapsed hnow owner _

theorem shifted_meterAll (elapsed : Option Time) (hnow : s.now = now) (cycle : Time)
    (ready : List (DeploymentId × DeploymentRecord)) :
    Shifted (.meterUsage elapsed) s (run settings (meterAll settings cycle now ready) s).1 := by
  induction ready generalizing s with
  | nil => exact .refl _ s
  | cons entry ready ih =>
    rw [meterAll, run_bind, run_bind]
    have hshifts : Shifts s.workloads (.meterUsage elapsed) entry.1 now (s.position entry.1) _ :=
      shifts_meterDeployment settings elapsed hnow cycle entry.2
    rw [← hnow] at hshifts ih ⊢
    have hpass := shifted_of_about (meterDeployment_about entry.1 cycle s.now entry.2) hshifts
    exact hpass.trans (ih hpass.now)

/-! ### Sweeps -/

theorem shifted_expireAll (time : Option Time) (observedAt : Time)
    (assignments : List (DeploymentId × LeaseAssignment)) :
    Shifted (.processTimeouts time) s (run settings (expireAll observedAt assignments) s).1 := by
  induction assignments generalizing s with
  | nil => exact .refl _ s
  | cons entry assignments ih =>
    obtain ⟨d, lease⟩ := entry
    rw [expireAll, run_bind]
    have hpass : Shifted (.processTimeouts time) s
        (run settings (expire observedAt d lease) s).1 := by
      unfold expire
      split
      · exact .refl _ s
      rw [run_bind, run_getDeployment]
      cases s.record d with
      | none => exact .refl _ s
      | some record =>
        dsimp only
        split
        · exact .refl _ s
        · rw [run_bind]
          exact shifted_updateDeploymentStatus settings d _ fun _ _ ↦ rfl
    cases (run settings (expire observedAt d lease) s).2 with
    | error e => exact hpass
    | ok expired =>
      dsimp only
      rw [run_bind]
      exact hpass.trans ih

theorem shifted_reassign (time : Option Time) (observedAt : Time) (d : DeploymentId)
    (lease : LeaseAssignment) :
    Shifted (.processUnhealthyMiners time) s
      (run settings (reassign settings observedAt d lease) s).1 := by
  rw [reassign, run_bind, run_of_looks settings (assignmentProblem_uses (fun _ h ↦ h) _ _)]
  cases (run settings (assignmentProblem settings lease observedAt) s).2 with
  | none => exact .refl _ s
  | some problem =>
    dsimp only
    rw [run_bind, run_getDeployment, run_bind,
      run_of_looks settings (silentDeployment_uses (fun _ h ↦ h) _ _)]
    cases (run settings (silentDeployment settings (s.record d) problem.silentFor) s).2 with
    | ended silentFor =>
      dsimp only
      rw [run_bind, endOfflinePod, run_bind, run_bind]
      exact shifted_updateDeploymentStatus (s := s) settings d _ fun _ _ ↦ rfl
    | kept => exact .refl _ s
    | moved =>
      refine shifted_of_about
        ((permits_about d).requeueAssignment_uses (about_self rfl rfl) lease _ observedAt) ?_
      exact (shifts_requeueAssignment (s := s) (c := .processUnhealthyMiners time) settings s.now
        lease _ observedAt trivial).1

theorem shifted_reassignAll (time : Option Time) (observedAt : Time)
    (assignments : List (DeploymentId × LeaseAssignment)) :
    Shifted (.processUnhealthyMiners time) s
      (run settings (reassignAll settings observedAt assignments) s).1 := by
  induction assignments generalizing s with
  | nil => exact .refl _ s
  | cons entry assignments ih =>
    rw [reassignAll, run_bind, run_bind]
    exact (shifted_reassign time observedAt entry.1 entry.2).trans ih

theorem shifted_suspendAllIdle (lastInvocationAt : DeploymentId → Option Time) (time : Option Time)
    (observedAt : Time) (ready : List (DeploymentId × DeploymentRecord)) :
    Shifted (.processIdleInferenceDeployments lastInvocationAt time) s
      (run settings (suspendAllIdle settings observedAt lastInvocationAt ready) s).1 := by
  induction ready generalizing s with
  | nil => exact .refl _ s
  | cons entry ready ih =>
    rw [suspendAllIdle, run_bind]
    refine .trans ?_ ih
    rw [suspendIdle, run_bind, run_getWorkload]
    split
    · split
      · exact .refl _ s
      · rw [run_bind, run_bind]
        exact shifted_updateDeploymentStatus (s := s) settings entry.1 _ fun _ _ ↦ ⟨rfl, rfl⟩
    · exact .refl _ s

theorem shifted_reap (settings : Settings) (time : Option Time) (observedAt : Time)
    (d : DeploymentId) (record : DeploymentRecord) (s : Fleet) :
    Shifted (.reapExhaustedPods time) s (run settings (reap settings observedAt d record) s).1 := by
  unfold reap
  split
  · exact .refl _ s
  rw [run_bind, run_of_looks settings (isRental_uses (fun _ h ↦ h) _)]
  split
  · exact .refl _ s
  · split
    · exact .refl _ s
    · rw [reapPod, run_bind, run_bind]
      exact shifted_updateDeploymentStatus (s := s) settings d _ fun _ _ ↦ rfl

theorem shifted_reapAll (time : Option Time) (observedAt : Time)
    (suspended : List (DeploymentId × DeploymentRecord)) :
    Shifted (.reapExhaustedPods time) s
      (run settings (reapAll settings observedAt suspended) s).1 := by
  induction suspended generalizing s with
  | nil => exact .refl _ s
  | cons entry suspended ih =>
    rw [reapAll, run_bind]
    exact (shifted_reap settings time observedAt entry.1 entry.2 s).trans ih

/-- The sweep of orphaned holds gives each of them back. -/
theorem shifted_reclaim : Shifted .reclaimOrphanedReservations s
    (run settings (call .releaseOrphanedReservations) s).1 := by
  refine ⟨rfl, rfl, fun d ↦ ?_⟩
  have hposition : (run settings (call .releaseOrphanedReservations) s).1.position d =
      ⟨⟨s.record d, (s.reservations.get? d).map fun r ↦
        if orphaned s d r then { r with status := .released } else r, s.leases.get? d⟩,
        getBillableSince d s⟩ :=
    congrArg (fun r ↦ (⟨⟨s.record d, r, s.leases.get? d⟩, getBillableSince d s⟩ : Position))
      (Table.get?_map _ _ _)
  rw [hposition]
  cases hr : s.reservations.get? d with
  | none =>
    rw [Option.map_none, ← hr]
    exact .refl
  | some r =>
    rw [Option.map_some]
    by_cases horphaned : orphaned s d r = true
    · rw [if_pos horphaned]
      obtain ⟨active, gone⟩ := of_decide_eq_true horphaned
      exact .single (.reclaimed r rfl hr active gone)
    · rw [if_neg horphaned, ← hr]
      exact .refl

end

/-! ## Every call -/

/-- Running a method for its effects has its effects. -/
theorem run_discard (settings : Settings) {α : Type} (p : Program ControlPlane α) (s : Fleet) :
    (run settings (discard p) s).1 = (run settings p s).1 := by
  rw [discard, run_bind, run_pure]

theorem shifted_discard {α : Type} {p : Program ControlPlane α} {c : FleetCall}
    (h : Shifted c s (run settings p s).1) : Shifted c s (run settings (discard p) s).1 := by
  rw [run_discard]
  exact h

/-- **Every call shifts.** A call that takes no time changes each deployment's position by shifts of
its own. -/
theorem shifted_after (settings : Settings) (protocol : Protocol) {c : FleetCall}
    (hc : ∀ seconds, c ≠ .advance seconds) (s : Fleet) :
    Shifted c s ((controlPlane settings protocol).after c s) := by
  change Shifted c s (run settings (c.body settings protocol) s).1
  cases c with
  | createDeployment d request =>
    exact shifted_discard (shifted_of_about ((permits_about d).createDeployment_uses request)
      (shifts_createDeployment request))
  | updateDeployment d request =>
    exact shifted_discard (shifted_of_about ((permits_about d).updateDeployment_uses request)
      (shifts_updateDeployment request))
  | deploymentStatus d hotkey update =>
    have hreport := report_deploymentStatus (d := d) (s := s) settings hotkey update
    exact shifted_discard (shifted_of_about ((permits_about d).deploymentStatus_uses hotkey update)
      (hreport.mono fun _ _ ↦ PositionShift.reported _).to_reflTransGen)
  | updateDeploymentStatus d update =>
    exact shifted_discard (shifted_updateDeploymentStatus settings d update fun _ _ ↦ ⟨rfl, rfl⟩)
  | recordDeploymentHealthFailure d error =>
    exact shifted_discard (shifted_of_about
      ((permits_about d).recordDeploymentHealthFailure_uses error)
      (shifts_recordDeploymentHealthFailure error))
  | clearDeploymentHealthFailures d =>
    exact shifted_discard (shifted_of_about (permits_about d).clearDeploymentHealthFailures_uses
      shifts_clearDeploymentHealthFailures)
  | processDeploymentRequest d attempts =>
    exact shifted_discard (shifted_of_about
      ((permits_about d).processDeploymentRequest_uses attempts)
      (shifts_processDeploymentRequest attempts))
  | requeueAssignment d assignment reason observedAt =>
    exact shifted_discard (shifted_of_about
      ((permits_about d).requeueAssignment_uses (about_self rfl rfl) assignment reason observedAt)
      (shifts_requeueAssignment (c := .requeueAssignment d assignment reason observedAt) settings
        s.now assignment reason observedAt rfl).1)
  | requeueDeployment d =>
    exact shifted_discard (shifted_of_about
      ((permits_about d).requeueDeployment_uses (about_self rfl rfl)) shifts_requeueDeployment)
  | resumeDeployment d =>
    exact shifted_discard (shifted_of_about (permits_about d).resumeDeployment_uses
      shifts_resumeDeployment)
  | failDeployment d =>
    exact shifted_discard (shifted_of_about (permits_about d).failDeployment_uses
      shift_failDeployment.to_reflTransGen)
  | cleanupDeployment d reason =>
    exact shifted_discard (shifted_of_about ((permits_about d).cleanupDeployment_uses reason)
      (shifts_cleanupDeployment reason))
  | reclaimOrphanedReservations => exact shifted_discard shifted_reclaim
  | meterUsage elapsed =>
    exact shifted_discard (shifted_meterAll elapsed (s := s) rfl (cycleSeconds elapsed) _)
  | processTimeouts time =>
    have hlook := run_of_looks settings (timeOr_uses (fun _ h ↦ h) time) s
    rw [FleetCall.body, run_discard, processTimeouts, run_bind, hlook]
    exact shifted_expireAll time _ _
  | processUnhealthyMiners time =>
    have hlook := run_of_looks settings (timeOr_uses (fun _ h ↦ h) time) s
    rw [FleetCall.body, run_discard, processUnhealthyMiners, run_bind, hlook, run_bind,
      run_listAssignments, run_bind, run_of_looks settings (anyMinerReporting_uses (fun _ h ↦ h) _)]
    split
    · exact .refl _ s
    · exact shifted_reassignAll time _ _
  | processIdleInferenceDeployments lastInvocationAt time =>
    have hlook := run_of_looks settings (timeOr_uses (fun _ h ↦ h) time) s
    rw [FleetCall.body, processIdleInferenceDeployments, run_bind, hlook]
    exact shifted_suspendAllIdle lastInvocationAt time _ _
  | reapExhaustedPods time =>
    have hlook := run_of_looks settings (timeOr_uses (fun _ h ↦ h) time) s
    rw [FleetCall.body]
    unfold reapExhaustedPods
    split
    · rw [run_bind, hlook]
      exact shifted_reapAll time _ _
    · exact .refl _ s
  | updateCapacity update =>
    have habout : (ControlPlaneService.updateCapacity protocol update).Uses (About 0) :=
      ⟨about_of_reports 0 _ rfl, fun _ ↦ trivial⟩
    have hsteady : (ControlPlaneService.updateCapacity protocol update).Uses Steady :=
      ⟨steady_of_reports _ rfl, fun _ ↦ trivial⟩
    exact .of_still (now_run_of_about settings habout s) (workloads_run _ s) fun d ↦
      position_run ⟨rfl, fun _ ↦ trivial⟩ (stand_run_of_steady settings hsteady s d)
  | recordHeartbeat | drainMiner => exact .of_still rfl rfl fun _ ↦ rfl
  | money op => exact .of_still (op.now_exec s.billing) rfl fun _ ↦ rfl
  | advance seconds => exact absurd rfl (hc seconds)

/-- Time passes between calls, and moves no position. -/
theorem now_after_advance (settings : Settings) (protocol : Protocol) (seconds : Time) (s : Fleet) :
    ((controlPlane settings protocol).after (.advance seconds) s).now = s.now + max 0 seconds := rfl

theorem position_after_advance (settings : Settings) (protocol : Protocol) (seconds : Time)
    (s : Fleet) (d : DeploymentId) :
    ((controlPlane settings protocol).after (.advance seconds) s).position d = s.position d := rfl

/-- What every shift keeps of a deployment's position, every call keeps. -/
theorem position_after_of_shifts (settings : Settings) (protocol : Protocol) (c : FleetCall)
    {P : Position → Prop} (hshift : ∀ p q, PositionShift s.workloads c d s.now p q → P p → P q)
    (hs : P (s.position d)) : P (((controlPlane settings protocol).after c s).position d) := by
  by_cases hadvance : ∃ seconds, c = .advance seconds
  · obtain ⟨seconds, rfl⟩ := hadvance
    rw [position_after_advance]
    exact hs
  · have hshifts := (shifted_after settings protocol (not_exists.mp hadvance) s).position d
    generalize ((controlPlane settings protocol).after c s).position d = q at hshifts ⊢
    induction hshifts with
    | refl => exact hs
    | tail _ hstep ih => exact hshift _ _ hstep ih

end GreenCompute
