import GreenCompute.ControlPlane.Calls

/-!
# What the control plane's transactions touch

Most transactions are about one deployment, their `subject`, and leave the rows of every other
deployment alone. `Leaves` says what a transaction leaves as it is, and `leaves_exec` that every
transaction does; `recordStep_exec` says what can become of a deployment's record. The rest of the
module lists what the smaller methods use.
-/

namespace GreenCompute

open ControlPlaneRepository

/-! ## Machines and placements -/

namespace ControlPlaneRepository

variable {s : Fleet}

/-- Recording nodes changes the inventory and the servers. -/
theorem foldl_recordNode_eq (hotkey : Hotkey) (observedAt : Time) (nodes : List NodeCapability)
    (s : Fleet) : ∃ inventory servers, nodes.foldl (recordNode hotkey observedAt) s =
      { s with nodeInventory := inventory, servers := servers } := by
  induction nodes generalizing s with
  | nil => exact ⟨s.nodeInventory, s.servers, rfl⟩
  | cons node nodes ih => exact ih (recordNode hotkey observedAt s node)

/-- A capacity report changes what is known of machines and nothing else. -/
theorem upsertCapacity_eq (settings : Settings) (update : CapacityUpdate) (s : Fleet) :
    ∃ capacities inventory servers, upsertCapacity settings update s =
      { s with capacities := capacities, nodeInventory := inventory, servers := servers } := by
  obtain ⟨inventory, servers, h⟩ := foldl_recordNode_eq update.hotkey update.observedAt
    (update.nodes.map (normalizeNode update.hotkey update.observedAt))
    { s with capacities := s.capacities.insert update.hotkey ⟨_, update.observedAt⟩ }
  exact ⟨_, inventory, servers, h⟩

/-- Rewriting a placement changes the placements and nothing else. -/
theorem modifyLatestPlacement_eq (d : DeploymentId) (f : Placement → Placement) (s : Fleet) :
    ∃ placements, modifyLatestPlacement d f s = { s with placements := placements } := by
  unfold modifyLatestPlacement
  split
  · exact ⟨s.placements, rfl⟩
  · exact ⟨_, rfl⟩

end ControlPlaneRepository

/-! ## Subjects -/

namespace FleetOp

/-- The deployment whose rows a transaction may write. -/
def subject : FleetOp → Option DeploymentId
  | createDeployment d _ | updateDeployment d _ | accrueMetering d _ | returnMeteringMcents d _
  | setBillableSince d _ | saveAssignment d _ | updateAssignmentStatus d _
  | updatePlacementStatus d .. | reserveGpus d .. | releaseGpuReservation d => some d
  | _ => none

/-- The deployment whose lease a transaction may write. -/
def leaseOf : FleetOp → Option DeploymentId
  | saveAssignment d _ | updateAssignmentStatus d _ => some d
  | _ => none

/-- The sweep of orphaned holds, which may write any deployment's reservation. -/
def sweeps : FleetOp → Bool
  | releaseOrphanedReservations => true
  | _ => false

/-- The transactions that write reservations. -/
def holds : FleetOp → Bool
  | reserveGpus .. | releaseGpuReservation _ | releaseOrphanedReservations => true
  | _ => false

/-- The transactions that write the billing tables or move their clock. -/
def books : FleetOp → Bool
  | debitUserToFloor .. | money _ | advance _ => true
  | _ => false

/-- The transactions that only look, and not at a deployment's record. -/
def looks : FleetOp → Bool
  | now | getWorkload _ | listDeploymentsByState _ | getBillableSince _ | listAssignments _
  | listNodes | listMiners | listHeartbeats | getHeartbeat _ | listServers | listPlacements _
  | reservedGpusByNode | getCapacity _ => true
  | _ => false

/-- The capacity reports. -/
def reports : FleetOp → Bool
  | upsertCapacity _ => true
  | _ => false

/-- The transactions that say since when a deployment is billed. -/
def stamps : FleetOp → Bool
  | setBillableSince .. => true
  | _ => false

end FleetOp

namespace Fleet

variable {s s' : Fleet} {d : DeploymentId}

theorem record_congr (h : s'.deployments.get? d = s.deployments.get? d) :
    s'.record d = s.record d := by
  rw [record, h, record]

theorem state_of_record (h : s'.record d = s.record d) : s'.state d = s.state d := by
  rw [state, h, state]

theorem record_eq_some {record : DeploymentRecord} (h : s.record d = some record) :
    ∃ row, s.deployments.get? d = some row ∧ row.record = record :=
  Option.map_eq_some_iff.mp h

theorem state_of_some {record : DeploymentRecord} (h : s.record d = some record) :
    s.state d = some record.state := by
  rw [state, h, Option.map_some]

end Fleet

/-- What a transaction leaves as it is. -/
structure Leaves (o : FleetOp) (s s' : Fleet) : Prop where
  workloads : s'.workloads = s.workloads
  row : ∀ d, o.subject ≠ some d → s'.deployments.get? d = s.deployments.get? d
  reservation : ∀ d, o.subject ≠ some d → o.sweeps = false →
    s'.reservations.get? d = s.reservations.get? d
  lease : ∀ d, o.leaseOf ≠ some d → s'.leases.get? d = s.leases.get? d
  reservations : o.holds = false → s'.reservations = s.reservations
  billing : o.books = false → s'.billing = s.billing
  capacities : o.reports = false → s'.capacities = s.capacities
  nodeInventory : o.reports = false → s'.nodeInventory = s.nodeInventory

variable {settings : Settings} {s : Fleet} {d : DeploymentId}

theorem Leaves.refl (o : FleetOp) (s : Fleet) : Leaves o s s :=
  ⟨rfl, fun _ _ ↦ rfl, fun _ _ _ ↦ rfl, fun _ _ ↦ rfl, fun _ ↦ rfl, fun _ ↦ rfl, fun _ ↦ rfl,
    fun _ ↦ rfl⟩

private theorem ne_of_some {x : Option DeploymentId} {d' : DeploymentId} (hx : x = some d)
    (hd' : x ≠ some d') : d' ≠ d := by
  rintro rfl
  exact hd' hx

/-- A transaction that writes one deployment's row. -/
theorem Leaves.of_deployments {o : FleetOp} {deployments : Table DeploymentId DeploymentRow}
    (hsubject : o.subject = some d)
    (hrow : ∀ d', d' ≠ d → deployments.get? d' = s.deployments.get? d') :
    Leaves o s { s with deployments := deployments } :=
  ⟨rfl, fun d' hd' ↦ hrow d' (ne_of_some hsubject hd'), fun _ _ _ ↦ rfl, fun _ _ ↦ rfl,
    fun _ ↦ rfl, fun _ ↦ rfl, fun _ ↦ rfl, fun _ ↦ rfl⟩

/-- A transaction that writes one deployment's lease, and placements. -/
theorem Leaves.of_leases {o : FleetOp} {leases : Table DeploymentId LeaseAssignment}
    {placements : Table PlacementId Placement} (hleaseOf : o.leaseOf = some d)
    (hlease : ∀ d', d' ≠ d → leases.get? d' = s.leases.get? d') :
    Leaves o s { s with leases := leases, placements := placements } :=
  ⟨rfl, fun _ _ ↦ rfl, fun _ _ _ ↦ rfl, fun d' hd' ↦ hlease d' (ne_of_some hleaseOf hd'),
    fun _ ↦ rfl, fun _ ↦ rfl, fun _ ↦ rfl, fun _ ↦ rfl⟩

/-- A transaction that writes one deployment's reservation. -/
theorem Leaves.of_reservations {o : FleetOp} {reservations : Table DeploymentId GpuReservation}
    (hsubject : o.subject = some d) (hholds : o.holds ≠ false)
    (hhold : ∀ d', d' ≠ d → reservations.get? d' = s.reservations.get? d') :
    Leaves o s { s with reservations := reservations } :=
  ⟨rfl, fun _ _ ↦ rfl, fun d' hd' _ ↦ hhold d' (ne_of_some hsubject hd'), fun _ _ ↦ rfl,
    fun h ↦ absurd h hholds, fun _ ↦ rfl, fun _ ↦ rfl, fun _ ↦ rfl⟩

theorem leaves_exec (settings : Settings) (o : FleetOp) (s : Fleet) : Leaves o s
    (o.exec settings s).1 := by
  cases o with
  | createDeployment d' record =>
    simp only [FleetOp.exec, createDeployment]
    split
    · exact .refl _ s
    · exact .of_deployments rfl fun d'' hd ↦ Table.get?_insert_ne _ hd _
  | updateDeployment d' record =>
    exact .of_deployments rfl fun d'' hd ↦ Table.get?_insert_ne _ hd _
  | accrueMetering d' add =>
    simp only [FleetOp.exec, accrueMetering]
    split
    · exact .refl _ s
    · exact .of_deployments rfl fun d'' hd ↦ Table.get?_insert_ne _ hd _
  | returnMeteringMcents d' mcents =>
    simp only [FleetOp.exec, returnMeteringMcents]
    split
    · exact .refl _ s
    · split
      · exact .refl _ s
      · exact .of_deployments rfl fun d'' hd ↦ Table.get?_insert_ne _ hd _
  | setBillableSince d' since =>
    exact .of_deployments rfl fun d'' hd ↦ Table.get?_modify_ne _ hd _
  | saveAssignment d' lease =>
    exact .of_leases rfl fun d'' hd ↦ Table.get?_insert_ne _ hd _
  | updateAssignmentStatus d' status =>
    simp only [FleetOp.exec, updateAssignmentStatus]
    split
    · exact .refl _ s
    · obtain ⟨placements, hplacements⟩ := modifyLatestPlacement_eq d'
        (fun p ↦ { p with status := status, updatedAt := s.now }) s
      rw [hplacements]
      exact .of_leases rfl fun d'' hd ↦ Table.get?_insert_ne _ hd _
  | updatePlacementStatus d' status failed cooldown =>
    simp only [FleetOp.exec, updatePlacementStatus]
    obtain ⟨placements, hplacements⟩ := modifyLatestPlacement_eq d' _ s
    rw [hplacements]
    exact ⟨rfl, fun _ _ ↦ rfl, fun _ _ _ ↦ rfl, fun _ _ ↦ rfl, fun _ ↦ rfl, fun _ ↦ rfl,
      fun _ ↦ rfl, fun _ ↦ rfl⟩
  | reserveGpus d' hotkey node count capacity =>
    simp only [FleetOp.exec, reserveGpus]
    split
    · exact .refl _ s
    · exact .of_reservations rfl (by rintro ⟨⟩) fun d'' hd ↦ Table.get?_insert_ne _ hd _
  | releaseGpuReservation d' =>
    exact .of_reservations rfl (by rintro ⟨⟩) fun d'' hd ↦ Table.get?_modify_ne _ hd _
  | releaseOrphanedReservations =>
    exact ⟨rfl, fun _ _ ↦ rfl, by rintro _ _ ⟨⟩, fun _ _ ↦ rfl, by rintro ⟨⟩,
      fun _ ↦ rfl, fun _ ↦ rfl, fun _ ↦ rfl⟩
  | upsertCapacity update =>
    obtain ⟨capacities, inventory, servers, hupsert⟩ := upsertCapacity_eq settings update s
    simp only [FleetOp.exec]
    rw [hupsert]
    exact ⟨rfl, fun _ _ ↦ rfl, fun _ _ _ ↦ rfl, fun _ _ ↦ rfl, fun _ ↦ rfl, fun _ ↦ rfl,
      by rintro ⟨⟩, by rintro ⟨⟩⟩
  | debitUserToFloor | money | advance =>
    exact ⟨rfl, fun _ _ ↦ rfl, fun _ _ _ ↦ rfl, fun _ _ ↦ rfl, fun _ ↦ rfl, by rintro ⟨⟩,
      fun _ ↦ rfl, fun _ ↦ rfl⟩
  | _ =>
    exact ⟨rfl, fun _ _ ↦ rfl, fun _ _ _ ↦ rfl, fun _ _ ↦ rfl, fun _ ↦ rfl, fun _ ↦ rfl,
      fun _ ↦ rfl, fun _ ↦ rfl⟩

/-- What a transaction makes of a deployment's record. -/
inductive RecordStep (o : FleetOp) (d : DeploymentId) (s s' : Fleet) : Prop
  | kept (h : s'.record d = s.record d)
  | saved (record : DeploymentRecord) (op : o = .updateDeployment d record)
      (h : s'.record d = some (savedRow record (s.deployments.get? d)).record)
  | created (record : DeploymentRecord) (op : o = .createDeployment d record)
      (fresh : s.deployments.get? d = none) (h : s'.record d = some record)

/-- The record survives whatever keeps it in the row. -/
private theorem record_insert {row row' : DeploymentRow} {d' : DeploymentId}
    (hrow : s.deployments.get? d' = some row) (h : row'.record = row.record) :
    ({ s with deployments := s.deployments.insert d' row' } : Fleet).record d = s.record d := by
  simp only [Fleet.record, Table.get?_insert]
  split
  · next hd =>
    subst hd
    rw [hrow, Option.map_some, Option.map_some, h]
  · rfl

theorem recordStep_exec (settings : Settings) (o : FleetOp) (d : DeploymentId) (s : Fleet) :
    RecordStep o d s (o.exec settings s).1 := by
  by_cases hsubject : o.subject = some d
  · cases o with
    | createDeployment d' record =>
      obtain rfl : d' = d := Option.some.inj hsubject
      simp only [FleetOp.exec, createDeployment]
      split
      · exact .kept rfl
      · next hfresh =>
        refine .created record rfl (Option.not_isSome_iff_eq_none.mp hfresh) ?_
        rw [Fleet.record, Table.get?_insert_self, Option.map_some]
    | updateDeployment d' record =>
      obtain rfl : d' = d := Option.some.inj hsubject
      refine .saved record rfl ?_
      simp [FleetOp.exec, updateDeployment, Fleet.record]
    | accrueMetering d' add =>
      simp only [FleetOp.exec, accrueMetering]
      split
      · exact .kept rfl
      · next row hrow => exact .kept (record_insert hrow rfl)
    | returnMeteringMcents d' mcents =>
      simp only [FleetOp.exec, returnMeteringMcents]
      split
      · exact .kept rfl
      · next row hrow =>
        split
        · exact .kept rfl
        · exact .kept (record_insert hrow rfl)
    | setBillableSince d' since =>
      refine .kept ?_
      simp only [FleetOp.exec, setBillableSince, Fleet.record, Table.get?_modify]
      split
      · next hd =>
        rw [Option.map_map, hd]
        rfl
      · rfl
    | updateAssignmentStatus d' status =>
      refine .kept ?_
      simp only [FleetOp.exec, updateAssignmentStatus]
      split
      · rfl
      · obtain ⟨placements, hplacements⟩ := modifyLatestPlacement_eq d'
          (fun p ↦ { p with status := status, updatedAt := s.now }) s
        rw [hplacements]
        rfl
    | updatePlacementStatus d' status failed cooldown =>
      refine .kept ?_
      simp only [FleetOp.exec, updatePlacementStatus]
      obtain ⟨placements, hplacements⟩ := modifyLatestPlacement_eq d' _ s
      rw [hplacements]
      rfl
    | reserveGpus d' hotkey node count capacity =>
      refine .kept ?_
      simp only [FleetOp.exec, reserveGpus]
      split <;> rfl
    | saveAssignment | releaseGpuReservation => exact .kept rfl
    | _ => cases hsubject
  · have h := leaves_exec settings o s
    exact .kept (Fleet.record_congr (h.row d hsubject))

/-! ## What the methods use -/

namespace ControlPlaneService

variable {allowed : FleetOp → Prop} {protocol : Protocol}

section

variable (hlooks : ∀ o : FleetOp, o.looks = true → allowed o)

include hlooks

theorem isNodeStale_uses (node : NodeCapability) :
    (isNodeStale settings node).Uses allowed :=
  .op_bind (hlooks _ rfl) fun _ ↦ trivial

theorem isNodeInCooldown_uses (node : NodeId) (d : DeploymentId) :
    (isNodeInCooldown node d).Uses allowed :=
  .op_bind (hlooks _ rfl) fun _ ↦ .op_bind (hlooks _ rfl) fun _ ↦ trivial

theorem findNode_uses (node : NodeId) : (findNode node).Uses allowed :=
  .op_bind (hlooks _ rfl) fun _ ↦ trivial

theorem coolingDown_uses (node : NodeId) (d : Option DeploymentId) :
    (coolingDown node d).Uses allowed := by
  cases d with
  | none => trivial
  | some d => exact isNodeInCooldown_uses hlooks node d

theorem skipReasons_uses (miners : List (Hotkey × Bool)) (heartbeats : List (Hotkey × Heartbeat))
    (servers : List (ServerId × Server)) (now : Time) (d : Option DeploymentId)
    (node : NodeCapability) :
    (skipReasons settings miners heartbeats servers now d node).Uses allowed := by
  refine .bind (isNodeStale_uses hlooks node) fun stale ↦ ?_
  exact .bind (coolingDown_uses hlooks node.nodeId d) fun cooling ↦ trivial

omit hlooks in
theorem examineNodes_uses {ask : NodeCapability → Program ControlPlane (List SkipReason)}
    (hask : ∀ node, (ask node).Uses allowed) (nodes : List NodeCapability) :
    (examineNodes ask nodes).Uses allowed := by
  induction nodes with
  | nil => trivial
  | cons node nodes ih => exact .bind (hask node) fun _ ↦ .bind ih fun _ ↦ trivial

theorem schedulableNodes_uses (d : Option DeploymentId) :
    (schedulableNodes settings d).Uses allowed := by
  refine .op_bind (hlooks _ rfl) fun nodes ↦ ?_
  refine .op_bind (hlooks _ rfl) fun miners ↦ ?_
  refine .op_bind (hlooks _ rfl) fun heartbeats ↦ ?_
  refine .op_bind (hlooks _ rfl) fun servers ↦ ?_
  refine .op_bind (hlooks _ rfl) fun now ↦ ?_
  exact .bind (examineNodes_uses (skipReasons_uses hlooks _ _ _ _ _) _) fun _ ↦ trivial

theorem onlineGpuModels_uses : (onlineGpuModels settings).Uses allowed :=
  .bind (schedulableNodes_uses hlooks none) fun _ ↦ trivial

theorem activeAssignment_uses (d : DeploymentId) : (activeAssignment d).Uses allowed :=
  .op_bind (hlooks _ rfl) fun _ ↦ trivial

theorem stampReadyAt_uses (update : DeploymentStatusUpdate) (record : DeploymentRecord) :
    (stampReadyAt update record).Uses allowed := by
  unfold stampReadyAt
  split
  · exact .op_bind (hlooks _ rfl) fun _ ↦ trivial
  · trivial

theorem isPrivateModel_uses (record : DeploymentRecord) (workload : Option WorkloadSpec) :
    (isPrivateModel record workload).Uses allowed := by
  refine .bind (f := fun w ↦ _) ?_ fun _ ↦ trivial
  cases workload with
  | none => exact Program.uses_op.mpr (hlooks _ rfl)
  | some workload => trivial

theorem boxSilent_uses (record : DeploymentRecord) (now : Time) :
    (boxSilent settings record now).Uses allowed := by
  unfold boxSilent
  split
  · trivial
  · refine .op_bind (hlooks _ rfl) fun heartbeat ↦ ?_
    split
    · trivial
    · split
      · trivial
      · split
        · trivial
        · exact .bind (findNode_uses hlooks _) fun _ ↦ trivial

theorem timeOr_uses (now : Option Time) : (timeOr now).Uses allowed := by
  cases now with
  | none => exact Program.uses_op.mpr (hlooks _ rfl)
  | some t => trivial

theorem anyMinerReporting_uses (now : Time) : (anyMinerReporting settings now).Uses allowed :=
  .op_bind (hlooks _ rfl) fun _ ↦ trivial

theorem assignmentProblem_uses (lease : LeaseAssignment) (now : Time) :
    (assignmentProblem settings lease now).Uses allowed := by
  refine .op_bind (hlooks _ rfl) fun heartbeat ↦ ?_
  split
  · trivial
  · split
    · trivial
    · split
      · trivial
      · exact .bind (findNode_uses hlooks _) fun _ ↦ trivial

theorem silentDeployment_uses (record : Option DeploymentRecord) (silentFor : Option Time) :
    (silentDeployment settings record silentFor).Uses allowed := by
  unfold silentDeployment
  split
  · trivial
  · split
    · exact .op_bind (hlooks _ rfl) fun _ ↦ trivial
    · trivial

theorem isRental_uses (record : DeploymentRecord) : (isRental record).Uses allowed :=
  .op_bind (hlooks _ rfl) fun _ ↦ trivial

theorem adjustNodeCapacity_uses (hreports : ∀ o : FleetOp, o.reports = true → allowed o)
    (hotkey : Hotkey) (node : NodeId) (deltaGpus : ℤ) :
    (adjustNodeCapacity hotkey node deltaGpus).Uses allowed := by
  refine .op_bind (hlooks _ rfl) fun update ↦ ?_
  cases update with
  | none => trivial
  | some update => exact .op_bind (hreports _ rfl) fun _ ↦ trivial

theorem stampBillable_uses {d : DeploymentId}
    (hstamp : ∀ since, allowed (.setBillableSince d since)) (becameReady : Bool) :
    (stampBillable d becameReady).Uses allowed := by
  unfold stampBillable
  split
  · exact .op_bind (hlooks _ rfl) fun now ↦ .op_bind (hstamp now) fun _ ↦ trivial
  · trivial

theorem freeLease_uses {d : DeploymentId} (hreports : ∀ o : FleetOp, o.reports = true → allowed o)
    (hrelease : allowed (.releaseGpuReservation d)) (assignment : LeaseAssignment)
    (workload : Option WorkloadSpec) : (freeLease d assignment workload).Uses allowed := by
  refine .op_bind hrelease fun _ ↦ ?_
  cases workload with
  | none => trivial
  | some workload => exact adjustNodeCapacity_uses hlooks hreports _ _ _

theorem holdNode_uses {d : DeploymentId} (hreports : ∀ o : FleetOp, o.reports = true → allowed o)
    (hreserve : ∀ hotkey node count capacity, allowed (.reserveGpus d hotkey node count capacity))
    (nodes : List NodeCapability) (gpuCount : ℕ) (assignment : LeaseAssignment) :
    (holdNode nodes d gpuCount assignment).Uses allowed := by
  refine .op_bind (hreserve _ _ _ _) fun held ↦ ?_
  split
  · exact .bind (adjustNodeCapacity_uses hlooks hreports _ _ _) fun _ ↦ trivial
  · trivial

theorem assignLease_uses {d : DeploymentId} (hreports : ∀ o : FleetOp, o.reports = true → allowed o)
    (hreserve : ∀ hotkey node count capacity, allowed (.reserveGpus d hotkey node count capacity))
    (hlock : allowed .lockPlacement) (hunlock : allowed .unlockPlacement) (workload : WorkloadSpec) :
    (assignLease settings workload d).Uses allowed := by
  refine .bind (schedulableNodes_uses hlooks _) fun nodes ↦ .op_bind hlock fun _ ↦ ?_
  refine .op_bind (hlooks _ rfl) fun reserved ↦ .op_bind (hlooks _ rfl) fun now ↦ ?_
  split
  · exact .op_bind hunlock fun _ ↦ trivial
  · refine .bind (holdNode_uses hlooks hreports hreserve _ _ _) fun held ↦ ?_
    refine .op_bind hunlock fun _ ↦ ?_
    split
    · exact .op_bind (hlooks _ rfl) fun _ ↦ trivial
    · trivial

theorem endLease_uses {d : DeploymentId} (hreports : ∀ o : FleetOp, o.reports = true → allowed o)
    (hrelease : allowed (.releaseGpuReservation d))
    (hlease : ∀ status, allowed (.updateAssignmentStatus d status))
    (hplacement : ∀ status failed cooldown,
      allowed (.updatePlacementStatus d status failed cooldown))
    (record : DeploymentRecord) (assignment : LeaseAssignment) (placement : LeaseStatus)
    (incrementFailure : Bool) (cooldown : Time → Time) :
    (endLease d record assignment placement incrementFailure cooldown).Uses allowed := by
  refine .op_bind (hlooks _ rfl) fun workload ↦ ?_
  refine .bind (freeLease_uses hlooks hreports hrelease _ _) fun _ ↦ ?_
  refine .op_bind (hlease _) fun _ ↦ .op_bind (hlooks _ rfl) fun now ↦ ?_
  exact Program.uses_op.mpr (hplacement _ _ _)

end

theorem setLease_uses {d : DeploymentId}
    (hlease : ∀ status, allowed (.updateAssignmentStatus d status)) (status : Option LeaseStatus) :
    (setLease d status).Uses allowed := by
  cases status with
  | none => trivial
  | some status => exact .op_bind (hlease status) fun _ ↦ trivial

theorem releaseFor_uses {d : DeploymentId} (hrelease : allowed (.releaseGpuReservation d))
    (state : DeploymentState) : (releaseFor d state).Uses allowed := by
  unfold releaseFor
  split
  · exact .op_bind hrelease fun _ ↦ trivial
  · trivial

/-- A status update saves records in the reported state. -/
theorem updateDeploymentStatus_uses {d : DeploymentId} {update : DeploymentStatusUpdate}
    (hlooks : ∀ o : FleetOp, o.looks = true → allowed o) (hget : allowed (.getDeployment d))
    (hlease : ∀ status, allowed (.updateAssignmentStatus d status))
    (hrelease : allowed (.releaseGpuReservation d))
    (hsave : ∀ record, record.state = update.state → allowed (.updateDeployment d record))
    (hstamp : ∀ since, allowed (.setBillableSince d since)) :
    (updateDeploymentStatus d update).Uses allowed := by
  refine .op_bind hget fun record ↦ ?_
  cases record with
  | none => trivial
  | some record =>
    dsimp only
    split
    · trivial
    · split
      · trivial
      · next next hnext =>
        refine .bind (stampReadyAt_uses hlooks _ _) fun readyAt ↦ ?_
        refine .bind (setLease_uses hlease _) fun _ ↦ ?_
        refine .bind (releaseFor_uses hrelease _) fun _ ↦ ?_
        refine .op_bind (hsave _ (DeploymentState.transition_eq_some hnext)) fun _ ↦ ?_
        exact .bind (stampBillable_uses hlooks hstamp _) fun _ ↦ trivial

section

variable {d : DeploymentId} (hlooks : ∀ o : FleetOp, o.looks = true → allowed o)
  (hget : allowed (.getDeployment d)) (hlease : ∀ status, allowed (.updateAssignmentStatus d status))
  (hrelease : allowed (.releaseGpuReservation d))
  (hsave : ∀ record, record.state = .suspended → allowed (.updateDeployment d record))
  (hstamp : ∀ since, allowed (.setBillableSince d since))
  (haccrue : ∀ add, allowed (.accrueMetering d add))
  (hreturn : ∀ mcents, allowed (.returnMeteringMcents d mcents))
  (hdebit : ∀ u cents, 0 < cents →
    allowed (.debitUserToFloor u cents .usage (some (.deployment d))))

include hlooks hget hlease hrelease hsave hstamp haccrue hreturn hdebit

theorem charge_uses (owner : UserId) (addMcents : ℤ) : (charge d owner addMcents).Uses allowed := by
  refine .op_bind (haccrue _) fun accrued ↦ ?_
  obtain ⟨wholeCents, remainder⟩ := accrued
  dsimp only
  split
  · trivial
  · next hwhole =>
    refine .op_bind (hdebit _ _ (not_le.mp hwhole)) fun drain ↦ ?_
    cases drain with
    | error e => trivial
    | ok drain =>
      dsimp only
      split
      · refine .bind (.op_bind (hreturn _) fun _ ↦ ?_) fun _ ↦ trivial
        refine .op_bind (hlooks _ rfl) fun now ↦ ?_
        refine .bind ?_ fun _ ↦ trivial
        exact updateDeploymentStatus_uses hlooks hget hlease hrelease hsave hstamp
      · trivial

theorem meterDeployment_uses (cycle now : Time) (record : DeploymentRecord) :
    (meterDeployment settings cycle now d record).Uses allowed := by
  unfold meterDeployment
  split
  · trivial
  · refine .op_bind (hlooks _ rfl) fun workload ↦ ?_
    refine .bind (isPrivateModel_uses hlooks _ _) fun private_ ↦ ?_
    dsimp only
    split
    · trivial
    · refine .bind (boxSilent_uses hlooks _ _) fun silent ↦ ?_
      have hcharge := charge_uses hlooks hget hlease hrelease hsave hstamp haccrue hreturn hdebit
      split
      · trivial
      · refine .op_bind (hlooks _ rfl) fun since ↦ ?_
        cases since with
        | some since => exact hcharge _ _
        | none =>
          dsimp only
          split
          · exact .op_bind (hstamp _) fun _ ↦ trivial
          · exact hcharge _ _

end

/-! ## What the methods permit

The methods about one deployment use the same transactions, but for the meter's, and the requeue's
own, which puts the lease into its own status. -/

/-- The transactions of the methods about a deployment. -/
structure Permits (allowed : FleetOp → Prop) (d : DeploymentId) : Prop where
  looks : ∀ o : FleetOp, o.looks = true → allowed o
  reports : ∀ o : FleetOp, o.reports = true → allowed o
  lock : allowed .lockPlacement
  unlock : allowed .unlockPlacement
  read : allowed (.getDeployment d)
  create : ∀ record, allowed (.createDeployment d record)
  save : ∀ record, allowed (.updateDeployment d record)
  stamp : ∀ since, allowed (.setBillableSince d since)
  assign : ∀ lease, allowed (.saveAssignment d lease)
  lease : ∀ status, status ≠ .reassigned → allowed (.updateAssignmentStatus d status)
  placement : ∀ status failed cooldown, allowed (.updatePlacementStatus d status failed cooldown)
  reserve : ∀ hotkey node count capacity, allowed (.reserveGpus d hotkey node count capacity)
  release : allowed (.releaseGpuReservation d)

/-- No report gives a lease the requeue's status. -/
theorem leaseStatusFor_ne_reassigned (state : DeploymentState) :
    leaseStatusFor state ≠ some .reassigned := by
  cases state <;> exact fun h ↦ nomatch h

namespace Permits

variable {d : DeploymentId} (h : Permits allowed d)

include h

theorem setLease_uses {status : Option LeaseStatus} (hstatus : status ≠ some .reassigned) :
    (setLease d status).Uses allowed := by
  cases status with
  | none => trivial
  | some status => exact .op_bind (h.lease status fun heq ↦ hstatus (by rw [heq])) fun _ ↦ trivial

theorem updateDeploymentStatus_uses (update : DeploymentStatusUpdate) :
    (updateDeploymentStatus d update).Uses allowed := by
  refine .op_bind h.read fun record ↦ ?_
  cases record with
  | none => trivial
  | some record =>
    dsimp only
    split
    · trivial
    · split
      · trivial
      · refine .bind (stampReadyAt_uses h.looks _ _) fun readyAt ↦ ?_
        refine .bind (h.setLease_uses (leaseStatusFor_ne_reassigned _)) fun _ ↦ ?_
        refine .bind (releaseFor_uses h.release _) fun _ ↦ .op_bind (h.save _) fun _ ↦ ?_
        exact .bind (stampBillable_uses h.looks h.stamp _) fun _ ↦ trivial

theorem deploymentStatus_uses (hotkey : Hotkey) (update : DeploymentStatusUpdate) :
    (deploymentStatus d hotkey update).Uses allowed := by
  refine .op_bind h.read fun record ↦ ?_
  cases record with
  | none => trivial
  | some record =>
    dsimp only
    split
    · trivial
    · refine .bind (h.updateDeploymentStatus_uses _) fun outcome ↦ ?_
      split <;> trivial

theorem createDeployment_uses (request : DeploymentCreateRequest) :
    (createDeployment settings protocol d request).Uses allowed := by
  refine .op_bind (h.looks _ rfl) fun workload ↦ ?_
  cases workload with
  | none => trivial
  | some workload =>
    refine .bind (onlineGpuModels_uses h.looks) fun live ↦ ?_
    exact .op_bind (h.looks _ rfl) fun now ↦ .op_bind (h.create _) fun _ ↦ trivial

theorem updateDeployment_uses (request : DeploymentUpdateRequest) :
    (updateDeployment d request).Uses allowed := by
  refine .op_bind h.read fun record ↦ ?_
  cases record with
  | none => trivial
  | some record =>
    refine .op_bind (h.looks _ rfl) fun workload ↦ ?_
    cases workload with
    | none => trivial
    | some workload => exact .op_bind (h.looks _ rfl) fun now ↦ .op_bind (h.save _) fun _ ↦ trivial

theorem recordDeploymentHealthFailure_uses (error : Text) :
    (recordDeploymentHealthFailure settings d error).Uses allowed := by
  refine .op_bind h.read fun record ↦ ?_
  cases record with
  | none => trivial
  | some record =>
    refine .op_bind (h.looks _ rfl) fun now ↦ .op_bind (h.save _) fun _ ↦ ?_
    split
    · exact h.updateDeploymentStatus_uses _
    · trivial

theorem clearDeploymentHealthFailures_uses :
    (clearDeploymentHealthFailures d).Uses allowed := by
  refine .op_bind h.read fun record ↦ ?_
  cases record with
  | none => trivial
  | some record =>
    dsimp only
    split
    · trivial
    · exact .op_bind (h.looks _ rfl) fun now ↦ .op_bind (h.save _) fun _ ↦ trivial

/-! ### Placement -/

theorem assignLease_uses (workload : WorkloadSpec) :
    (assignLease settings workload d).Uses allowed :=
  ControlPlaneService.assignLease_uses h.looks h.reports h.reserve h.lock h.unlock workload

theorem notPlaced_uses (record : DeploymentRecord) (attempts : ℕ) :
    (notPlaced settings d record attempts).Uses allowed := by
  refine .op_bind (h.looks _ rfl) fun now ↦ .op_bind (h.save _) fun _ ↦ ?_
  split
  · refine .op_bind (h.looks _ rfl) fun now ↦ .op_bind (h.save _) fun _ ↦ ?_
    exact .bind (h.updateDeploymentStatus_uses _) fun _ ↦ trivial
  · trivial

theorem processDeploymentRequest_uses (attempts : ℕ) :
    (processDeploymentRequest settings protocol d attempts).Uses allowed := by
  refine .op_bind h.read fun record ↦ ?_
  cases record with
  | none => trivial
  | some record =>
    dsimp only
    split
    · trivial
    · refine .op_bind (h.looks _ rfl) fun workload ↦ ?_
      cases workload with
      | none => trivial
      | some workload =>
        refine .bind (h.assignLease_uses workload) fun assignment ↦ ?_
        cases assignment with
        | none => exact .bind (h.notPlaced_uses record attempts) fun _ ↦ trivial
        | some assignment =>
          refine .bind (.op_bind (h.looks _ rfl) fun nodes ↦ ?_) fun _ ↦ trivial
          refine .op_bind (h.looks _ rfl) fun now ↦ .op_bind (h.assign _) fun _ ↦ ?_
          exact .op_bind (h.save _) fun _ ↦ trivial

/-! ### Operators -/

theorem endLease_uses (record : DeploymentRecord) (assignment : LeaseAssignment)
    (placement : LeaseStatus) (incrementFailure : Bool) (cooldown : Time → Time) :
    (endLease d record assignment placement incrementFailure cooldown).Uses allowed := by
  refine .op_bind (h.looks _ rfl) fun workload ↦ ?_
  refine .bind (freeLease_uses h.looks h.reports h.release _ _) fun _ ↦ ?_
  refine .bind (h.setLease_uses nofun) fun _ ↦ .op_bind (h.looks _ rfl) fun now ↦ ?_
  exact Program.uses_op.mpr (h.placement _ _ _)

theorem requeueAssignment_uses (hmoves : allowed (.updateAssignmentStatus d .reassigned))
    (assignment : LeaseAssignment) (reason : Text) (observedAt : Time) :
    (requeueAssignment settings d assignment reason observedAt).Uses allowed := by
  refine .op_bind h.read fun record ↦ ?_
  cases record with
  | none => trivial
  | some record =>
    dsimp only
    split
    · trivial
    · refine .op_bind (h.looks _ rfl) fun workload ↦ ?_
      cases workload with
      | none => trivial
      | some workload =>
        refine .bind (freeLease_uses h.looks h.reports h.release _ _) fun _ ↦ ?_
        refine .bind (.op_bind hmoves fun _ ↦ trivial) fun _ ↦ ?_
        exact .op_bind (h.placement _ _ _) fun _ ↦ .op_bind (h.save _) fun _ ↦ trivial

theorem requeueUnassigned_uses (record : DeploymentRecord) :
    (requeueUnassigned d record).Uses allowed :=
  .op_bind (h.looks _ rfl) fun _ ↦ .op_bind (h.save _) fun _ ↦ trivial

theorem requeueDeployment_uses (hmoves : allowed (.updateAssignmentStatus d .reassigned)) :
    (requeueDeployment settings d).Uses allowed := by
  refine .op_bind h.read fun record ↦ ?_
  cases record with
  | none => trivial
  | some record =>
    refine .bind (activeAssignment_uses h.looks d) fun assignment ↦ ?_
    cases assignment with
    | none => exact .bind (h.requeueUnassigned_uses record) fun _ ↦ trivial
    | some assignment =>
      refine .op_bind (h.looks _ rfl) fun now ↦ ?_
      refine .bind (h.requeueAssignment_uses hmoves assignment _ _) fun requeued ↦ ?_
      cases requeued with
      | none => exact .bind (h.requeueUnassigned_uses record) fun _ ↦ trivial
      | some requeued => trivial

theorem resumeDeployment_uses : (resumeDeployment d).Uses allowed := by
  refine .op_bind h.read fun record ↦ ?_
  cases record with
  | none => trivial
  | some record =>
    dsimp only
    split
    · trivial
    · split
      · refine .op_bind (h.looks _ rfl) fun workload ↦ ?_
        cases workload with
        | none => trivial
        | some workload =>
          refine .bind (findNode_uses h.looks _) fun node ↦ ?_
          cases node with
          | none => trivial
          | some node =>
            refine .op_bind (h.looks _ rfl) fun reserved ↦ ?_
            split
            · trivial
            · refine .op_bind (h.reserve _ _ _ _) fun _ ↦ ?_
              refine .bind (adjustNodeCapacity_uses h.looks h.reports _ _ _) fun _ ↦ ?_
              refine .bind (h.setLease_uses nofun) fun _ ↦ ?_
              exact .op_bind (h.looks _ rfl) fun now ↦ .op_bind (h.save _) fun _ ↦ trivial
      · trivial

theorem failAssignment_uses (record : DeploymentRecord) (assignment : Option LeaseAssignment) :
    (failAssignment settings d record assignment).Uses allowed := by
  cases assignment with
  | none => trivial
  | some assignment => exact h.endLease_uses _ _ _ _ _

theorem failDeployment_uses : (failDeployment settings d).Uses allowed := by
  refine .op_bind h.read fun record ↦ ?_
  cases record with
  | none => trivial
  | some record =>
    refine .bind (activeAssignment_uses h.looks d) fun assignment ↦ ?_
    refine .bind (h.failAssignment_uses record assignment) fun _ ↦ ?_
    exact .op_bind (h.looks _ rfl) fun now ↦ h.updateDeploymentStatus_uses _

theorem cleanupAssignment_uses (record : DeploymentRecord) (assignment : Option LeaseAssignment) :
    (cleanupAssignment d record assignment).Uses allowed := by
  cases assignment with
  | none => exact h.setLease_uses (by split <;> nofun)
  | some assignment => exact h.endLease_uses _ _ _ _ _

theorem cleanupDeployment_uses (reason : Text) : (cleanupDeployment d reason).Uses allowed := by
  refine .op_bind h.read fun record ↦ ?_
  cases record with
  | none => trivial
  | some record =>
    refine .bind (activeAssignment_uses h.looks d) fun assignment ↦ ?_
    refine .bind (h.cleanupAssignment_uses record assignment) fun _ ↦ ?_
    exact .op_bind (h.looks _ rfl) fun now ↦ .op_bind (h.save _) fun _ ↦ trivial

/-! ### Passes of the sweeps -/

theorem expire_uses (observedAt : Time) (lease : LeaseAssignment) :
    (expire observedAt d lease).Uses allowed := by
  unfold expire
  split
  · trivial
  · refine .op_bind h.read fun record ↦ ?_
    cases record with
    | none => trivial
    | some record =>
      dsimp only
      split
      · trivial
      · exact .bind (h.updateDeploymentStatus_uses _) fun _ ↦ trivial

theorem reassign_uses (hmoves : allowed (.updateAssignmentStatus d .reassigned))
    (observedAt : Time) (lease : LeaseAssignment) :
    (reassign settings observedAt d lease).Uses allowed := by
  refine .bind (assignmentProblem_uses h.looks lease observedAt) fun problem ↦ ?_
  cases problem with
  | none => trivial
  | some problem =>
    refine .op_bind h.read fun record ↦ ?_
    refine .bind (silentDeployment_uses h.looks _ _) fun silent ↦ ?_
    cases silent with
    | ended silentFor =>
      refine .bind (.op_bind (h.looks _ rfl) fun now ↦ ?_) fun _ ↦ trivial
      exact .bind (h.updateDeploymentStatus_uses _) fun _ ↦ trivial
    | kept => trivial
    | moved => exact h.requeueAssignment_uses hmoves lease _ observedAt

theorem suspendIdle_uses (observedAt : Time) (lastInvocation : Option Time)
    (record : DeploymentRecord) :
    (suspendIdle settings observedAt lastInvocation d record).Uses allowed := by
  refine .op_bind (h.looks _ rfl) fun workload ↦ ?_
  split
  · split
    · trivial
    · refine .op_bind (h.looks _ rfl) fun now ↦ ?_
      exact .bind (h.updateDeploymentStatus_uses _) fun _ ↦ trivial
  · trivial

theorem reap_uses (observedAt : Time) (record : DeploymentRecord) :
    (reap settings observedAt d record).Uses allowed := by
  unfold reap
  split
  · trivial
  · refine .bind (isRental_uses h.looks _) fun rental ↦ ?_
    split
    · trivial
    · split
      · trivial
      · refine .op_bind (h.looks _ rfl) fun now ↦ ?_
        exact .bind (h.updateDeploymentStatus_uses _) fun _ ↦ trivial

end Permits

end ControlPlaneService

end GreenCompute
