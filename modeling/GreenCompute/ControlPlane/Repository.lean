import GreenCompute.Billing.Ledger
import GreenCompute.ControlPlane.Tables

/-!
# The control plane's repository

One definition for each repository method: one transaction, as the new database and the method's
result. `update_deployment` writes the whole record it is handed, whatever the row says by then;
the meter's columns are written by the metering methods alone.
-/

namespace GreenCompute

/-- The configured limits, with the defaults of the source. -/
structure Settings where
  defaultLeaseTtlSeconds : Time := 3600
  minerHeartbeatTimeoutSeconds : Time := 120
  nodeInventoryTimeoutSeconds : Time := 900
  serverObservedTimeoutSeconds : Time := 300
  podOfflineEndAfterSeconds : Time := 86400
  inferenceRequeueAfterSeconds : Time := 900
  deploymentRequestRetryLimit : ℕ := 10
  deploymentReassignRetryLimit : ℕ := 10
  deploymentHealthFailureThreshold : ℕ := 3
  placementFailureCooldownSeconds : Time := 120
  idlePrivateEndpointTimeoutSeconds : ℕ := 1800
  podExhaustionReaperEnabled : Bool := false
  podUnsavedGraceMinutes : ℕ := 15
  podSavedRetentionDays : ℕ := 30

namespace ControlPlaneRepository

/-! ## Capacity -/

/-- `_normalize_node` -/
def normalizeNode (hotkey : Hotkey) (observedAt : Time) (node : NodeCapability) :
    NodeCapability :=
  { node with
    hotkey := hotkey
    serverId := some (node.serverId.getD (.ofHotkey hotkey))
    observedAt := some observedAt }

/-- The nodes of a miner that a report does not mention and that are not too old to keep. -/
def preservedNodes (settings : Settings) (observedAt : Time) (incoming existing :
    List NodeCapability) : List NodeCapability :=
  existing.filter fun prev ↦
    prev.nodeId ∉ incoming.map NodeCapability.nodeId ∧
      ∀ seen ∈ prev.observedAt, observedAt - settings.nodeInventoryTimeoutSeconds ≤ seen

/-- Put one reported node into the inventory, and note its server. -/
def recordNode (hotkey : Hotkey) (observedAt : Time) (s : Fleet) (node : NodeCapability) : Fleet :=
  { s with
    servers := s.servers.insert (node.serverId.getD (.ofHotkey hotkey)) ⟨hotkey, observedAt⟩
    nodeInventory := s.nodeInventory.insert node.nodeId ⟨node, observedAt⟩ }

/-- `upsert_capacity`: merge a report into the miner's nodes. -/
def upsertCapacity (settings : Settings) (update : CapacityUpdate) (s : Fleet) : Fleet :=
  let incoming := update.nodes.map (normalizeNode update.hotkey update.observedAt)
  let existing := ((s.capacities.get? update.hotkey).map Capacity.nodes).getD []
  let nodes := preservedNodes settings update.observedAt incoming existing ++ incoming
  incoming.foldl (recordNode update.hotkey update.observedAt)
    { s with capacities := s.capacities.insert update.hotkey ⟨nodes, update.observedAt⟩ }

/-- `get_capacity` -/
def getCapacity (hotkey : Hotkey) (s : Fleet) : Option CapacityUpdate :=
  (s.capacities.get? hotkey).map fun row ↦ ⟨hotkey, row.nodes, row.observedAt⟩

/-- `list_nodes`: the inventory, the node seen last first. -/
def listNodes (s : Fleet) : List NodeCapability :=
  ((s.nodeInventory.rows.map Prod.snd).insertionSort fun a b ↦ b.observedAt ≤ a.observedAt).map
    NodeInventory.payload

/-- `list_servers` -/
def listServers (s : Fleet) : List (ServerId × Server) := s.servers.rows

/-! ## GPU reservations -/

/-- `reserve_gpus`: with a capacity, refused when the other deployments' holds on the node leave
too little of it. -/
def reserveGpus (d : DeploymentId) (hotkey : Hotkey) (node : NodeId) (gpuCount : ℕ)
    (capacityGpus : Option ℕ) (s : Fleet) : Fleet × Bool :=
  if capacityGpus.any fun capacity ↦ capacity < s.heldGpus node (· ≠ d) + gpuCount then (s, false)
  else
    ({ s with reservations := s.reservations.insert d ⟨hotkey, node, gpuCount, .active⟩ }, true)

/-- `release_gpu_reservation` -/
def releaseGpuReservation (d : DeploymentId) (s : Fleet) : Fleet × Bool :=
  ({ s with reservations := s.reservations.modify d fun r ↦ { r with status := .released } },
    (s.hold d).isSome)

/-- A hold whose deployment is gone or finished. -/
def orphaned (s : Fleet) (d : DeploymentId) (r : GpuReservation) : Bool :=
  r.status = .active ∧
    (s.state d = none ∨ s.state d = some .terminated ∨ s.state d = some .failed)

/-- `release_orphaned_reservations` -/
def releaseOrphanedReservations (s : Fleet) : Fleet × ℕ :=
  ({ s with
      reservations := s.reservations.map fun d r ↦
        if orphaned s d r then { r with status := .released } else r },
    (s.reservations.select (orphaned s)).length)

/-- `reserved_gpus_by_node` -/
def reservedGpusByNode (s : Fleet) : NodeId → ℕ := s.reservedGpus

/-! ## Deployments -/

/-- `create_deployment`: false for an identifier in use. -/
def createDeployment (d : DeploymentId) (record : DeploymentRecord) (s : Fleet) : Fleet × Bool :=
  if (s.deployments.get? d).isSome then (s, false)
  else ({ s with deployments := s.deployments.insert d ⟨record, 0, none⟩ }, true)

/-- `get_deployment` -/
def getDeployment (d : DeploymentId) (s : Fleet) : Option DeploymentRecord := s.record d

/-- The row after a record is saved over it: every column of the record but `workload_id`. A
missing row is created. -/
def savedRow (record : DeploymentRecord) : Option DeploymentRow → DeploymentRow
  | none => ⟨record, 0, none⟩
  | some row => { row with record := { record with workloadId := row.record.workloadId } }

@[simp] theorem savedRow_state (record : DeploymentRecord) (row : Option DeploymentRow) :
    (savedRow record row).record.state = record.state := by
  cases row <;> rfl

/-- `update_deployment` -/
def updateDeployment (d : DeploymentId) (record : DeploymentRecord) (s : Fleet) : Fleet :=
  { s with deployments := s.deployments.insert d (savedRow record (s.deployments.get? d)) }

/-- `list_deployments_by_state` -/
def listDeploymentsByState (state : DeploymentState) (s : Fleet) :
    List (DeploymentId × DeploymentRecord) :=
  (s.deployments.select fun _ row ↦ row.record.state = state).map fun r ↦ (r.1, r.2.record)

/-! ## Metering -/

/-- `accrue_metering`: add to the accumulator, and take its whole cents off. -/
def accrueMetering (d : DeploymentId) (addMcents : ℤ) (s : Fleet) : Fleet × ℤ × ℤ :=
  match s.deployments.get? d with
  | none => (s, 0, 0)
  | some row =>
    let total := row.meteringRemainderMcents + addMcents
    let wholeCents := total / 1000
    let remainder := total - wholeCents * 1000
    ({ s with deployments := s.deployments.insert d { row with
        meteringRemainderMcents := remainder } },
      wholeCents, remainder)

/-- `return_metering_mcents`: carry what was not debited back onto the accumulator. -/
def returnMeteringMcents (d : DeploymentId) (mcents : ℤ) (s : Fleet) : Fleet × ℤ :=
  match s.deployments.get? d with
  | none => (s, 0)
  | some row =>
    if mcents ≤ 0 then (s, row.meteringRemainderMcents)
    else
      ({ s with deployments := s.deployments.insert d { row with
          meteringRemainderMcents := row.meteringRemainderMcents + mcents } },
        row.meteringRemainderMcents + mcents)

/-- `get_billable_since` -/
def getBillableSince (d : DeploymentId) (s : Fleet) : Option Time :=
  (s.deployments.get? d).bind DeploymentRow.billableSince

/-- `set_billable_since` -/
def setBillableSince (d : DeploymentId) (at_ : Time) (s : Fleet) : Fleet :=
  { s with deployments := s.deployments.modify d fun row ↦ { row with billableSince := some at_ } }

/-! ## Leases and placements -/

/-- `save_assignment`: the deployment's lease, and a new placement. -/
def saveAssignment (d : DeploymentId) (lease : LeaseAssignment) (s : Fleet) : Fleet :=
  { s with
    leases := s.leases.insert d lease
    placements := s.placements.insert s.placements.rows.length
      { deploymentId := d
        hotkey := lease.hotkey
        nodeId := lease.nodeId
        status := lease.status
        failureCount := 0
        cooldownUntil := none
        createdAt := lease.assignedAt
        updatedAt := lease.assignedAt } }

/-- `list_assignments` -/
def listAssignments (statuses : List LeaseStatus) (s : Fleet) :
    List (DeploymentId × LeaseAssignment) :=
  s.leases.select fun _ lease ↦ lease.status ∈ statuses

/-- The deployment's placement that was created last. -/
def latestPlacement (d : DeploymentId) (s : Fleet) : Option (PlacementId × Placement) :=
  ((s.placements.select fun _ p ↦ p.deploymentId = d).insertionSort
    fun a b ↦ b.2.createdAt ≤ a.2.createdAt).head?

/-- Rewrite the deployment's placement that was created last, if it has one. -/
def modifyLatestPlacement (d : DeploymentId) (f : Placement → Placement) (s : Fleet) : Fleet :=
  match latestPlacement d s with
  | none => s
  | some (id, placement) => { s with placements := s.placements.insert id (f placement) }

/-- `update_assignment_status`: on the lease and on the latest placement. -/
def updateAssignmentStatus (d : DeploymentId) (status : LeaseStatus) (s : Fleet) :
    Fleet × Option LeaseAssignment :=
  match s.leases.get? d with
  | none => (s, none)
  | some lease =>
    let s' := modifyLatestPlacement d (fun p ↦ { p with status := status, updatedAt := s.now }) s
    ({ s' with leases := s'.leases.insert d { lease with status := status } },
      some { lease with status := status })

/-- `update_placement_status` -/
def updatePlacementStatus (d : DeploymentId) (status : LeaseStatus) (incrementFailure : Bool)
    (cooldownUntil : Option Time) (s : Fleet) : Fleet :=
  modifyLatestPlacement d
    (fun p ↦
      { p with
        status := status
        failureCount := if incrementFailure then p.failureCount + 1 else p.failureCount
        cooldownUntil := if cooldownUntil.isSome then cooldownUntil else p.cooldownUntil
        updatedAt := s.now })
    s

/-- `list_placements`: the placements changed last first. -/
def listPlacements (limit : ℕ) (s : Fleet) : List Placement :=
  ((s.placements.rows.map Prod.snd).insertionSort fun a b ↦
    b.updatedAt < a.updatedAt ∨ b.updatedAt = a.updatedAt ∧ b.createdAt ≤ a.createdAt).take limit

end ControlPlaneRepository

end GreenCompute
