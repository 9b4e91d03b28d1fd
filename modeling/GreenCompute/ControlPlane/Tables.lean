import GreenCompute.Billing.Tables

/-!
# The control plane's tables

Deployments and what they run on: the states a deployment goes through, the rows the control plane
keeps about deployments, workloads, leases, GPU reservations and machines, and the database they
make up together with the billing tables.

Times are Unix seconds, rates are whole cents, and the scores and prices that the source keeps in
floating point are exact rationals. Columns that the modelled code only carries along (who created
a deployment, its runtime cap) are left out.
-/

namespace GreenCompute

abbrev WorkloadId := Text
abbrev Hotkey := ℕ
abbrev NodeId := ℕ
abbrev PlacementId := ℕ

/-! ## States -/

/-- `DeploymentState` -/
inductive DeploymentState where
  | pending
  | scheduled
  | pulling
  | starting
  | ready
  | draining
  | suspended
  | failed
  | terminated
  deriving DecidableEq

namespace DeploymentState

/-- `ALLOWED_TRANSITIONS` -/
def allowedTransitions : DeploymentState → List DeploymentState
  | pending => [scheduled, failed, terminated]
  | scheduled => [pulling, starting, ready, failed, terminated]
  | pulling => [starting, ready, failed, terminated]
  | starting => [ready, failed, terminated]
  | ready => [draining, suspended, failed, terminated]
  | draining => [terminated, failed]
  | suspended => [pulling, starting, ready, terminated]
  | failed => [pending, terminated]
  | terminated => []

/-- `transition_state`: the new state, or none for an `InvalidDeploymentTransition`. -/
def transition (current desired : DeploymentState) : Option DeploymentState :=
  if desired = current then some current
  else if desired ∈ current.allowedTransitions then some desired
  else none

theorem transition_eq_some {current desired next : DeploymentState}
    (h : transition current desired = some next) : next = desired := by
  unfold transition at h
  split at h
  · next heq => rw [← Option.some.inj h, heq]
  · split at h
    · exact (Option.some.inj h).symm
    · cases h

/-- The states in which the deployment may be running on its machine. -/
def Running (s : DeploymentState) : Prop :=
  s = scheduled ∨ s = pulling ∨ s = starting ∨ s = ready ∨ s = draining

instance (s : DeploymentState) : Decidable s.Running := inferInstanceAs (Decidable (_ ∨ _))

end DeploymentState

/-! ## Workloads -/

/-- `WorkloadKind` -/
inductive WorkloadKind where
  | inference
  | pod
  | vm
  deriving DecidableEq

/-- The text of a kind. -/
def WorkloadKind.value : WorkloadKind → Text
  | inference => "inference".toList
  | pod => "pod".toList
  | vm => "vm".toList

/-- What a workload needs of a machine. -/
structure Requirements where
  gpuCount : ℕ
  minVramGbPerGpu : ℕ
  cpuCores : ℕ
  memoryGb : ℕ
  supportedGpuModels : List Text

/-- A row of `workloads`. -/
structure WorkloadSpec where
  workloadId : WorkloadId
  kind : WorkloadKind
  requirements : Requirements
  metadata : Metadata

/-- The columns of a row of `workloads` that scheduling and metering do not read. -/
structure WorkloadColumns where
  ownerUserId : Option UserId
  name : Text
  image : Text
  displayName : Option Text
  readme : Option Text
  logoUri : Option Text
  tags : List Text
  workloadAlias : Option Text
  ingressHost : Option Text
  securityTier : Text
  pricingClass : Text
  runtime : Metadata
  lifecycle : Metadata
  isPublic : Bool
  createdAt : Time

/-! ## Deployments -/

inductive WarmupState where
  | pending
  | warming
  | ready
  | stopped
  deriving DecidableEq

/-- The columns of a deployment that are read and written as one record. -/
structure DeploymentRecord where
  workloadId : WorkloadId
  name : Option Text
  ownerUserId : Option UserId
  hotkey : Option Hotkey
  nodeId : Option NodeId
  state : DeploymentState
  requestedInstances : ℕ
  readyInstances : ℤ
  endpoint : Option Text
  sshPrivateKey : Option Text
  portMappings : List (ℕ × ℕ)
  sshHostKeys : List Text
  hourlyRateCents : ℕ
  saveOnExhaustion : Bool
  resumeOnTopup : Bool
  suspendedReason : Option Text
  readyAt : Option Time
  suspendedAt : Option Time
  deploymentFeeUsd : ℚ
  feeAcknowledged : Bool
  warmupState : WarmupState
  lastError : Option Text
  failureClass : Option Text
  lastRetryReason : Option Text
  retryCount : ℕ
  retryExhausted : Bool
  healthCheckFailures : ℕ
  updatedAt : Time

/-- A row of `deployments`: the record, and the meter's own columns. -/
structure DeploymentRow where
  record : DeploymentRecord
  meteringRemainderMcents : ℤ
  billableSince : Option Time

/-! ## Leases, placements and reservations -/

inductive LeaseStatus where
  | assigned
  | activating
  | active
  | suspended
  | failed
  | terminated
  | reassigned
  deriving DecidableEq

/-- A row of `lease_assignments`; there is one for each deployment that was ever placed. -/
structure LeaseAssignment where
  workloadId : WorkloadId
  hotkey : Hotkey
  nodeId : NodeId
  assignedAt : Time
  expiresAt : Option Time
  status : LeaseStatus

/-- A row of `placements`. -/
structure Placement where
  deploymentId : DeploymentId
  hotkey : Hotkey
  nodeId : NodeId
  status : LeaseStatus
  failureCount : ℕ
  cooldownUntil : Option Time
  createdAt : Time
  updatedAt : Time

inductive ReservationStatus where
  | active
  | released
  deriving DecidableEq

/-- A row of `gpu_reservations`; there is at most one for each deployment. -/
structure GpuReservation where
  hotkey : Hotkey
  nodeId : NodeId
  gpuCount : ℕ
  status : ReservationStatus
  deriving DecidableEq

/-! ## Machines -/

/-- A server's identifier: the one it reports, or the default for its miner. -/
inductive ServerId where
  | named (id : ℕ)
  | ofHotkey (hotkey : Hotkey)
  deriving DecidableEq

/-- `NodeCapability`: what a machine says of itself. -/
structure NodeCapability where
  nodeId : NodeId
  hotkey : Hotkey
  serverId : Option ServerId
  gpuModel : Text
  gpuCount : ℕ
  availableGpus : ℤ
  vramGbPerGpu : ℕ
  cpuCores : ℕ
  memoryGb : ℕ
  labels : List (Text × Text)
  hourlyCostUsd : ℚ
  healthScore : ℚ
  reliabilityScore : ℚ
  performanceScore : ℚ
  observedAt : Option Time

/-- A row of `node_inventory`. -/
structure NodeInventory where
  payload : NodeCapability
  observedAt : Time

/-- A row of `capacities`: the nodes of a miner. -/
structure Capacity where
  nodes : List NodeCapability
  observedAt : Time

/-- A capacity report, and what `get_capacity` answers. -/
structure CapacityUpdate where
  hotkey : Hotkey
  nodes : List NodeCapability
  observedAt : Time

/-- A row of `heartbeats`. -/
structure Heartbeat where
  healthy : Bool
  observedAt : Option Time

/-- A row of `servers`. -/
structure Server where
  hotkey : Hotkey
  observedAt : Time

/-! ## The database -/

/-- The control plane's tables, beside the billing tables, and the placement lock of the one
process that schedules. -/
structure Fleet where
  workloads : Table WorkloadId WorkloadSpec
  deployments : Table DeploymentId DeploymentRow
  leases : Table DeploymentId LeaseAssignment
  placements : Table PlacementId Placement
  reservations : Table DeploymentId GpuReservation
  drained : Table Hotkey Bool
  heartbeats : Table Hotkey Heartbeat
  capacities : Table Hotkey Capacity
  nodeInventory : Table NodeId NodeInventory
  servers : Table ServerId Server
  placementLock : Bool
  billing : Db

namespace Fleet

/-- A database with nothing in it. -/
def empty : Fleet where
  workloads := .empty
  deployments := .empty
  leases := .empty
  placements := .empty
  reservations := .empty
  drained := .empty
  heartbeats := .empty
  capacities := .empty
  nodeInventory := .empty
  servers := .empty
  placementLock := false
  billing := .empty

/-- A deployment's record. -/
def record (s : Fleet) (d : DeploymentId) : Option DeploymentRecord :=
  (s.deployments.get? d).map DeploymentRow.record

/-- A deployment's state. -/
def state (s : Fleet) (d : DeploymentId) : Option DeploymentState :=
  (s.record d).map DeploymentRecord.state

/-- A deployment's reservation, if it holds one now. -/
def hold (s : Fleet) (d : DeploymentId) : Option GpuReservation :=
  (s.reservations.get? d).filter fun r ↦ r.status = .active

/-- The GPUs held on a node by the deployments that meet a condition. -/
def heldGpus (s : Fleet) (node : NodeId) (p : DeploymentId → Bool) : ℕ :=
  s.reservations.total fun d r ↦
    if r.status = .active ∧ r.nodeId = node ∧ p d = true then r.gpuCount else 0

/-- The GPUs held on a node. -/
def reservedGpus (s : Fleet) (node : NodeId) : ℕ := s.heldGpus node fun _ ↦ true

/-- The clock. -/
def now (s : Fleet) : Time := s.billing.now

end Fleet

end GreenCompute
