import GreenCompute.ControlPlane.Repository
import GreenCompute.ControlPlane.Scheduler
import GreenCompute.Foundations.Interleaving
import GreenCompute.Foundations.Rounding

/-!
# The control plane's service

The methods that move a deployment through its states, place it, meter it and free it, as programs
over the repository's transactions. Most of them read a deployment's record in one transaction and
save the whole record in another.

What is only sent (bus events, metrics, log lines, notifications) is left out. The rates of
`greencompute_protocol` are a parameter: the control plane reads them and nothing else of it.
-/

namespace GreenCompute

open ControlPlaneRepository

/-- What the control plane uses of the protocol package: the rate of a GPU model per hour, the top
rate of its table, and the memory that a model is known to have. -/
structure Protocol where
  rateForGpu : Option Text → ℕ
  topRateCents : ℕ
  canonicalVramGb : Text → ℕ → Option ℕ
  rateForGpu_pos : ∀ model, 0 < rateForGpu model
  topRateCents_pos : 0 < topRateCents

/-- The rates that the service's comments quote: 40 cents for a 4090, 70 for a 5090, and the
legacy 10 for a card they do not name. -/
def quotedRates : Protocol where
  rateForGpu model :=
    match model.map normalizeGpuModel with
    | none => 10
    | some m => if m = "rtx4090".toList then 40 else if m = "rtx5090".toList then 70 else 10
  topRateCents := 70
  canonicalVramGb model _ :=
    if normalizeGpuModel model = "rtx4090".toList then some 24 else none
  rateForGpu_pos model := by
    split
    · decide
    · split_ifs <;> decide
  topRateCents_pos := by decide

/-! ## The interface to the database -/

/-- The transactions the service makes and the locks it takes. The last four constructors are the
surroundings: machines report, staff drain miners, money moves and time passes. -/
inductive FleetOp where
  | now
  | getWorkload (w : WorkloadId)
  | createDeployment (d : DeploymentId) (record : DeploymentRecord)
  | getDeployment (d : DeploymentId)
  | updateDeployment (d : DeploymentId) (record : DeploymentRecord)
  | listDeploymentsByState (state : DeploymentState)
  | accrueMetering (d : DeploymentId) (addMcents : ℤ)
  | returnMeteringMcents (d : DeploymentId) (mcents : ℤ)
  | getBillableSince (d : DeploymentId)
  | setBillableSince (d : DeploymentId) (since : Time)
  | saveAssignment (d : DeploymentId) (lease : LeaseAssignment)
  | listAssignments (statuses : List LeaseStatus)
  | updateAssignmentStatus (d : DeploymentId) (status : LeaseStatus)
  | updatePlacementStatus (d : DeploymentId) (status : LeaseStatus) (incrementFailure : Bool)
      (cooldownUntil : Option Time)
  | listNodes
  | listMiners
  | listHeartbeats
  | getHeartbeat (hotkey : Hotkey)
  | listServers
  | listPlacements (limit : ℕ)
  | reservedGpusByNode
  | reserveGpus (d : DeploymentId) (hotkey : Hotkey) (node : NodeId) (gpuCount : ℕ)
      (capacityGpus : Option ℕ)
  | releaseGpuReservation (d : DeploymentId)
  | releaseOrphanedReservations
  | getCapacity (hotkey : Hotkey)
  | upsertCapacity (update : CapacityUpdate)
  | debitUserToFloor (u : UserId) (amountCents : ℤ) (kind : LedgerKind)
      (reference : Option Reference)
  | lockPlacement
  | unlockPlacement
  | upsertHeartbeat (hotkey : Hotkey) (heartbeat : Heartbeat)
  | setMinerDrained (hotkey : Hotkey) (drained : Bool)
  | money (op : MoneyOp)
  | advance (seconds : Time)

/-- What each transaction answers. -/
abbrev FleetOp.Ans : FleetOp → Type
  | now => Time
  | getWorkload _ => Option WorkloadSpec
  | createDeployment .. => Bool
  | getDeployment _ => Option DeploymentRecord
  | listDeploymentsByState _ => List (DeploymentId × DeploymentRecord)
  | accrueMetering .. => ℤ × ℤ
  | returnMeteringMcents .. => ℤ
  | getBillableSince _ => Option Time
  | listAssignments _ => List (DeploymentId × LeaseAssignment)
  | updateAssignmentStatus .. => Option LeaseAssignment
  | listNodes => List NodeCapability
  | listMiners => List (Hotkey × Bool)
  | listHeartbeats => List (Hotkey × Heartbeat)
  | getHeartbeat _ => Option Heartbeat
  | listServers => List (ServerId × Server)
  | listPlacements _ => List Placement
  | reservedGpusByNode => NodeId → ℕ
  | reserveGpus .. | releaseGpuReservation _ => Bool
  | releaseOrphanedReservations => ℕ
  | getCapacity _ => Option CapacityUpdate
  | debitUserToFloor .. => Except BillingError BillingRepository.FloorDebit
  | updateDeployment .. | setBillableSince .. | saveAssignment .. | updatePlacementStatus ..
  | upsertCapacity _ | lockPlacement | unlockPlacement | upsertHeartbeat .. | setMinerDrained ..
  | money _ | advance _ => Unit

/-- The interface of the control plane. -/
abbrev ControlPlane : Interface := ⟨FleetOp, FleetOp.Ans⟩

/-- A transaction on the billing tables. -/
def Fleet.onBilling {α : Type} (s : Fleet) (out : Db × α) : Fleet × α :=
  ({ s with billing := out.1 }, out.2)

/-- One transaction, with its answer. -/
def FleetOp.exec (settings : Settings) : (o : FleetOp) → Fleet → Fleet × o.Ans
  | now, s => (s, s.now)
  | getWorkload w, s => (s, s.workloads.get? w)
  | createDeployment d record, s => ControlPlaneRepository.createDeployment d record s
  | getDeployment d, s => (s, ControlPlaneRepository.getDeployment d s)
  | updateDeployment d record, s => (ControlPlaneRepository.updateDeployment d record s, ())
  | listDeploymentsByState state, s => (s, ControlPlaneRepository.listDeploymentsByState state s)
  | accrueMetering d add, s => ControlPlaneRepository.accrueMetering d add s
  | returnMeteringMcents d mcents, s => ControlPlaneRepository.returnMeteringMcents d mcents s
  | getBillableSince d, s => (s, ControlPlaneRepository.getBillableSince d s)
  | setBillableSince d since, s => (ControlPlaneRepository.setBillableSince d since s, ())
  | saveAssignment d lease, s => (ControlPlaneRepository.saveAssignment d lease s, ())
  | listAssignments statuses, s => (s, ControlPlaneRepository.listAssignments statuses s)
  | updateAssignmentStatus d status, s => ControlPlaneRepository.updateAssignmentStatus d status s
  | updatePlacementStatus d status failed cooldown, s =>
    (ControlPlaneRepository.updatePlacementStatus d status failed cooldown s, ())
  | listNodes, s => (s, ControlPlaneRepository.listNodes s)
  | listMiners, s => (s, s.drained.rows)
  | listHeartbeats, s => (s, s.heartbeats.rows)
  | getHeartbeat hotkey, s => (s, s.heartbeats.get? hotkey)
  | listServers, s => (s, ControlPlaneRepository.listServers s)
  | listPlacements limit, s => (s, ControlPlaneRepository.listPlacements limit s)
  | reservedGpusByNode, s => (s, ControlPlaneRepository.reservedGpusByNode s)
  | reserveGpus d hotkey node count capacity, s =>
    ControlPlaneRepository.reserveGpus d hotkey node count capacity s
  | releaseGpuReservation d, s => ControlPlaneRepository.releaseGpuReservation d s
  | releaseOrphanedReservations, s => ControlPlaneRepository.releaseOrphanedReservations s
  | getCapacity hotkey, s => (s, ControlPlaneRepository.getCapacity hotkey s)
  | upsertCapacity update, s => (ControlPlaneRepository.upsertCapacity settings update s, ())
  | debitUserToFloor u amount kind reference, s =>
    s.onBilling (BillingRepository.debitUserToFloor u amount kind reference s.billing)
  | lockPlacement, s => ({ s with placementLock := true }, ())
  | unlockPlacement, s => ({ s with placementLock := false }, ())
  | upsertHeartbeat hotkey heartbeat, s =>
    ({ s with heartbeats := s.heartbeats.insert hotkey heartbeat }, ())
  | setMinerDrained hotkey drained, s =>
    ({ s with drained := s.drained.modify hotkey fun _ ↦ drained }, ())
  | money op, s => ({ s with billing := op.exec s.billing }, ())
  | advance seconds, s =>
    ({ s with billing := { s.billing with now := s.billing.now + max 0 seconds } }, ())

/-- A held lock keeps its next taker waiting. -/
def FleetOp.ready : FleetOp → Fleet → Bool
  | lockPlacement, s => !s.placementLock
  | _, _ => true

/-- The meaning of the transactions. -/
def fleet (settings : Settings) : Machine ControlPlane Fleet where
  exec := FleetOp.exec settings
  ready := FleetOp.ready

/-! ## Requests -/

/-- What the methods raise. -/
inductive ControlPlaneError where
  | keyError
  | invalidDeploymentTransition
  | valueError
  deriving DecidableEq

/-- `DeploymentCreateRequest`, and the owner the gateway adds to it. -/
structure DeploymentCreateRequest where
  workloadId : WorkloadId
  ownerUserId : Option UserId
  name : Option Text
  requestedInstances : ℕ
  saveOnExhaustion : Bool
  resumeOnTopup : Bool
  acceptFee : Bool

/-- `DeploymentUpdateRequest`: each field is given or left alone. -/
structure DeploymentUpdateRequest where
  requestedInstances : Option ℕ
  feeAcknowledged : Option Bool
  resumeOnTopup : Option Bool
  name : Option Text

/-- `DeploymentStatusUpdate`: a machine's report, or the control plane's own. -/
structure DeploymentStatusUpdate where
  state : DeploymentState
  readyInstances : ℤ := 0
  endpoint : Option Text := none
  sshPrivateKey : Option Text := none
  portMappings : Option (List (ℕ × ℕ)) := none
  sshHostKeys : Option (List Text) := none
  error : Option Text := none
  suspendedReason : Option Text := none
  observedAt : Time

namespace ControlPlaneService

/-- One transaction as a program. -/
def call (o : FleetOp) : Program ControlPlane o.Ans := Program.op (I := ControlPlane) o

/-- A text that is there and not empty. -/
def given (text : Option Text) : Option Text := text.filter (· ≠ [])

/-- Does a text occur in another? -/
def occursIn (needle text : Text) : Bool := decide (needle <:+: text)

section

variable (settings : Settings) (protocol : Protocol)

/-! ## Nodes -/

/-- `_is_node_stale` at a time. -/
def nodeStale (now : Time) (node : NodeCapability) : Bool :=
  node.observedAt.any fun seen ↦ settings.nodeInventoryTimeoutSeconds < now - seen

/-- `_is_node_stale` -/
def isNodeStale (node : NodeCapability) : Program ControlPlane Bool := do
  let now ← call .now
  pure (nodeStale settings now node)

/-- `_is_node_in_cooldown`, for one deployment's placements. -/
def isNodeInCooldown (node : NodeId) (d : DeploymentId) : Program ControlPlane Bool := do
  let now ← call .now
  let placements ← call (.listPlacements 1000)
  pure (placements.any fun p ↦
    p.nodeId = node ∧ p.deploymentId = d ∧ (p.cooldownUntil.any fun t ↦ now < t) = true)

/-- `_find_node` -/
def findNode (node : NodeId) : Program ControlPlane (Option NodeCapability) := do
  let nodes ← call .listNodes
  pure (nodes.find? fun n ↦ n.nodeId = node)

/-- Why the scheduler passes over a node. -/
inductive SkipReason where
  | drained
  | unhealthy
  | heartbeatStale
  | heartbeatMissing
  | stale
  | serverStale
  | cooldown
  deriving DecidableEq

/-- A reason, where it applies. -/
def reason (applies : Bool) (r : SkipReason) : List SkipReason := if applies then [r] else []

/-- What a miner's heartbeat says against its nodes. -/
def heartbeatReasons (now : Time) : Option Heartbeat → List SkipReason
  | none => [.heartbeatMissing]
  | some heartbeat =>
    reason (!heartbeat.healthy) .unhealthy ++
      reason (heartbeat.observedAt.any fun seen ↦
        settings.minerHeartbeatTimeoutSeconds < now - seen) .heartbeatStale

/-- Is the node cooling down for the deployment? One that is not created yet has no placements. -/
def coolingDown (node : NodeId) : Option DeploymentId → Program ControlPlane Bool
  | none => pure false
  | some d => isNodeInCooldown node d

/-- Everything that speaks against a node. -/
def skipReasons (miners : List (Hotkey × Bool)) (heartbeats : List (Hotkey × Heartbeat))
    (servers : List (ServerId × Server)) (now : Time) (d : Option DeploymentId)
    (node : NodeCapability) : Program ControlPlane (List SkipReason) := do
  let stale ← isNodeStale settings node
  let cooling ← coolingDown node.nodeId d
  let server := node.serverId.bind fun id ↦ servers.lookup id
  pure (reason ((miners.lookup node.hotkey).getD false) .drained ++
    heartbeatReasons settings now (heartbeats.lookup node.hotkey) ++
    reason stale .stale ++
    reason (server.any fun row ↦ settings.serverObservedTimeoutSeconds < now - row.observedAt)
      .serverStale ++
    reason cooling .cooldown)

/-- Each node with what speaks against it. -/
def examineNodes (ask : NodeCapability → Program ControlPlane (List SkipReason)) :
    List NodeCapability → Program ControlPlane (List (NodeCapability × List SkipReason))
  | [] => pure []
  | node :: nodes => do
    let reasons ← ask node
    let rest ← examineNodes ask nodes
    pure ((node, reasons) :: rest)

/-- The nodes that nothing speaks against; where there are none, those that are only cooling
down. -/
def eligibleNodes (examined : List (NodeCapability × List SkipReason)) : List NodeCapability :=
  let nodes := (examined.filter fun r ↦ r.2 = []).map Prod.fst
  if nodes = [] then (examined.filter fun r ↦ r.2 = [.cooldown]).map Prod.fst else nodes

/-- `_schedulable_nodes` -/
def schedulableNodes (d : Option DeploymentId) : Program ControlPlane (List NodeCapability) := do
  let nodes ← call .listNodes
  let miners ← call .listMiners
  let heartbeats ← call .listHeartbeats
  let servers ← call .listServers
  let now ← call .now
  let examined ← examineNodes (skipReasons settings miners heartbeats servers now d) nodes
  pure (eligibleNodes examined)

/-- Move the reported availability of the first node with an identifier. -/
def adjustNode (node : NodeId) (deltaGpus : ℤ) : List NodeCapability → List NodeCapability
  | [] => []
  | n :: nodes =>
    if n.nodeId = node then { n with availableGpus := n.availableGpus + deltaGpus } :: nodes
    else n :: adjustNode node deltaGpus nodes

/-- `adjust_node_capacity`: two transactions. -/
def adjustNodeCapacity (hotkey : Hotkey) (node : NodeId) (deltaGpus : ℤ) :
    Program ControlPlane Unit := do
  match ← call (.getCapacity hotkey) with
  | none => pure ()
  | some update =>
    call (.upsertCapacity { update with nodes := adjustNode node deltaGpus update.nodes })

/-- `update_capacity`: a miner's report, its memory figures corrected. -/
def updateCapacity (update : CapacityUpdate) : Program ControlPlane Unit :=
  call (.upsertCapacity { update with
    nodes := update.nodes.map fun node ↦
      { node with
        vramGbPerGpu :=
          (protocol.canonicalVramGb node.gpuModel node.vramGbPerGpu).getD node.vramGbPerGpu } })

/-! ## Creating a deployment -/

/-- The families of GPU that are rented out. -/
def rentalFamilies : List Text := ["4090".toList, "5090".toList]

/-- `online_gpu_models`, in the order the nodes are found. -/
def onlineGpuModels : Program ControlPlane (List Text) := do
  let nodes ← schedulableNodes settings none
  pure (((nodes.map fun n ↦ normalizeGpuModel n.gpuModel).dedup).filter fun m ↦
    m ≠ [] ∧ (rentalFamilies.any fun family ↦ occursIn family m) = true)

/-- The greatest rate of some models. -/
def maxRate (models : List Text) : ℕ :=
  (models.map fun m ↦ protocol.rateForGpu (some m)).foldr max 0

/-- `_quoted_hourly_rate_cents` -/
def quotedHourlyRateCents (workload : WorkloadSpec) (liveModels : List Text) : ℕ :=
  if workload.requirements.supportedGpuModels ≠ [] then
    maxRate protocol workload.requirements.supportedGpuModels
  else if liveModels ≠ [] then maxRate protocol liveModels
  else protocol.topRateCents

/-- `_estimate_deployment_fee`: there is none. -/
def estimateDeploymentFee : ℚ := 0

/-- The record of a new deployment. -/
def newRecord (request : DeploymentCreateRequest) (quote : ℕ) (now : Time) : DeploymentRecord where
  workloadId := request.workloadId
  name := request.name
  ownerUserId := request.ownerUserId
  hotkey := none
  nodeId := none
  state := .pending
  requestedInstances := request.requestedInstances
  readyInstances := 0
  endpoint := none
  sshPrivateKey := none
  portMappings := []
  sshHostKeys := []
  hourlyRateCents := quote
  saveOnExhaustion := request.saveOnExhaustion
  resumeOnTopup := request.resumeOnTopup
  suspendedReason := none
  readyAt := none
  suspendedAt := none
  deploymentFeeUsd := estimateDeploymentFee
  feeAcknowledged := request.acceptFee
  warmupState := .pending
  lastError := none
  failureClass := none
  lastRetryReason := none
  retryCount := 0
  retryExhausted := false
  healthCheckFailures := 0
  updatedAt := now

/-- `create_deployment` -/
def createDeployment (d : DeploymentId) (request : DeploymentCreateRequest) :
    Program ControlPlane (Except ControlPlaneError DeploymentRecord) := do
  match ← call (.getWorkload request.workloadId) with
  | none => pure (.error .keyError)
  | some workload => do
    let live ← onlineGpuModels settings
    let now ← call .now
    let record := newRecord request (quotedHourlyRateCents protocol workload live) now
    let _ ← call (.createDeployment d record)
    pure (.ok record)

/-- `update_deployment` -/
def updateDeployment (d : DeploymentId) (request : DeploymentUpdateRequest) :
    Program ControlPlane (Except ControlPlaneError DeploymentRecord) := do
  match ← call (.getDeployment d) with
  | none => pure (.error .keyError)
  | some record => do
    match ← call (.getWorkload record.workloadId) with
    | none => pure (.error .keyError)
    | some _ => do
      let now ← call .now
      let saved : DeploymentRecord := { record with
        requestedInstances := request.requestedInstances.getD record.requestedInstances
        deploymentFeeUsd :=
          if request.requestedInstances.isSome then estimateDeploymentFee
          else record.deploymentFeeUsd
        feeAcknowledged := request.feeAcknowledged.getD record.feeAcknowledged
        resumeOnTopup := request.resumeOnTopup.getD record.resumeOnTopup
        name := if request.name.isSome then given request.name else record.name
        updatedAt := now }
      call (.updateDeployment d saved)
      pure (.ok saved)

/-! ## Status reports -/

/-- The first class that a failure message gives away. -/
def failureClasses : List (List Text × Text) :=
  [(["machine lost".toList, "machine_loss".toList], "machine_loss".toList),
    (["lease".toList], "lease_loss".toList),
    (["capacity".toList, "scheduler".toList], "scheduler_failure".toList),
    (["health".toList], "health_check_failure".toList),
    (["heartbeat".toList, "miner".toList], "miner_failure".toList),
    (["upstream".toList, "timeout".toList], "upstream_failure".toList)]

/-- `_classify_deployment_failure` -/
def classifyDeploymentFailure (error : Option Text) (state : DeploymentState)
    (existing : Option Text) : Option Text :=
  if state = .ready then none
  else if state ≠ .failed ∧ state ≠ .terminated then existing
  else
    let message := Text.lower (error.getD [])
    match failureClasses.find? fun c ↦ c.1.any fun needle ↦ occursIn needle message with
    | some c => some c.2
    | none => some ((given existing).getD "deployment_failure".toList)

/-- What a report in state `next` makes of the record. -/
def reported (update : DeploymentStatusUpdate) (record : DeploymentRecord)
    (next : DeploymentState) (readyAt : Option Time) : DeploymentRecord :=
  let live := update.state = .pulling ∨ update.state = .starting ∨ update.state = .ready
  { record with
    state := next
    readyInstances := if update.state = .ready then update.readyInstances else 0
    endpoint := (given update.endpoint).or record.endpoint
    sshPrivateKey := (given update.sshPrivateKey).or record.sshPrivateKey
    portMappings := update.portMappings.getD record.portMappings
    sshHostKeys := update.sshHostKeys.getD record.sshHostKeys
    -- A repeated report of a stop carries no text: the reason already given stays.
    lastError :=
      if update.state = .suspended ∧ update.error = none ∧ given record.lastError ≠ none then
        record.lastError
      else update.error
    failureClass := classifyDeploymentFailure update.error update.state record.failureClass
    healthCheckFailures := if update.state = .ready then 0 else record.healthCheckFailures
    retryExhausted := if update.state = .ready then false else record.retryExhausted
    readyAt := readyAt
    warmupState := match update.state with
      | .ready => .ready
      | .pulling | .starting => .warming
      | .failed | .terminated => .stopped
      | _ => record.warmupState
    suspendedAt :=
      if update.state = .suspended then record.suspendedAt.or (some update.observedAt)
      else if live then none else record.suspendedAt
    suspendedReason :=
      if update.state = .suspended then (given update.suspendedReason).or record.suspendedReason
      else if live then none else record.suspendedReason
    updatedAt := update.observedAt }

/-- The lease status that goes with a reported state. -/
def leaseStatusFor : DeploymentState → Option LeaseStatus
  | .pulling | .starting => some .activating
  | .ready => some .active
  | .suspended => some .suspended
  | .failed => some .failed
  | .terminated => some .terminated
  | _ => none

/-- Put the lease into a status, if there is one to put it into. -/
def setLease (d : DeploymentId) : Option LeaseStatus → Program ControlPlane Unit
  | none => pure ()
  | some status => do
    let _ ← call (.updateAssignmentStatus d status)
    pure ()

/-- The reported states in which a deployment gives its GPUs back. -/
def releasesHold (state : DeploymentState) : Bool :=
  state = .suspended ∨ state = .failed ∨ state = .terminated

/-- Give the GPUs back, if the reported state asks for it. -/
def releaseFor (d : DeploymentId) (state : DeploymentState) : Program ControlPlane Unit :=
  if releasesHold state then do
    let _ ← call (.releaseGpuReservation d)
    pure ()
  else pure ()

/-- When the deployment was ready first. -/
def stampReadyAt (update : DeploymentStatusUpdate) (record : DeploymentRecord) :
    Program ControlPlane (Option Time) :=
  if update.state = .ready ∧ record.readyAt = none then do
    let now ← call .now
    pure (some now)
  else pure record.readyAt

/-- The hourly meter charges from the moment the deployment became ready. -/
def stampBillable (d : DeploymentId) (becameReady : Bool) : Program ControlPlane Unit :=
  if becameReady then do
    let now ← call .now
    call (.setBillableSince d now)
  else pure ()

/-- `update_deployment_status`: terminal states absorb every report. -/
def updateDeploymentStatus (d : DeploymentId) (update : DeploymentStatusUpdate) :
    Program ControlPlane (Except ControlPlaneError DeploymentRecord) := do
  match ← call (.getDeployment d) with
  | none => pure (.error .keyError)
  | some record =>
    if record.state = .terminated ∨ record.state = .failed then pure (.ok record)
    else
      match record.state.transition update.state with
      | none => pure (.error .invalidDeploymentTransition)
      | some next => do
        let readyAt ← stampReadyAt update record
        let saved := reported update record next readyAt
        setLease d (leaseStatusFor update.state)
        releaseFor d update.state
        call (.updateDeployment d saved)
        stampBillable d (update.state = .ready ∧ record.state ≠ .ready)
        pure (.ok saved)

/-- The answers of the status route. -/
inductive StatusResponse where
  | notFound
  | conflict
  | saved (record : DeploymentRecord)

/-- `deployment_status`: a signed report of the miner `hotkey`. A machine cannot say why a
deployment is suspended. -/
def deploymentStatus (d : DeploymentId) (hotkey : Hotkey) (update : DeploymentStatusUpdate) :
    Program ControlPlane StatusResponse := do
  match ← call (.getDeployment d) with
  | none => pure .notFound
  | some record =>
    if record.hotkey ≠ some hotkey then pure .notFound
    else do
      match ← updateDeploymentStatus d { update with suspendedReason := none } with
      | .error .invalidDeploymentTransition => pure .conflict
      | .error _ => pure .notFound
      | .ok saved => pure (.saved saved)

/-- `record_deployment_health_failure` -/
def recordDeploymentHealthFailure (d : DeploymentId) (error : Text) :
    Program ControlPlane (Except ControlPlaneError DeploymentRecord) := do
  match ← call (.getDeployment d) with
  | none => pure (.error .keyError)
  | some record => do
    let now ← call .now
    let saved : DeploymentRecord := { record with
      healthCheckFailures := record.healthCheckFailures + 1
      lastError := some error
      failureClass := some "health_check_failure".toList
      updatedAt := now }
    call (.updateDeployment d saved)
    if settings.deploymentHealthFailureThreshold ≤ saved.healthCheckFailures then
      updateDeploymentStatus d { state := .failed, error := some error, observedAt := now }
    else pure (.ok saved)

/-- `clear_deployment_health_failures` -/
def clearDeploymentHealthFailures (d : DeploymentId) :
    Program ControlPlane (Except ControlPlaneError DeploymentRecord) := do
  match ← call (.getDeployment d) with
  | none => pure (.error .keyError)
  | some record =>
    if record.healthCheckFailures = 0 ∧ record.lastError = none then pure (.ok record)
    else do
      let now ← call .now
      let saved : DeploymentRecord := { record with
        healthCheckFailures := 0
        lastError := none
        updatedAt := now }
      call (.updateDeployment d saved)
      pure (.ok saved)

/-! ## Placement -/

/-- The placement of a chosen node, under the lock: take the hold, then correct the reported
availability. -/
def holdNode (nodes : List NodeCapability) (d : DeploymentId) (gpuCount : ℕ)
    (assignment : LeaseAssignment) : Program ControlPlane Bool := do
  let chosen := nodes.find? fun n ↦ n.nodeId = assignment.nodeId
  let reserved ← call (.reserveGpus d assignment.hotkey assignment.nodeId gpuCount
    (chosen.map NodeCapability.gpuCount))
  if reserved then do
    adjustNodeCapacity assignment.hotkey assignment.nodeId (-gpuCount)
    pure true
  else pure false

/-- `_assign_lease` -/
def assignLease (workload : WorkloadSpec) (d : DeploymentId) :
    Program ControlPlane (Option LeaseAssignment) := do
  let nodes ← schedulableNodes settings (some d)
  call .lockPlacement
  let reserved ← call .reservedGpusByNode
  let now ← call .now
  match PlacementPolicy.assignLease workload nodes reserved now with
  | none => do
    call .unlockPlacement
    pure none
  | some assignment => do
    let held ← holdNode nodes d workload.requirements.gpuCount assignment
    call .unlockPlacement
    if held then do
      let now ← call .now
      pure (some { assignment with expiresAt := some (now + settings.defaultLeaseTtlSeconds) })
    else pure none

/-- The message of a deployment that no node could take. -/
def noCapacity : Text := "no compatible miner capacity available".toList

/-- The message of a deployment that was given up. -/
def giveUpReason (attempts retryCount : ℕ) : Text :=
  if settings.deploymentReassignRetryLimit ≤ retryCount ∧
      attempts < settings.deploymentRequestRetryLimit then
    noCapacity ++ " after ".toList ++ (toString retryCount).toList ++ " reassignments".toList
  else
    noCapacity ++ " after ".toList ++
      (toString settings.deploymentRequestRetryLimit).toList ++ " attempts".toList

/-- The deployment could not be placed: note it, and give up after too many attempts. -/
def notPlaced (d : DeploymentId) (record : DeploymentRecord) (attempts : ℕ) :
    Program ControlPlane Unit := do
  let now ← call .now
  let waiting : DeploymentRecord := { record with
    retryCount := max record.retryCount attempts
    lastError := some noCapacity
    lastRetryReason := some noCapacity
    failureClass := some "scheduler_failure".toList
    updatedAt := now }
  call (.updateDeployment d waiting)
  if settings.deploymentRequestRetryLimit ≤ attempts ∨
      settings.deploymentReassignRetryLimit ≤ waiting.retryCount then do
    let now ← call .now
    call (.updateDeployment d { waiting with retryExhausted := true, updatedAt := now })
    let _ ← updateDeploymentStatus d
      { state := .failed
        error := some (giveUpReason settings attempts waiting.retryCount)
        observedAt := now }
    pure ()
  else pure ()

/-- The rate that is locked at placement: the granted card's, never above the quote. -/
def lockedRate (granted quoted : ℕ) : ℕ := min granted (if quoted = 0 then granted else quoted)

/-- The deployment was placed: lock its rate, save the lease and the record. -/
def placed (d : DeploymentId) (record : DeploymentRecord) (attempts : ℕ)
    (assignment : LeaseAssignment) : Program ControlPlane DeploymentRecord := do
  let nodes ← call .listNodes
  let node := nodes.find? fun n ↦ n.nodeId = assignment.nodeId
  let granted := protocol.rateForGpu (node.map NodeCapability.gpuModel)
  let now ← call .now
  let scheduled : DeploymentRecord := { record with
    hotkey := some assignment.hotkey
    nodeId := some assignment.nodeId
    hourlyRateCents := lockedRate granted record.hourlyRateCents
    state := .scheduled
    retryCount := max record.retryCount (attempts - 1)
    healthCheckFailures := 0
    lastError := none
    lastRetryReason := none
    failureClass := none
    retryExhausted := false
    updatedAt := now }
  call (.saveAssignment d assignment)
  call (.updateDeployment d scheduled)
  pure scheduled

/-- `_process_deployment_request` -/
def processDeploymentRequest (d : DeploymentId) (attempts : ℕ) :
    Program ControlPlane (Option DeploymentRecord) := do
  match ← call (.getDeployment d) with
  | none => pure none
  | some record =>
    if record.state ≠ .pending then pure none
    else do
      match ← call (.getWorkload record.workloadId) with
      | none => pure none
      | some workload => do
        match ← assignLease settings workload d with
        | none => do
          notPlaced settings d record attempts
          pure none
        | some assignment => do
          let scheduled ← placed protocol d record attempts assignment
          pure (some scheduled)

/-! ## Operators -/

/-- The lease statuses under which a deployment is on a machine. -/
def activeStatuses : List LeaseStatus := [.assigned, .activating, .active]

/-- The deployment's lease, if it is on a machine. -/
def activeAssignment (d : DeploymentId) : Program ControlPlane (Option LeaseAssignment) := do
  let assignments ← call (.listAssignments activeStatuses)
  pure (assignments.lookup d)

/-- Give back what a lease holds: the reservation, and the GPUs its workload was counted for. -/
def freeLease (d : DeploymentId) (assignment : LeaseAssignment) (workload : Option WorkloadSpec) :
    Program ControlPlane Unit := do
  let _ ← call (.releaseGpuReservation d)
  match workload with
  | none => pure ()
  | some workload =>
    adjustNodeCapacity assignment.hotkey assignment.nodeId workload.requirements.gpuCount

/-- The record of a deployment that goes back to the queue. -/
def unplaced (record : DeploymentRecord) (reason : Text) (now : Time) : DeploymentRecord :=
  { record with
    state := .pending
    hotkey := none
    nodeId := none
    endpoint := none
    sshHostKeys := []
    readyInstances := 0
    lastError := some reason
    lastRetryReason := some reason
    retryExhausted := false
    updatedAt := now }

/-- `_requeue_assignment`: take a deployment off its machine and queue it again. -/
def requeueAssignment (d : DeploymentId) (assignment : LeaseAssignment) (reason : Text)
    (observedAt : Time) : Program ControlPlane (Option DeploymentRecord) := do
  match ← call (.getDeployment d) with
  | none => pure none
  | some record =>
    if record.state = .failed ∨ record.state = .terminated then pure none
    else do
      match ← call (.getWorkload record.workloadId) with
      | none => pure none
      | some workload => do
        freeLease d assignment (some workload)
        setLease d (some .reassigned)
        call (.updatePlacementStatus d .failed true
          (some (observedAt + settings.placementFailureCooldownSeconds)))
        let saved : DeploymentRecord := { unplaced record reason observedAt with
          healthCheckFailures := 0
          retryCount := record.retryCount + 1
          failureClass := some "miner_failure".toList }
        call (.updateDeployment d saved)
        pure (some saved)

/-- The message of an operator's requeue. -/
def operatorRequeue : Text := "operator requested requeue".toList

/-- The operator's requeue of a deployment that is not on a machine, whatever its state. -/
def requeueUnassigned (d : DeploymentId) (record : DeploymentRecord) :
    Program ControlPlane DeploymentRecord := do
  let now ← call .now
  let saved : DeploymentRecord := { unplaced record operatorRequeue now with retryCount := 0 }
  call (.updateDeployment d saved)
  pure saved

/-- `requeue_deployment` -/
def requeueDeployment (d : DeploymentId) :
    Program ControlPlane (Except ControlPlaneError DeploymentRecord) := do
  match ← call (.getDeployment d) with
  | none => pure (.error .keyError)
  | some record => do
    match ← activeAssignment d with
    | none => do
      let saved ← requeueUnassigned d record
      pure (.ok saved)
    | some assignment => do
      let now ← call .now
      match ← requeueAssignment settings d assignment operatorRequeue now with
      | some requeued => pure (.ok requeued)
      | none => do
        let saved ← requeueUnassigned d record
        pure (.ok saved)

/-- `resume_deployment`: take the GPUs again on the same node. The record stays suspended until
the machine reports. -/
def resumeDeployment (d : DeploymentId) :
    Program ControlPlane (Except ControlPlaneError DeploymentRecord) := do
  match ← call (.getDeployment d) with
  | none => pure (.error .keyError)
  | some record =>
    if record.state ≠ .suspended then pure (.error .valueError)
    else
      match record.hotkey, record.nodeId with
      | some hotkey, some nodeId => do
        match ← call (.getWorkload record.workloadId) with
        | none => pure (.error .keyError)
        | some workload => do
          let gpuCount := workload.requirements.gpuCount
          match ← findNode nodeId with
          | none => pure (.error .valueError)
          | some node => do
            let reserved ← call .reservedGpusByNode
            if effectiveAvailableGpus node reserved < gpuCount then pure (.error .valueError)
            else do
              let _ ← call (.reserveGpus d hotkey nodeId gpuCount none)
              adjustNodeCapacity hotkey nodeId (-gpuCount)
              setLease d (some .active)
              let now ← call .now
              let saved : DeploymentRecord := { record with
                lastError := none
                failureClass := none
                updatedAt := now }
              call (.updateDeployment d saved)
              pure (.ok saved)
      | _, _ => pure (.error .valueError)

/-- The message of an operator's failing a deployment. -/
def operatorFailure : Text := "operator forced failure".toList

/-- Take a deployment off its machine for good: free it, end its lease and mark its placement. -/
def endLease (d : DeploymentId) (record : DeploymentRecord) (assignment : LeaseAssignment)
    (placement : LeaseStatus) (incrementFailure : Bool) (cooldown : Time → Time) :
    Program ControlPlane Unit := do
  let workload ← call (.getWorkload record.workloadId)
  freeLease d assignment workload
  setLease d (some .terminated)
  let now ← call .now
  call (.updatePlacementStatus d placement incrementFailure (some (cooldown now)))

/-- Take a deployment that failed off its machine, if it is on one. -/
def failAssignment (d : DeploymentId) (record : DeploymentRecord) :
    Option LeaseAssignment → Program ControlPlane Unit
  | none => pure ()
  | some assignment =>
    endLease d record assignment .failed true (· + settings.placementFailureCooldownSeconds)

/-- `fail_deployment` -/
def failDeployment (d : DeploymentId) :
    Program ControlPlane (Except ControlPlaneError DeploymentRecord) := do
  match ← call (.getDeployment d) with
  | none => pure (.error .keyError)
  | some record => do
    let assignment ← activeAssignment d
    failAssignment settings d record assignment
    let now ← call .now
    updateDeploymentStatus d
      { state := .failed, error := some operatorFailure, observedAt := now }

/-- `datetime.min` in UTC. -/
def datetimeMin : Time := -62135596800

/-- Take a deployment that is cleaned up off its machine. A stopped pod's lease is not active; it
is ended too, so that its machine lets go of it. -/
def cleanupAssignment (d : DeploymentId) (record : DeploymentRecord) :
    Option LeaseAssignment → Program ControlPlane Unit
  | some assignment => endLease d record assignment .terminated false fun _ ↦ datetimeMin
  | none => setLease d (if record.state = .suspended then some .terminated else none)

/-- `cleanup_deployment` -/
def cleanupDeployment (d : DeploymentId) (reason : Text) :
    Program ControlPlane (Except ControlPlaneError DeploymentRecord) := do
  match ← call (.getDeployment d) with
  | none => pure (.error .keyError)
  | some record => do
    let assignment ← activeAssignment d
    cleanupAssignment d record assignment
    let now ← call .now
    let saved : DeploymentRecord := { record with
      state := .terminated
      readyInstances := 0
      endpoint := none
      sshHostKeys := []
      lastError := some reason
      failureClass := some "operator_cleanup".toList
      updatedAt := now }
    call (.updateDeployment d saved)
    pure (.ok saved)

/-! ## Metering -/

/-- The key and the value that mark a workload as one of the shared models. -/
def managedByFlux (metadata : Metadata) : Bool :=
  match metadata.lookup "managed_by".toList with
  | some (.str name) => name = "flux".toList
  | _ => false

/-- `is_catalog_workload` -/
def isCatalogWorkload (workload : WorkloadSpec) : Bool :=
  managedByFlux workload.metadata ∨ "catalog-".toList <+: workload.workloadId

/-- The workload that is at hand, or looked up again. -/
def workloadOr (w : WorkloadId) : Option WorkloadSpec → Program ControlPlane (Option WorkloadSpec)
  | some workload => pure (some workload)
  | none => call (.getWorkload w)

/-- `is_private_model`: a customer's own model. -/
def isPrivateModel (record : DeploymentRecord) (workload : Option WorkloadSpec) :
    Program ControlPlane Bool := do
  let workload ← workloadOr record.workloadId workload
  pure (workload.any fun w ↦
    record.ownerUserId.isSome ∧ w.kind = .inference ∧ isCatalogWorkload w = false)

/-- `_box_silent` -/
def boxSilent (record : DeploymentRecord) (now : Time) : Program ControlPlane Bool := do
  match record.hotkey with
  | none => pure false
  | some hotkey => do
    let heartbeat ← call (.getHeartbeat hotkey)
    match heartbeat.bind Heartbeat.observedAt with
    | none => pure true
    | some seen =>
      if settings.minerHeartbeatTimeoutSeconds < now - seen then pure true
      else
        match record.nodeId with
        | none => pure false
        | some nodeId => do
          let node ← findNode nodeId
          pure (node.any (nodeStale settings now))

/-- The seconds a metering cycle charges for: those since the cycle before, at most an hour, or a
nominal minute. -/
def cycleSeconds : Option Time → Time
  | none => 60
  | some elapsed => max 0 (min elapsed 3600)

/-- The millicents of a number of seconds, rounded to nearest. -/
def meteredMcents (hourlyCents gpuCount : ℕ) (instances : ℤ) (seconds : Time) : ℤ :=
  roundHalfEven ((hourlyCents * 1000 * gpuCount * instances : ℚ) * seconds / 3600)

/-- `hourly_rate_cents or 10` -/
def rateOrDefault (record : DeploymentRecord) : ℕ :=
  if record.hourlyRateCents = 0 then 10 else record.hourlyRateCents

/-- The instances a deployment is billed for. -/
def billedInstances (record : DeploymentRecord) : ℤ := max record.readyInstances 1

/-- The message of a deployment whose owner has run out of credit. -/
def insufficientBalance : Text := "Insufficient balance — top up your credits to resume".toList

/-- The owner could not pay all of it: carry the rest back and suspend the deployment. What the
suspension raises is swallowed. -/
def suspendForBalance (d : DeploymentId) (shortfallCents : ℤ) : Program ControlPlane Unit := do
  let _ ← call (.returnMeteringMcents d (shortfallCents * 1000))
  let now ← call .now
  let _ ← updateDeploymentStatus d
    { state := .suspended
      error := some insufficientBalance
      suspendedReason := some "balance".toList
      observedAt := now }
  pure ()

/-- Accrue a charge and debit its whole cents: what was debited. -/
def charge (d : DeploymentId) (owner : UserId) (addMcents : ℤ) : Program ControlPlane ℤ := do
  let (wholeCents, _) ← call (.accrueMetering d addMcents)
  if wholeCents ≤ 0 then pure 0
  else do
    match ← call (.debitUserToFloor owner wholeCents .usage (some (.deployment d))) with
    -- An owner without a row is passed over.
    | .error _ => pure 0
    | .ok drain => do
      if 0 < drain.shortfallCents then do
        suspendForBalance d drain.shortfallCents
        pure drain.debitedCents
      else pure drain.debitedCents

/-- One pass of the loop of `meter_usage`. -/
def meterDeployment (cycle now : Time) (d : DeploymentId) (record : DeploymentRecord) :
    Program ControlPlane ℤ := do
  match record.ownerUserId with
  | none => pure 0
  | some owner => do
    let workload ← call (.getWorkload record.workloadId)
    let privateModel ← isPrivateModel record workload
    if (workload.any fun w ↦ w.kind = .inference) && !privateModel then pure 0
    else do
      let silent ← boxSilent settings record now
      if silent then pure 0
      else do
        let gpuCount := (workload.map fun w ↦ w.requirements.gpuCount).getD 1
        let charged (seconds : Time) : ℤ :=
          meteredMcents (rateOrDefault record) gpuCount (billedInstances record) seconds
        match ← call (.getBillableSince d) with
        | some since => charge d owner (charged (min cycle (max 0 (now - since))))
        | none =>
          -- It was running before its kind was billed by the hour: billing starts now.
          if privateModel then do
            call (.setBillableSince d now)
            pure 0
          else charge d owner (charged cycle)

/-- The loop of `meter_usage`: what was debited for each deployment. -/
def meterAll (cycle now : Time) : List (DeploymentId × DeploymentRecord) →
    Program ControlPlane (List (DeploymentId × ℤ))
  | [] => pure []
  | (d, record) :: rest => do
    let debited ← meterDeployment settings cycle now d record
    let result ← meterAll cycle now rest
    pure (if 0 < debited then (d, debited) :: result else result)

/-- `meter_usage` -/
def meterUsage (elapsedSeconds : Option Time) : Program ControlPlane (List (DeploymentId × ℤ)) := do
  let now ← call .now
  let ready ← call (.listDeploymentsByState .ready)
  meterAll settings (cycleSeconds elapsedSeconds) now ready

end

end ControlPlaneService

end GreenCompute
