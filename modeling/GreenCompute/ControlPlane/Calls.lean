import GreenCompute.ControlPlane.Sweeps

/-!
# The control plane as a service

Everything that can be asked of the control plane, and the method that answers it.
-/

namespace GreenCompute

open ControlPlaneService

/-- The calls that anyone can make: staff and customers, miners, the worker's loops, and the
surroundings. -/
inductive FleetCall where
  | createDeployment (d : DeploymentId) (request : DeploymentCreateRequest)
  | updateDeployment (d : DeploymentId) (request : DeploymentUpdateRequest)
  | deploymentStatus (d : DeploymentId) (hotkey : Hotkey) (update : DeploymentStatusUpdate)
  | updateDeploymentStatus (d : DeploymentId) (update : DeploymentStatusUpdate)
  | recordDeploymentHealthFailure (d : DeploymentId) (error : Text)
  | clearDeploymentHealthFailures (d : DeploymentId)
  | processDeploymentRequest (d : DeploymentId) (attempts : ℕ)
  | requeueAssignment (d : DeploymentId) (assignment : LeaseAssignment) (reason : Text)
      (observedAt : Time)
  | requeueDeployment (d : DeploymentId)
  | resumeDeployment (d : DeploymentId)
  | failDeployment (d : DeploymentId)
  | cleanupDeployment (d : DeploymentId) (reason : Text)
  | reclaimOrphanedReservations
  | meterUsage (elapsedSeconds : Option Time)
  | processTimeouts (now : Option Time)
  | processUnhealthyMiners (now : Option Time)
  | processIdleInferenceDeployments (lastInvocationAt : DeploymentId → Option Time)
      (now : Option Time)
  | reapExhaustedPods (now : Option Time)
  | updateCapacity (update : CapacityUpdate)
  | recordHeartbeat (hotkey : Hotkey) (heartbeat : Heartbeat)
  | drainMiner (hotkey : Hotkey) (drained : Bool)
  | money (op : MoneyOp)
  | advance (seconds : Time)

/-- Run a method for its effects. -/
def discard {α : Type} (p : Program ControlPlane α) : Program ControlPlane Unit := do
  let _ ← p
  pure ()

/-- The method each call runs. -/
def FleetCall.body (settings : Settings) (protocol : Protocol) : FleetCall →
    Program ControlPlane Unit
  | createDeployment d request =>
    discard (ControlPlaneService.createDeployment settings protocol d request)
  | updateDeployment d request => discard (ControlPlaneService.updateDeployment d request)
  | deploymentStatus d hotkey update =>
    discard (ControlPlaneService.deploymentStatus d hotkey update)
  | updateDeploymentStatus d update =>
    discard (ControlPlaneService.updateDeploymentStatus d update)
  | recordDeploymentHealthFailure d error =>
    discard (ControlPlaneService.recordDeploymentHealthFailure settings d error)
  | clearDeploymentHealthFailures d =>
    discard (ControlPlaneService.clearDeploymentHealthFailures d)
  | processDeploymentRequest d attempts =>
    discard (ControlPlaneService.processDeploymentRequest settings protocol d attempts)
  | requeueAssignment d assignment reason observedAt =>
    discard (ControlPlaneService.requeueAssignment settings d assignment reason observedAt)
  | requeueDeployment d => discard (ControlPlaneService.requeueDeployment settings d)
  | resumeDeployment d => discard (ControlPlaneService.resumeDeployment d)
  | failDeployment d => discard (ControlPlaneService.failDeployment settings d)
  | cleanupDeployment d reason => discard (ControlPlaneService.cleanupDeployment d reason)
  | reclaimOrphanedReservations => discard (call .releaseOrphanedReservations)
  | meterUsage elapsed => discard (ControlPlaneService.meterUsage settings elapsed)
  | processTimeouts now => discard (ControlPlaneService.processTimeouts now)
  | processUnhealthyMiners now => discard (ControlPlaneService.processUnhealthyMiners settings now)
  | processIdleInferenceDeployments lastInvocationAt now =>
    ControlPlaneService.processIdleInferenceDeployments settings lastInvocationAt now
  | reapExhaustedPods now => ControlPlaneService.reapExhaustedPods settings now
  | updateCapacity update => ControlPlaneService.updateCapacity protocol update
  | recordHeartbeat hotkey heartbeat => call (.upsertHeartbeat hotkey heartbeat)
  | drainMiner hotkey drained => call (.setMinerDrained hotkey drained)
  | money op => call (.money op)
  | advance seconds => call (.advance seconds)

/-- The control plane on one database. -/
def controlPlane (settings : Settings) (protocol : Protocol) :
    Service ControlPlane FleetCall Fleet where
  toMachine := fleet settings
  body := FleetCall.body settings protocol

/-! ## A pod to run examples with -/

/-- A rental of one 4090. -/
def onePod : WorkloadSpec where
  workloadId := "pod".toList
  kind := .pod
  requirements := ⟨1, 0, 0, 0, ["rtx4090".toList]⟩
  metadata := []

/-- Node 3 of miner 7: one 4090. -/
def oneNode : NodeCapability where
  nodeId := 3
  hotkey := 7
  serverId := none
  gpuModel := "rtx4090".toList
  gpuCount := 1
  availableGpus := 1
  vramGbPerGpu := 24
  cpuCores := 8
  memoryGb := 32
  labels := []
  hourlyCostUsd := 0
  healthScore := 1
  reliabilityScore := 1
  performanceScore := 1
  observedAt := none

/-- User 1 and the rental, with nothing deployed and no machine yet. -/
def podOwner (balanceCents : ℤ) : Fleet :=
  { Fleet.empty with
    workloads := .ofRows [("pod".toList, onePod)]
    billing := { Db.empty with
      users := Table.empty.insert 1 ⟨"ada".toList, none, none, none, none, [], balanceCents⟩ } }

/-- The node joins, and user 1's pod 1 is created, placed on it and reported ready. -/
def startPod : List FleetCall :=
  [.updateCapacity ⟨7, [oneNode], 0⟩, .recordHeartbeat 7 ⟨true, some 0⟩,
    .createDeployment 1 ⟨"pod".toList, some 1, none, 1, true, false, true⟩,
    .processDeploymentRequest 1 1,
    .deploymentStatus 1 7 { state := .ready, readyInstances := 1, observedAt := 0 }]

/-- The record of user 1's pod, on node 3 of miner 7, at the rate of its card. -/
def podRecord : DeploymentRecord :=
  { newRecord ⟨"pod".toList, some 1, none, 1, true, false, true⟩ 40 0 with
    hotkey := some 7
    nodeId := some 3 }

end GreenCompute
