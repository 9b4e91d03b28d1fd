import GreenCompute.ControlPlane.Service

/-!
# The control plane's sweeps

What the worker does on its own: it gives up deployments that never became ready, moves work off
machines that have gone silent, suspends idle models and ends the pods whose retention is over. Each
sweep lists rows in one transaction and goes through them one by one.
-/

namespace GreenCompute

open ControlPlaneRepository

namespace ControlPlaneService

/-- A number in a text. -/
def digits (n : ℤ) : Text := (toString n).toList

/-- `int` of a number of seconds. -/
def truncated (q : ℚ) : ℤ := q.num.tdiv q.den

/-- The time a sweep is given, or the clock's. -/
def timeOr : Option Time → Program ControlPlane Time
  | some t => pure t
  | none => call .now

section

variable (settings : Settings)

/-! ## Deployments that never became ready -/

/-- The message of a deployment that was given up. -/
def leaseExpired : Text := "lease expired before deployment became ready".toList

/-- One pass of the loop of `process_timeouts`. -/
def expire (observedAt : Time) (d : DeploymentId) (lease : LeaseAssignment) :
    Program ControlPlane (Except ControlPlaneError (Option DeploymentRecord)) :=
  if lease.expiresAt.all fun expiresAt ↦ observedAt < expiresAt then pure (.ok none)
  else do
    match ← call (.getDeployment d) with
    | none => pure (.ok none)
    | some record =>
      if record.state = .ready ∨ record.state = .failed ∨ record.state = .terminated then
        pure (.ok none)
      else do
        let outcome ← updateDeploymentStatus d
          { state := .failed, error := some leaseExpired, observedAt := observedAt }
        pure (outcome.map some)

/-- The loop of `process_timeouts`. What one pass raises ends it. -/
def expireAll (observedAt : Time) : List (DeploymentId × LeaseAssignment) →
    Program ControlPlane (Except ControlPlaneError (List DeploymentRecord))
  | [] => pure (.ok [])
  | (d, lease) :: rest => do
    match ← expire observedAt d lease with
    | .error e => pure (.error e)
    | .ok expired => do
      let others ← expireAll observedAt rest
      pure (others.map (expired.toList ++ ·))

/-- `process_timeouts` -/
def processTimeouts (now : Option Time) :
    Program ControlPlane (Except ControlPlaneError (List DeploymentRecord)) := do
  let observedAt ← timeOr now
  let assignments ← call (.listAssignments [.assigned, .activating])
  expireAll observedAt assignments

/-! ## Machines that have gone silent -/

/-- `_any_miner_reporting` -/
def anyMinerReporting (now : Time) : Program ControlPlane Bool := do
  let heartbeats ← call .listHeartbeats
  pure (heartbeats.any fun row ↦ row.2.observedAt.any fun seen ↦
    decide (now - seen ≤ settings.minerHeartbeatTimeoutSeconds))

/-- What `_assignment_problem` finds: a reason, and for how long the machine has been silent. -/
structure MachineProblem where
  reason : Text
  silentFor : Option Time

/-- What a node's own inventory says against it. -/
def nodeProblem (lease : LeaseAssignment) (now : Time) :
    Option NodeCapability → Option MachineProblem
  | none => some
    { reason := "node ".toList ++ digits lease.nodeId ++ " inventory missing for hotkey=".toList ++
        digits lease.hotkey ++ " (per-node staleness)".toList
      silentFor := none }
  | some node =>
    if nodeStale settings now node then some
      { reason := "node ".toList ++ digits lease.nodeId ++ " inventory stale beyond ".toList ++
          digits (truncated settings.nodeInventoryTimeoutSeconds) ++ "s for hotkey=".toList ++
          digits lease.hotkey ++ " (per-node staleness)".toList
        silentFor := node.observedAt.map (now - ·) }
    else none

/-- `_assignment_problem` -/
def assignmentProblem (lease : LeaseAssignment) (now : Time) :
    Program ControlPlane (Option MachineProblem) := do
  let heartbeat ← call (.getHeartbeat lease.hotkey)
  match heartbeat.bind fun h ↦ h.observedAt.map (h, ·) with
  | none =>
    pure (some
      { reason := "miner heartbeat missing for hotkey=".toList ++ digits lease.hotkey
        silentFor := none })
  | some (heartbeat, seen) =>
    if settings.minerHeartbeatTimeoutSeconds < now - seen then
      pure (some
        { reason := "miner heartbeat stale after ".toList ++ digits (truncated (now - seen)) ++
            " seconds for hotkey=".toList ++ digits lease.hotkey
          silentFor := some (now - seen) })
    else if !heartbeat.healthy then
      pure (some
        { reason := "miner marked unhealthy for hotkey=".toList ++ digits lease.hotkey
          silentFor := none })
    else do
      let node ← findNode lease.nodeId
      pure (nodeProblem settings lease now node)

/-- The message of a pod whose machine is gone. -/
def machineOffline (silentFor : Time) : Text :=
  "ended: the machine running it stopped reporting ".toList ++ digits ⌊silentFor / 3600⌋ ++
    " hours ago".toList

/-- `_end_offline_pod`: what it raises is swallowed. -/
def endOfflinePod (d : DeploymentId) (silentFor : Time) : Program ControlPlane Unit := do
  let now ← call .now
  let _ ← updateDeploymentStatus d
    { state := .terminated, error := some (machineOffline silentFor), observedAt := now }
  pure ()

/-- What becomes of a running deployment on a machine with a problem. -/
inductive SilentReady where
  | ended (silentFor : Time)
  | kept
  | moved

/-- A pod is ended after a long silence and never moved; a model replica is moved after a shorter
one. -/
def silentReady (workload : Option WorkloadSpec) (silentFor : Option Time) : SilentReady :=
  if workload.all fun w ↦ w.kind ≠ .inference then
    match silentFor with
    | some t => if settings.podOfflineEndAfterSeconds ≤ t then .ended t else .kept
    | none => .kept
  else if silentFor.any fun t ↦ t < settings.inferenceRequeueAfterSeconds then .kept
  else .moved

/-- What becomes of a deployment on a machine with a problem: only a running one is spared. -/
def silentDeployment (record : Option DeploymentRecord) (silentFor : Option Time) :
    Program ControlPlane SilentReady :=
  match record with
  | none => pure .moved
  | some record =>
    if record.state = .ready then do
      let workload ← call (.getWorkload record.workloadId)
      pure (silentReady settings workload silentFor)
    else pure .moved

/-- One pass of the loop of `process_unhealthy_miners`. -/
def reassign (observedAt : Time) (d : DeploymentId) (lease : LeaseAssignment) :
    Program ControlPlane (Option DeploymentRecord) := do
  match ← assignmentProblem settings lease observedAt with
  | none => pure none
  | some problem => do
    let record ← call (.getDeployment d)
    match ← silentDeployment settings record problem.silentFor with
    | .ended silentFor => do
      endOfflinePod d silentFor
      pure none
    | .kept => pure none
    | .moved => requeueAssignment settings d lease problem.reason observedAt

/-- The loop of `process_unhealthy_miners`. -/
def reassignAll (observedAt : Time) : List (DeploymentId × LeaseAssignment) →
    Program ControlPlane (List DeploymentRecord)
  | [] => pure []
  | (d, lease) :: rest => do
    let requeued ← reassign settings observedAt d lease
    let others ← reassignAll observedAt rest
    pure (requeued.toList ++ others)

/-- `process_unhealthy_miners`: nothing is done when no machine reports at all. -/
def processUnhealthyMiners (now : Option Time) : Program ControlPlane (List DeploymentRecord) := do
  let observedAt ← timeOr now
  let assignments ← call (.listAssignments activeStatuses)
  let reporting ← anyMinerReporting settings observedAt
  if assignments ≠ [] ∧ reporting = false then pure []
  else reassignAll settings observedAt assignments

/-! ## Idle models -/

/-- The message of a model that nobody asks. -/
def idleMessage : Text :=
  "idle — no invocations in ".toList ++
    digits (settings.idlePrivateEndpointTimeoutSeconds / 60 : ℕ) ++ " min".toList

/-- One pass of the loop of `process_idle_inference_deployments`; `lastInvocation` is when the
deployment was asked last. -/
def suspendIdle (observedAt : Time) (lastInvocation : Option Time) (d : DeploymentId)
    (record : DeploymentRecord) : Program ControlPlane Unit := do
  let workload ← call (.getWorkload record.workloadId)
  if workload.any fun w ↦ w.kind = .inference ∧ managedByFlux w.metadata = false then
    if observedAt - lastInvocation.getD record.updatedAt <
        settings.idlePrivateEndpointTimeoutSeconds then
      pure ()
    else do
      let now ← call .now
      let _ ← updateDeploymentStatus d
        { state := .suspended
          error := some (idleMessage settings)
          suspendedReason := some "idle".toList
          observedAt := now }
      pure ()
  else pure ()

/-- The loop of `process_idle_inference_deployments`. -/
def suspendAllIdle (observedAt : Time) (lastInvocationAt : DeploymentId → Option Time) :
    List (DeploymentId × DeploymentRecord) → Program ControlPlane Unit
  | [] => pure ()
  | (d, record) :: rest => do
    suspendIdle settings observedAt (lastInvocationAt d) d record
    suspendAllIdle observedAt lastInvocationAt rest

/-- `process_idle_inference_deployments` -/
def processIdleInferenceDeployments (lastInvocationAt : DeploymentId → Option Time)
    (now : Option Time) : Program ControlPlane Unit := do
  let observedAt ← timeOr now
  let ready ← call (.listDeploymentsByState .ready)
  suspendAllIdle settings observedAt lastInvocationAt ready

/-! ## Saved pods -/

/-- `_is_rental` -/
def isRental (record : DeploymentRecord) : Program ControlPlane Bool := do
  let workload ← call (.getWorkload record.workloadId)
  pure (workload.any fun w ↦ w.kind ≠ .inference)

/-- For how long a suspended pod is kept. -/
def retentionSeconds (record : DeploymentRecord) : Time :=
  if record.saveOnExhaustion then settings.podSavedRetentionDays * 86400
  else settings.podUnsavedGraceMinutes * 60

/-- The message of a pod that is reaped. -/
def reapMessage (record : DeploymentRecord) : Text :=
  if record.saveOnExhaustion then
    "saved-pod retention expired (".toList ++ digits settings.podSavedRetentionDays ++ "d)".toList
  else
    "unsaved pod removed ".toList ++ digits settings.podUnsavedGraceMinutes ++
      "min after credits ran out".toList

/-- Terminate a pod; what that raises is swallowed. -/
def reapPod (d : DeploymentId) (record : DeploymentRecord) : Program ControlPlane Unit := do
  let now ← call .now
  let _ ← updateDeploymentStatus d
    { state := .terminated, error := some (reapMessage settings record), observedAt := now }
  pure ()

/-- One pass of the loop of `reap_exhausted_pods`. -/
def reap (observedAt : Time) (d : DeploymentId) (record : DeploymentRecord) :
    Program ControlPlane Unit :=
  match record.suspendedAt with
  | none => pure ()
  | some suspendedAt => do
    let rental ← isRental record
    if rental = false then pure ()
    else if observedAt - suspendedAt < retentionSeconds settings record then pure ()
    else reapPod settings d record

/-- The loop of `reap_exhausted_pods`. -/
def reapAll (observedAt : Time) : List (DeploymentId × DeploymentRecord) → Program ControlPlane Unit
  | [] => pure ()
  | (d, record) :: rest => do
    reap settings observedAt d record
    reapAll observedAt rest

/-- `reap_exhausted_pods` -/
def reapExhaustedPods (now : Option Time) : Program ControlPlane Unit :=
  if settings.podExhaustionReaperEnabled then do
    let observedAt ← timeOr now
    let suspended ← call (.listDeploymentsByState .suspended)
    reapAll settings observedAt suspended
  else pure ()

end

end ControlPlaneService

end GreenCompute
