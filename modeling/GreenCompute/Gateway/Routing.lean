import GreenCompute.ControlPlane.Service
import GreenCompute.Foundations.Selection
import GreenCompute.Validator.Catalog
import Mathlib.Data.Prod.Lex

/-!
# Routing a request to a model

A model is asked for by host, by the identifier of its workload, by an alias or by a name, and the
four are tried in this order. Names repeat, and a name means something else to each caller; a host
or an alias is one workload's alone, whoever asks. Whether the caller may use the workload is
checked when the reference has been resolved.

The probes of endpoints, the latencies and the rotation are given by their figures; the list of
routing decisions and the health failures that a probe records are left out.
-/

namespace GreenCompute

/-! ## The tables -/

/-- The tables that routing reads. Aliases and hosts are unique where they are set. -/
structure RoutingDb where
  workloads : Table WorkloadId WorkloadRow
  shares : List (WorkloadId × UserId)
  deployments : Table DeploymentId DeploymentRow
  nodeInventory : List NodeCapability
  heartbeats : Table Hotkey Heartbeat
  now : Time
  aliases : (workloads.rows.filterMap fun r ↦ r.2.workloadAlias).Nodup
  ingressHosts : (workloads.rows.filterMap fun r ↦ r.2.ingressHost).Nodup

namespace RoutingDb

variable (db : RoutingDb)

/-- `get_workload` -/
def getWorkload (w : WorkloadId) : Option (WorkloadId × WorkloadRow) :=
  db.workloads.rows.find? fun r ↦ r.1 = w

/-- `find_workload_by_alias` -/
def findWorkloadByAlias (t : Text) : Option (WorkloadId × WorkloadRow) :=
  db.workloads.rows.find? fun r ↦ r.2.workloadAlias = some t

/-- `find_workload_by_ingress_host` -/
def findWorkloadByIngressHost (host : Text) : Option (WorkloadId × WorkloadRow) :=
  db.workloads.rows.find? fun r ↦ r.2.ingressHost = some host

/-- `list_workloads_by_name`: the oldest first. -/
def listWorkloadsByName (name : Text) : List (WorkloadId × WorkloadRow) :=
  (db.workloads.select fun _ row ↦ row.name = name).insertionSort fun a b ↦
    a.2.createdAt ≤ b.2.createdAt

/-- `ControlPlaneRepository.list_ready_deployments` -/
def readyDeployments (w : WorkloadId) : List (DeploymentId × DeploymentRecord) :=
  (db.deployments.select fun _ row ↦ row.record.workloadId = w ∧ row.record.state = .ready).map
    fun r ↦ (r.1, r.2.record)

/-- The deployment's machine is known, reports, and is well. -/
def routable (settings : Settings) (record : DeploymentRecord) : Bool :=
  (record.nodeId.bind fun id ↦ db.nodeInventory.find? fun node ↦ node.nodeId = id).any
      (fun node ↦ !ControlPlaneService.nodeStale settings db.now node) &&
    ((record.hotkey.bind db.heartbeats.get?).all fun heartbeat ↦ heartbeat.healthy)

/-- `ControlPlaneService.list_ready_deployments`: the one updated last first. -/
def listReadyDeployments (settings : Settings) (w : WorkloadId) :
    List (DeploymentId × DeploymentRecord) :=
  ((db.readyDeployments w).filter fun r ↦ db.routable settings r.2).insertionSort fun a b ↦
    b.2.updatedAt ≤ a.2.updatedAt

/-! ## Access -/

/-- `_owned_by` -/
def ownedBy (ownerUserId userId : Option UserId) : Bool :=
  userId.isSome && ownerUserId = userId

instance : LawfulBEq (WorkloadId × UserId) := inferInstance

/-- `_user_can_access_workload` -/
def userCanAccessWorkload (userId : Option UserId) (r : WorkloadId × WorkloadRow) : Bool :=
  r.2.isPublic || ownedBy r.2.ownerUserId userId ||
    userId.any fun user ↦ (r.1, user) ∈ db.shares

end RoutingDb

/-! ## Hosts -/

/-- `urlsplit(…).hostname` of an authority alone; none for brackets that do not match. -/
def urlHostname (text : Text) : Option (Option Text) :=
  let netloc := (text.filter (· ∉ ['\t', '\r', '\n'])).takeWhile (· ∉ ['/', '?', '#'])
  if ('[' ∈ netloc) ≠ (']' ∈ netloc) then none
  else
    let hostinfo := netloc.rtakeWhile (· ≠ '@')
    let hostname :=
      if '[' ∈ hostinfo then ((hostinfo.dropWhile (· ≠ '[')).drop 1).takeWhile (· ≠ ']')
      else hostinfo.takeWhile (· ≠ ':')
    let lowered := Text.lower (hostname.takeWhile (· ≠ '%')) ++ hostname.dropWhile (· ≠ '%')
    some (if hostname = [] then none else some lowered)

/-- `_normalize_host`; the outer option is none where the host cannot be parsed. -/
def normalizeHost (host : Option Text) : Option (Option Text) :=
  match host.map fun h ↦ Text.lower (Text.strip h) with
  | none => some none
  | some stripped =>
    if stripped = [] then some none
    else (urlHostname stripped).map fun hostname ↦ some (hostname.getD stripped)

/-- Is the host below the zone of the models? -/
def inZone (zone host : Text) : Bool := ('.' :: zone).isSuffixOf host

/-- `model_ingress_zone`, of the variable that sets it. -/
def modelIngressZone (domain : Text) : Text :=
  let zone := if domain = [] then "inference.green-compute.com".toList else domain
  (List.dropWhile (· = '.') (Text.lower (Text.strip zone))).rdropWhile (· = '.')

/-- `_external_model_upstreams`: each item `id=url` of the list, as a pair. -/
def externalModelUpstreams (raw : Text) : List (Text × Text) :=
  (raw.splitOn ',').filterMap fun item ↦
    let item := Text.strip item
    let modelId := Text.lower (Text.strip (item.takeWhile (· ≠ '=')))
    let url := (Text.strip ((item.dropWhile (· ≠ '=')).drop 1)).rdropWhile (· = '/')
    if '=' ∈ item ∧ modelId ≠ [] ∧ url ≠ [] then some (modelId, url) else none

/-! ## Resolving a reference -/

/-- What a reference was matched by. -/
inductive RouteMatch where
  | ingressHost
  | workloadId
  | workloadAlias
  | name
  deriving DecidableEq

/-- Who asks, what for, and through which host. -/
structure RouteRequest where
  model : Text
  routedHost : Option Text
  userId : Option UserId
  admin : Bool

/-- Why a request is not routed: a host that is none, or a `NoReadyDeploymentError`. -/
inductive RoutingError where
  | badHost
  | noReady (message : Text)
  deriving DecidableEq

/-- The configuration, and the figures that the ordering of the deployments reads. -/
structure RoutingEnv where
  settings : Settings
  ingressDomain : Text
  upstreams : Text
  healthy : DeploymentId → Bool
  latency : DeploymentId → ℚ
  counter : ℕ

/-- Where a request goes. -/
inductive Routed where
  | external (endpoint : Text)
  | deployments (matchedBy : RouteMatch) (host : Option Text) (w : WorkloadId)
      (targets : List (DeploymentId × DeploymentRecord))

namespace RoutingDb

variable (env : RoutingEnv) (req : RouteRequest) (db : RoutingDb)

/-- The rank of a workload of the name: whose it is, whether it runs, and its age. -/
def nameRank (r : WorkloadId × WorkloadRow) : ℕ ×ₗ ℕ ×ₗ ℚ :=
  let access :=
    if req.admin = true ∨ (req.userId.isSome ∧ r.2.ownerUserId = req.userId) then 0
    else if db.userCanAccessWorkload req.userId r then 1
    else 2
  let ready := if db.readyDeployments r.1 ≠ [] then 0 else 1
  toLex (access, toLex (ready, -r.2.createdAt))

/-- `_pick_named_workload` -/
def pickNamedWorkload : Option (WorkloadId × WorkloadRow) :=
  (db.listWorkloadsByName req.model).argmin (db.nameRank req)

/-- The workload that a host of the zone names. -/
def hosted (host : Option Text) : Option (WorkloadId × WorkloadRow) :=
  (host.filter (inZone (modelIngressZone env.ingressDomain))).bind db.findWorkloadByIngressHost

/-- `NoReadyDeploymentError` for a model that nothing answers to. -/
def unknownModel (model : Text) : RoutingError := .noReady ("unknown model=".toList ++ model)

/-- `resolve_workload_reference`, of a normalized host. -/
def resolveWorkloadReference (host : Option Text) :
    Except RoutingError ((WorkloadId × WorkloadRow) × RouteMatch) :=
  let found :=
    ((db.hosted env host).map fun r ↦ (r, RouteMatch.ingressHost)).or <|
      ((db.getWorkload req.model).map fun r ↦ (r, RouteMatch.workloadId)).or <|
        ((db.findWorkloadByAlias req.model).map fun r ↦ (r, RouteMatch.workloadAlias)).or <|
          (db.pickNamedWorkload req).map fun r ↦ (r, RouteMatch.name)
  match found with
  | some r => .ok r
  | none => .error (unknownModel req.model)

/-- `_select_healthy_deployments`, up to its access check: the workload chosen. -/
def chooseWorkload (host : Option Text) :
    Except RoutingError ((WorkloadId × WorkloadRow) × RouteMatch) := do
  let r ← db.resolveWorkloadReference env req host
  if req.admin = false ∧ db.userCanAccessWorkload req.userId r.1 = false then
    .error (unknownModel req.model)
  else .ok r

/-- `_select_healthy_deployments` from there on: the deployments that answer, the fastest first,
turned by the counter. -/
def healthyDeployments (w : WorkloadId) :
    Except RoutingError (List (DeploymentId × DeploymentRecord)) :=
  let candidates := (db.listReadyDeployments env.settings w).filter fun r ↦ r.2.endpoint.isSome
  if candidates = [] then .error (.noReady ("no ready deployment for model=".toList ++ req.model))
  else
    let healthy := candidates.filter fun r ↦ env.healthy r.1
    if healthy = [] then
      .error (.noReady ("no healthy deployment available for model=".toList ++ req.model))
    else
      let sorted := healthy.insertionSort fun a b ↦ env.latency a.1 ≤ env.latency b.1
      .ok (sorted.rotate env.counter)

/-- The upstream outside the fleet that serves the model. -/
def externalUpstream : Option Text :=
  (externalModelUpstreams env.upstreams).reverse.lookup (Text.lower (Text.strip req.model))

/-- `_select_healthy_deployments` -/
def selectHealthyDeployments : Except RoutingError Routed :=
  match externalUpstream env req, normalizeHost req.routedHost with
  | _, none => .error .badHost
  | some endpoint, some _ => .ok (.external endpoint)
  | none, some host => do
    let r ← db.chooseWorkload env req host
    let targets ← db.healthyDeployments env req r.1.1
    .ok (.deployments r.2 host r.1.1 targets)

end RoutingDb

end GreenCompute
