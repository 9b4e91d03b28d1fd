import GreenCompute.ControlPlane.Repository

/-!
# What a miner's routes disclose

The GET routes that miners call, as functions of the database. One helper answers for a single
deployment, and only to the miner it runs on; the routes that list deployments or workloads, and
the one that looks a workload up, do without it. `disclosure_confined` says at which databases a
route nevertheless tells a miner nothing about other miners' tenants.
-/

namespace GreenCompute

/-! ## The database as the routes show it -/

/-- The columns of a row of `deployments` that only the routes read. -/
structure DeploymentColumns where
  createdByKeyId : Option Text
  maxRuntimeMinutes : Option ℕ
  multiNode : Option Metadata
  createdAt : Time

/-- A row of `builds`, as it is listed. -/
structure Build where
  buildId : Text
  image : Text
  status : Text
  createdAt : Time

/-- A row of `usage_records`. -/
structure UsageRecord where
  deploymentId : DeploymentId
  requestCount : ℤ
  streamedRequestCount : ℤ
  streamChunkCount : ℤ
  computeSeconds : ℚ
  latencyMsP95 : ℚ
  occupancySeconds : ℚ

/-- The control plane's tables with the columns that the miners' routes show. -/
structure Platform where
  fleet : Fleet
  workloadColumns : WorkloadId → WorkloadColumns
  deploymentColumns : DeploymentId → DeploymentColumns
  builds : List Build
  usageRecords : List UsageRecord

/-- An `HTTPException`, with its detail as the JSON value it is. -/
structure RouteError where
  status : ℕ
  detail : Json

/-- `WorkloadSpec`, with all that `model_dump` shows of it. -/
structure WorkloadDump where
  spec : WorkloadSpec
  columns : WorkloadColumns

/-- `DeploymentRecord`, with all that `model_dump` shows of it. -/
structure DeploymentDump where
  deploymentId : DeploymentId
  record : DeploymentRecord
  createdByKeyId : Option Text
  maxRuntimeMinutes : Option ℕ
  createdAt : Time

/-- `LeaseAssignment`, with the columns of its deployment that are listed along with it. -/
structure LeaseDump where
  deploymentId : DeploymentId
  lease : LeaseAssignment
  multiNode : Option Metadata
  deploymentName : Option Text

/-- What `UsageAggregator` keeps of one deployment. -/
structure UsageTotals where
  requests : ℚ
  streamedRequests : ℚ
  streamChunks : ℚ
  computeSeconds : ℚ
  occupancySeconds : ℚ
  p95Max : ℚ

namespace UsageTotals

/-- The totals of no record. -/
def zero : UsageTotals := ⟨0, 0, 0, 0, 0, 0⟩

/-- The totals with one more record. -/
def add (totals : UsageTotals) (record : UsageRecord) : UsageTotals where
  requests := totals.requests + record.requestCount
  streamedRequests := totals.streamedRequests + record.streamedRequestCount
  streamChunks := totals.streamChunks + record.streamChunkCount
  computeSeconds := totals.computeSeconds + record.computeSeconds
  occupancySeconds := totals.occupancySeconds + record.occupancySeconds
  p95Max := max totals.p95Max record.latencyMsP95

end UsageTotals

namespace Platform

/-- A deployment as it is shown. -/
def deploymentDump (p : Platform) (d : DeploymentId) (row : DeploymentRow) : DeploymentDump where
  deploymentId := d
  record := row.record
  createdByKeyId := (p.deploymentColumns d).createdByKeyId
  maxRuntimeMinutes := (p.deploymentColumns d).maxRuntimeMinutes
  createdAt := (p.deploymentColumns d).createdAt

/-- A workload as it is shown. -/
def workloadDump (p : Platform) (w : WorkloadId) (spec : WorkloadSpec) : WorkloadDump :=
  ⟨spec, p.workloadColumns w⟩

/-- `get_deployment` -/
def getDeployment (p : Platform) (d : DeploymentId) : Option DeploymentDump :=
  (p.fleet.deployments.get? d).map (p.deploymentDump d)

/-- `list_deployments` -/
def listDeployments (p : Platform) : List DeploymentDump :=
  p.fleet.deployments.rows.map fun row ↦ p.deploymentDump row.1 row.2

/-- `get_workload` -/
def getWorkload (p : Platform) (w : WorkloadId) : Option WorkloadDump :=
  (p.fleet.workloads.get? w).map (p.workloadDump w)

/-- `list_workloads` -/
def listWorkloads (p : Platform) : List WorkloadDump :=
  p.fleet.workloads.rows.map fun row ↦ p.workloadDump row.1 row.2

/-- `list_builds`: the build created last first. -/
def listBuilds (p : Platform) : List Build :=
  p.builds.insertionSort fun a b ↦ b.createdAt ≤ a.createdAt

/-- The leases of a miner that `list_leases` asks for. -/
def heldLeases (p : Platform) (hotkey : Hotkey) : List (DeploymentId × LeaseAssignment) :=
  (ControlPlaneRepository.listAssignments [.assigned, .activating, .active, .suspended]
    p.fleet).filter fun row ↦ row.2.hotkey = hotkey

/-- `list_leases`: each lease with its deployment's rank and name, where there is a deployment. -/
def listLeases (p : Platform) (hotkey : Hotkey) : List LeaseDump :=
  (p.heldLeases hotkey).map fun row ↦
    ⟨row.1, row.2, (p.fleet.deployments.get? row.1).bind fun _ ↦
      (p.deploymentColumns row.1).multiNode,
      (p.fleet.deployments.get? row.1).bind fun deployment ↦ deployment.record.name⟩

/-- `usage_summary` -/
def usageSummary (p : Platform) : Table DeploymentId UsageTotals :=
  p.usageRecords.foldl (fun totals record ↦ totals.insert record.deploymentId
    (((totals.get? record.deploymentId).getD .zero).add record)) .empty

end Platform

/-! ## The routes -/

/-- The GET routes under `/miner/v1`, with their path parameters. -/
inductive MinerRoute where
  | deployment (d : DeploymentId)
  | workload (w : WorkloadId)
  | leases (hotkey : Hotkey)
  | workloads
  | images
  | nodes
  | instances
  | jobs
  | inventory
  | metrics
  | activeInstances
  | stats
  | scores

/-- An item of the list of workloads. -/
structure WorkloadItem where
  workloadId : WorkloadId
  name : Text
  image : Text
  kind : Text

/-- An item of the list of builds. -/
structure ImageItem where
  buildId : Text
  image : Text
  status : Text

/-- An item of the list of nodes. -/
structure NodeItem where
  nodeId : NodeId
  hotkey : Hotkey
  payload : NodeCapability

/-- The answer of `miner_inventory`. -/
structure Inventory where
  workloads : List WorkloadDump
  deployments : List DeploymentDump
  nodes : List NodeCapability

/-- The answer of `miner_stats`. -/
structure MinerStats where
  deployments : ℕ
  leases : ℕ

/-- `_sse_stream`: an event for each item, and one that says there are no more. -/
def sseStream {α : Type} (items : List α) : List (Option α) := items.map some ++ [none]

namespace MinerRoute

/-- What each route answers when it does not refuse. -/
abbrev Reply : MinerRoute → Type
  | deployment _ => DeploymentDump
  | workload _ => WorkloadDump
  | leases _ => List LeaseDump
  | workloads => List (Option WorkloadItem)
  | images => List (Option ImageItem)
  | nodes => List (Option NodeItem)
  | instances => List (Option DeploymentDump)
  | jobs => List Json
  | inventory => Inventory
  | metrics => List (Option (DeploymentId × UsageTotals))
  | activeInstances => List DeploymentDump
  | stats => MinerStats
  | scores => List (Text × Json)

/-- `_feature_disabled` -/
def featureDisabled (feature : Text) : RouteError where
  status := 501
  detail := .obj [("status".toList, .str "disabled".toList), ("feature".toList, .str feature),
    ("reason".toList, .str "not implemented in greencompute-api".toList)]

/-- `_miner_owned_deployment`, for a caller who is known to be the miner. -/
def minerOwnedDeployment (hotkey : Hotkey) (d : DeploymentId) (p : Platform) :
    Except RouteError DeploymentDump :=
  match p.getDeployment d with
  | none => .error ⟨404, .str "deployment not found".toList⟩
  | some found =>
    if found.record.hotkey = some hotkey then .ok found
    else .error ⟨404, .str "deployment not found".toList⟩

/-- The answer of a route to a request that is authenticated as a miner's. -/
def answer (hotkey : Hotkey) (p : Platform) : (route : MinerRoute) → Except RouteError route.Reply
  | deployment d => minerOwnedDeployment hotkey d p
  | workload w => match p.getWorkload w with
    | none => .error ⟨404, .str "workload not found".toList⟩
    | some found => .ok found
  | leases hotkey' =>
    -- The request must be signed by the miner whose leases it asks for.
    if hotkey ≠ hotkey' then .error ⟨403, .str "miner hotkey mismatch".toList⟩
    else .ok (p.listLeases hotkey')
  | workloads => .ok (sseStream (p.listWorkloads.map fun w ↦
      ⟨w.spec.workloadId, w.columns.name, w.columns.image, w.spec.kind.value⟩))
  | images => .ok (sseStream (p.listBuilds.map fun b ↦ ⟨b.buildId, b.image, b.status⟩))
  | nodes => .ok (sseStream ((ControlPlaneRepository.listNodes p.fleet).map fun n ↦
      ⟨n.nodeId, n.hotkey, n⟩))
  | instances => .ok (sseStream p.listDeployments)
  | jobs => .error (featureDisabled "miner_jobs".toList)
  | inventory => .ok ⟨p.listWorkloads, p.listDeployments, ControlPlaneRepository.listNodes p.fleet⟩
  | metrics => .ok (sseStream p.usageSummary.rows)
  | activeInstances => .ok (p.listDeployments.filter fun d ↦ d.record.state = .ready)
  | stats => .ok ⟨p.listDeployments.length, p.fleet.leases.rows.length⟩
  | scores => .ok []

end MinerRoute

/-! ## What is secret from a miner -/

/-- A record without what lets one into the deployment. -/
def DeploymentRecord.masked (record : DeploymentRecord) : DeploymentRecord :=
  { record with endpoint := none, sshPrivateKey := none, portMappings := [] }

namespace Platform

variable {p q : Platform} {h : Hotkey}

/-- The miner holds a lease of the workload. -/
def HoldsLease (p : Platform) (h : Hotkey) (w : WorkloadId) : Prop :=
  ∃ row ∈ p.heldLeases h, row.2.workloadId = w

instance (p : Platform) (h : Hotkey) (w : WorkloadId) : Decidable (p.HoldsLease h w) :=
  inferInstanceAs (Decidable (∃ row ∈ p.heldLeases h, row.2.workloadId = w))

/-- The database with other records and other metadata, where they are secret from the miner: the
records of deployments that are not placed on it, and the metadata of workloads that it holds no
lease of. -/
def rewriteSecrets (p : Platform) (h : Hotkey) (record : DeploymentRecord → DeploymentRecord)
    (metadata : Metadata → Metadata) : Platform :=
  { p with
    fleet := { p.fleet with
      deployments := p.fleet.deployments.map fun _ row ↦
        if row.record.hotkey = some h then row else { row with record := record row.record }
      workloads := p.fleet.workloads.map fun w spec ↦
        if p.HoldsLease h w then spec else { spec with metadata := metadata spec.metadata } } }

/-- The database with every secret of the other miners' tenants blanked out. -/
def mask (h : Hotkey) (p : Platform) : Platform :=
  p.rewriteSecrets h DeploymentRecord.masked fun _ ↦ []

/-- The two databases differ in nothing but such secrets. -/
def Alike (h : Hotkey) (p q : Platform) : Prop := mask h p = mask h q

/-- What the route shows whole is the miner's own: the deployments are placed on it, and it holds a
lease of the workloads. -/
def Confined (h : Hotkey) (p : Platform) : MinerRoute → Prop
  | .workload w => ∀ spec, p.fleet.workloads.get? w = some spec → p.HoldsLease h w
  | .instances => ∀ d row, p.fleet.deployments.get? d = some row → row.record.hotkey = some h
  | .activeInstances => ∀ d row, p.fleet.deployments.get? d = some row →
      row.record.state = .ready → row.record.hotkey = some h
  | .inventory =>
    (∀ d row, p.fleet.deployments.get? d = some row → row.record.hotkey = some h) ∧
      ∀ w spec, p.fleet.workloads.get? w = some spec → p.HoldsLease h w
  | _ => True

/-! ## Other secrets in the same database -/

section rewriting

variable {record : DeploymentRecord → DeploymentRecord} {metadata : Metadata → Metadata}

private theorem hotkey_eq (hrecord : ∀ r, (record r).masked = r.masked) (r : DeploymentRecord) :
    (record r).hotkey = r.hotkey := by
  have h : (record r).masked.hotkey = r.masked.hotkey := by rw [hrecord]
  exact h

private theorem name_eq (hrecord : ∀ r, (record r).masked = r.masked) (r : DeploymentRecord) :
    (record r).name = r.name := by
  have h : (record r).masked.name = r.masked.name := by rw [hrecord]
  exact h

private theorem state_eq (hrecord : ∀ r, (record r).masked = r.masked) (r : DeploymentRecord) :
    (record r).state = r.state := by
  have h : (record r).masked.state = r.masked.state := by rw [hrecord]
  exact h

theorem deployments_rewriteSecrets :
    (p.rewriteSecrets h record metadata).fleet.deployments = p.fleet.deployments.map fun _ row ↦
      if row.record.hotkey = some h then row else { row with record := record row.record } := rfl

theorem workloads_rewriteSecrets :
    (p.rewriteSecrets h record metadata).fleet.workloads = p.fleet.workloads.map fun w spec ↦
      if p.HoldsLease h w then spec else { spec with metadata := metadata spec.metadata } := rfl

theorem holdsLease_rewriteSecrets (w : WorkloadId) :
    (p.rewriteSecrets h record metadata).HoldsLease h w ↔ p.HoldsLease h w := Iff.rfl

theorem mask_rewriteSecrets (hrecord : ∀ r, (record r).masked = r.masked) :
    mask h (p.rewriteSecrets h record metadata) = mask h p := by
  have hdeployments : (mask h (p.rewriteSecrets h record metadata)).fleet.deployments =
      (mask h p).fleet.deployments := by
    rw [mask, mask, deployments_rewriteSecrets, deployments_rewriteSecrets,
      deployments_rewriteSecrets, Table.map_map]
    refine Table.map_congr fun d row _ ↦ ?_
    by_cases hown : row.record.hotkey = some h
    · simp only [hown, if_true]
    · simp only [hown, hotkey_eq hrecord, if_false, hrecord]
  have hworkloads : (mask h (p.rewriteSecrets h record metadata)).fleet.workloads =
      (mask h p).fleet.workloads := by
    rw [mask, mask, workloads_rewriteSecrets, workloads_rewriteSecrets, workloads_rewriteSecrets,
      Table.map_map]
    refine Table.map_congr fun w spec _ ↦ ?_
    by_cases hheld : p.HoldsLease h w
    · simp only [holdsLease_rewriteSecrets, hheld, if_true]
    · simp only [holdsLease_rewriteSecrets, hheld, if_false]
  have hfleet : (mask h (p.rewriteSecrets h record metadata)).fleet = (mask h p).fleet := by
    calc (mask h (p.rewriteSecrets h record metadata)).fleet
        = { p.fleet with
            deployments := (mask h (p.rewriteSecrets h record metadata)).fleet.deployments
            workloads := (mask h (p.rewriteSecrets h record metadata)).fleet.workloads } := rfl
      _ = (mask h p).fleet := by rw [hdeployments, hworkloads]; rfl
  calc mask h (p.rewriteSecrets h record metadata)
      = { p with fleet := (mask h (p.rewriteSecrets h record metadata)).fleet } := rfl
    _ = mask h p := by rw [hfleet]; rfl

/-- A statement about where the deployments are, and in which state, is about no secret. -/
private theorem forall_deployments (hrecord : ∀ r, (record r).masked = r.masked)
    (P : Option Hotkey → DeploymentState → Prop) :
    (∀ d row, (p.rewriteSecrets h record metadata).fleet.deployments.get? d = some row →
        P row.record.hotkey row.record.state) ↔
      ∀ d row, p.fleet.deployments.get? d = some row → P row.record.hotkey row.record.state := by
  refine forall_congr' fun d ↦ ?_
  rw [deployments_rewriteSecrets, Table.get?_map]
  cases p.fleet.deployments.get? d with
  | none => simp
  | some row =>
    by_cases hown : row.record.hotkey = some h
    · simp [hown]
    · simp [hown, hotkey_eq hrecord, state_eq hrecord]

private theorem forall_workloads (P : WorkloadId → Prop) (w : WorkloadId) :
    (∀ spec, (p.rewriteSecrets h record metadata).fleet.workloads.get? w = some spec → P w) ↔
      ∀ spec, p.fleet.workloads.get? w = some spec → P w := by
  rw [workloads_rewriteSecrets, Table.get?_map]
  cases p.fleet.workloads.get? w with
  | none => simp
  | some spec => simp

theorem confined_rewriteSecrets (hrecord : ∀ r, (record r).masked = r.masked)
    (route : MinerRoute) :
    (p.rewriteSecrets h record metadata).Confined h route ↔ p.Confined h route := by
  cases route with
  | workload w => exact forall_workloads (p.HoldsLease h) w
  | instances => exact forall_deployments hrecord fun hotkey _ ↦ hotkey = some h
  | activeInstances =>
    exact forall_deployments hrecord fun hotkey state ↦ state = .ready → hotkey = some h
  | inventory =>
    exact and_congr (forall_deployments hrecord fun hotkey _ ↦ hotkey = some h)
      (forall_congr' fun w ↦ forall_workloads (p.HoldsLease h) w)
  | _ => exact Iff.rfl

/-! ## What each route shows of them -/

/-- The deployments that are listed are the same exactly if no secret among them changed. -/
theorem listDeployments_filter_eq_iff (hrecord : ∀ r, (record r).masked = r.masked)
    (P : DeploymentState → Bool) :
    ((p.rewriteSecrets h record metadata).listDeployments.filter fun d ↦ P d.record.state) =
        (p.listDeployments.filter fun d ↦ P d.record.state) ↔
      ∀ d row, p.fleet.deployments.get? d = some row → P row.record.state = true →
        row.record.hotkey ≠ some h → record row.record = row.record := by
  have hlist : ((p.rewriteSecrets h record metadata).listDeployments.filter
      fun d ↦ P d.record.state) =
        (p.fleet.deployments.rows.filter fun row ↦ P row.2.record.state).map fun row ↦
          p.deploymentDump row.1 (if row.2.record.hotkey = some h then row.2
            else { row.2 with record := record row.2.record }) := by
    rw [listDeployments, deployments_rewriteSecrets, Table.map, List.map_map, List.filter_map]
    congr 1
    refine List.filter_congr fun row _ ↦ ?_
    by_cases hown : row.2.record.hotkey = some h
    · simp [hown, deploymentDump]
    · simp [hown, deploymentDump, state_eq hrecord]
  have hlist' : (p.listDeployments.filter fun d ↦ P d.record.state) =
      (p.fleet.deployments.rows.filter fun row ↦ P row.2.record.state).map fun row ↦
        p.deploymentDump row.1 row.2 := List.filter_map
  rw [hlist, hlist', List.map_inj_left]
  constructor
  · intro heq d row hrow hP hown
    have hdump := heq (d, row) (List.mem_filter.mpr ⟨Table.mem_rows_iff.mpr hrow, hP⟩)
    rw [if_neg hown] at hdump
    exact congrArg DeploymentDump.record hdump
  · intro heq row hrow
    obtain ⟨hmem, hP⟩ := List.mem_filter.mp hrow
    by_cases hown : row.2.record.hotkey = some h
    · rw [if_pos hown]
    · rw [if_neg hown, heq _ _ (Table.mem_rows_iff.mp hmem) hP hown]

/-- The workloads that are listed are the same exactly if no secret among them changed. -/
theorem listWorkloads_eq_iff :
    (p.rewriteSecrets h record metadata).listWorkloads = p.listWorkloads ↔
      ∀ w spec, p.fleet.workloads.get? w = some spec → ¬p.HoldsLease h w →
        metadata spec.metadata = spec.metadata := by
  have hlist : (p.rewriteSecrets h record metadata).listWorkloads =
      p.fleet.workloads.rows.map fun row ↦ p.workloadDump row.1 (if p.HoldsLease h row.1 then row.2
        else { row.2 with metadata := metadata row.2.metadata }) := by
    rw [listWorkloads, workloads_rewriteSecrets, Table.map, List.map_map]
    rfl
  rw [hlist, listWorkloads, List.map_inj_left]
  constructor
  · intro heq w spec hspec hheld
    have hdump := heq (w, spec) (Table.mem_rows_iff.mpr hspec)
    rw [if_neg hheld] at hdump
    exact congrArg WorkloadSpec.metadata (congrArg WorkloadDump.spec hdump)
  · intro heq row hrow
    by_cases hheld : p.HoldsLease h row.1
    · rw [if_pos hheld]
    · rw [if_neg hheld, heq _ _ (Table.mem_rows_iff.mp hrow) hheld]

theorem listDeployments_eq_iff (hrecord : ∀ r, (record r).masked = r.masked) :
    (p.rewriteSecrets h record metadata).listDeployments = p.listDeployments ↔
      ∀ d row, p.fleet.deployments.get? d = some row → row.record.hotkey ≠ some h →
        record row.record = row.record := by
  simpa only [List.filter_true, true_imp_iff] using
    listDeployments_filter_eq_iff hrecord fun _ ↦ true

theorem listLeases_rewriteSecrets (hrecord : ∀ r, (record r).masked = r.masked) (h' : Hotkey) :
    (p.rewriteSecrets h record metadata).listLeases h' = p.listLeases h' := by
  refine List.map_congr_left fun row _ ↦ ?_
  rw [deployments_rewriteSecrets, Table.get?_map]
  cases p.fleet.deployments.get? row.1 with
  | none => rfl
  | some found =>
    by_cases hown : found.record.hotkey = some h
    · simp [hown, rewriteSecrets]
    · simp [hown, rewriteSecrets, name_eq hrecord]

theorem minerOwnedDeployment_rewriteSecrets (hrecord : ∀ r, (record r).masked = r.masked)
    (d : DeploymentId) :
    MinerRoute.minerOwnedDeployment h d (p.rewriteSecrets h record metadata) =
      MinerRoute.minerOwnedDeployment h d p := by
  rw [MinerRoute.minerOwnedDeployment, MinerRoute.minerOwnedDeployment, getDeployment,
    getDeployment, deployments_rewriteSecrets, Table.get?_map]
  cases p.fleet.deployments.get? d with
  | none => rfl
  | some row =>
    by_cases hown : row.record.hotkey = some h
    · simp [hown, deploymentDump, rewriteSecrets]
    · simp [hown, deploymentDump, hotkey_eq hrecord]

/-- A route that shows whole only what is the miner's own answers the same. -/
theorem answer_rewriteSecrets (hrecord : ∀ r, (record r).masked = r.masked) {route : MinerRoute}
    (hconfined : p.Confined h route) :
    MinerRoute.answer h (p.rewriteSecrets h record metadata) route =
      MinerRoute.answer h p route := by
  cases route with
  | deployment d => exact minerOwnedDeployment_rewriteSecrets hrecord d
  | workload w =>
    have hget : (p.rewriteSecrets h record metadata).getWorkload w = p.getWorkload w := by
      rw [getWorkload, getWorkload, workloads_rewriteSecrets, Table.get?_map]
      cases hspec : p.fleet.workloads.get? w with
      | none => rfl
      | some spec =>
        have hheld : p.HoldsLease h w := hconfined spec hspec
        rw [Option.map_some, if_pos hheld]
        rfl
    simp only [MinerRoute.answer, hget]
  | leases h' => simp only [MinerRoute.answer, listLeases_rewriteSecrets hrecord]
  | workloads =>
    have hitems : (p.rewriteSecrets h record metadata).listWorkloads.map (fun w ↦
        (⟨w.spec.workloadId, w.columns.name, w.columns.image, w.spec.kind.value⟩ :
          WorkloadItem)) = p.listWorkloads.map fun w ↦
        ⟨w.spec.workloadId, w.columns.name, w.columns.image, w.spec.kind.value⟩ := by
      rw [listWorkloads, listWorkloads, workloads_rewriteSecrets, Table.map, List.map_map,
        List.map_map, List.map_map]
      refine List.map_congr_left fun row _ ↦ ?_
      by_cases hheld : p.HoldsLease h row.1
      · simp [hheld, workloadDump, rewriteSecrets]
      · simp [hheld, workloadDump, rewriteSecrets]
    exact congrArg (fun items ↦ Except.ok (sseStream items)) hitems
  | instances =>
    have hlist : (p.rewriteSecrets h record metadata).listDeployments = p.listDeployments :=
      (listDeployments_eq_iff hrecord).mpr fun d row hrow hown ↦ absurd (hconfined d row hrow) hown
    simp only [MinerRoute.answer, hlist]
  | inventory =>
    have hlist : (p.rewriteSecrets h record metadata).listDeployments = p.listDeployments :=
      (listDeployments_eq_iff hrecord).mpr fun d row hrow hown ↦
        absurd (hconfined.1 d row hrow) hown
    have hlist' : (p.rewriteSecrets h record metadata).listWorkloads = p.listWorkloads :=
      listWorkloads_eq_iff.mpr fun w spec hspec hheld ↦ absurd (hconfined.2 w spec hspec) hheld
    simp only [MinerRoute.answer, hlist, hlist']
    rfl
  | activeInstances =>
    have hready : ((p.rewriteSecrets h record metadata).listDeployments.filter
        fun d ↦ d.record.state = .ready) = p.listDeployments.filter fun d ↦ d.record.state = .ready :=
      (listDeployments_filter_eq_iff hrecord fun state ↦ state = .ready).mpr
        fun d row hrow hready hown ↦ absurd (hconfined d row hrow (of_decide_eq_true hready)) hown
    exact congrArg Except.ok hready
  | stats =>
    have hlength : (p.rewriteSecrets h record metadata).listDeployments.length =
        p.listDeployments.length := by
      rw [listDeployments, listDeployments, deployments_rewriteSecrets, Table.map, List.length_map,
        List.length_map, List.length_map]
    simp only [MinerRoute.answer, hlength]
    rfl
  | images | nodes | jobs | metrics | scores => rfl

/-- A route that shows more than that answers something else, once every secret is another. -/
theorem confined_of_answer_eq (hrecord : ∀ r, (record r).masked = r.masked)
    (hother : ∀ r, record r ≠ r) (hother' : ∀ m, metadata m ≠ m) {route : MinerRoute}
    (heq : MinerRoute.answer h (p.rewriteSecrets h record metadata) route =
      MinerRoute.answer h p route) :
    p.Confined h route := by
  cases route with
  | workload w =>
    intro spec hspec
    by_contra hheld
    simp only [MinerRoute.answer, getWorkload, workloads_rewriteSecrets, Table.get?_map, hspec,
      Option.map_some, if_neg hheld] at heq
    have hdump := Except.ok.inj heq
    exact hother' _ (congrArg (fun dump ↦ dump.spec.metadata) hdump)
  | instances =>
    intro d row hrow
    by_contra hown
    have hlist : (p.rewriteSecrets h record metadata).listDeployments = p.listDeployments :=
      (Option.some_injective _).list_map (List.append_cancel_right (Except.ok.inj heq))
    exact hother _ ((listDeployments_eq_iff hrecord).mp hlist d row hrow hown)
  | inventory =>
    have hinventory := Except.ok.inj heq
    refine ⟨fun d row hrow ↦ ?_, fun w spec hspec ↦ ?_⟩
    · by_contra hown
      exact hother _ ((listDeployments_eq_iff hrecord).mp
        (congrArg Inventory.deployments hinventory) d row hrow hown)
    · by_contra hheld
      exact hother' _ (listWorkloads_eq_iff.mp
        (congrArg Inventory.workloads hinventory) w spec hspec hheld)
  | activeInstances =>
    intro d row hrow hready
    by_contra hown
    exact hother _ ((listDeployments_filter_eq_iff hrecord fun state ↦ state = .ready).mp
      (Except.ok.inj heq) d row hrow (decide_eq_true hready) hown)
  | _ => trivial

end rewriting

/-- Another record, with another key. -/
def otherRecord (record : DeploymentRecord) : DeploymentRecord :=
  { record with
    sshPrivateKey := match record.sshPrivateKey with
      | none => some []
      | some _ => none }

/-- Other metadata. -/
def otherMetadata : Metadata → Metadata
  | [] => [([], .null)]
  | _ :: _ => []

theorem masked_masked (record : DeploymentRecord) : record.masked.masked = record.masked := rfl

theorem masked_otherRecord (record : DeploymentRecord) :
    (otherRecord record).masked = record.masked := rfl

theorem otherRecord_ne (record : DeploymentRecord) : otherRecord record ≠ record := by
  intro heq
  have hkey : (otherRecord record).sshPrivateKey = record.sshPrivateKey := by rw [heq]
  unfold otherRecord at hkey
  cases hsome : record.sshPrivateKey with
  | none => simp [hsome] at hkey
  | some key => simp [hsome] at hkey

theorem otherMetadata_ne (metadata : Metadata) : otherMetadata metadata ≠ metadata := by
  cases metadata with
  | nil => exact List.cons_ne_nil _ _
  | cons item items => exact (List.cons_ne_nil item items).symm

theorem Alike.confined_iff (halike : Alike h p q) (route : MinerRoute) :
    p.Confined h route ↔ q.Confined h route := by
  calc p.Confined h route
      ↔ (mask h p).Confined h route := (confined_rewriteSecrets masked_masked route).symm
    _ ↔ (mask h q).Confined h route := by rw [show mask h p = mask h q from halike]
    _ ↔ q.Confined h route := confined_rewriteSecrets masked_masked route

/-- The routes that show other miners' tenants are told apart by their secrets, at the databases
where there are any, and every other route answers the same whatever they are. -/
theorem disclosure_confined (h : Hotkey) (p : Platform) (route : MinerRoute) :
    (∀ q, Alike h p q → MinerRoute.answer h q route = MinerRoute.answer h p route) ↔
      p.Confined h route := by
  constructor
  · intro hsame
    have halike : Alike h p (p.rewriteSecrets h otherRecord otherMetadata) :=
      (mask_rewriteSecrets masked_otherRecord).symm
    exact confined_of_answer_eq masked_otherRecord otherRecord_ne otherMetadata_ne (hsame _ halike)
  · intro hconfined q halike
    calc MinerRoute.answer h q route
        = MinerRoute.answer h (mask h q) route :=
          (answer_rewriteSecrets masked_masked ((halike.confined_iff route).mp hconfined)).symm
      _ = MinerRoute.answer h (mask h p) route := by rw [show mask h p = mask h q from halike]
      _ = MinerRoute.answer h p route := answer_rewriteSecrets masked_masked hconfined

/-- A pod that runs on miner 2, with its key. -/
private def tenantPod (key : Text) : DeploymentRecord where
  workloadId := "pod".toList
  name := none
  ownerUserId := some 1
  hotkey := some 2
  nodeId := some 3
  state := .ready
  requestedInstances := 1
  readyInstances := 1
  endpoint := some "10.0.0.2:2222".toList
  sshPrivateKey := some key
  portMappings := [(22, 2222)]
  sshHostKeys := []
  hourlyRateCents := 40
  saveOnExhaustion := true
  resumeOnTopup := false
  suspendedReason := none
  readyAt := some 0
  suspendedAt := none
  deploymentFeeUsd := 0
  feeAcknowledged := true
  warmupState := .ready
  lastError := none
  failureClass := none
  lastRetryReason := none
  retryCount := 0
  retryExhausted := false
  healthCheckFailures := 0
  updatedAt := 0

/-- A database with that pod alone. -/
private def tenantOf (key : Text) : Platform where
  fleet := { Fleet.empty with deployments := .ofRows [(5, ⟨tenantPod key, 0, some 0⟩)] (List.nodup_singleton 5) }
  workloadColumns _ := ⟨none, [], [], none, none, none, [], none, none, [], [], [], [], false, 0⟩
  deploymentColumns _ := ⟨none, none, none, 0⟩
  builds := []
  usageRecords := []

/-- Miner 1 reads the key of a pod on miner 2 off the list of instances. -/
theorem instances_disclose_keys :
    ¬∀ (h : Hotkey) (p q : Platform) (route : MinerRoute), Alike h p q →
      MinerRoute.answer h p route = MinerRoute.answer h q route := by
  intro hsame
  have halike (key key' : Text) : Alike 1 (tenantOf key) (tenantOf key') := rfl
  have hanswer := Except.ok.inj
    (hsame 1 _ _ .instances (halike "a key".toList "another".toList))
  have hkeys : some (some "a key".toList) = some (some "another".toList) :=
    congrArg (fun items ↦ items.head?.map fun item ↦
      item.bind fun dump ↦ dump.record.sshPrivateKey) hanswer
  exact absurd hkeys (by decide)

end Platform

end GreenCompute
