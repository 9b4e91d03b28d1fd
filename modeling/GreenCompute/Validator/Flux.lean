import GreenCompute.Validator.Catalog
import Mathlib.Data.List.Rotate
import Mathlib.Data.List.Sort
import Mathlib.Data.Rat.Floor

/-!
# Flux

Flux splits the GPUs of every node between inference and rentals, and decides which models of the
catalog the inference GPUs run. A pass rebalances one miner after the other; for each of its nodes
it assigns models, and then creates and terminates the node's replicas to match.

The pass is modelled from the moment at which the inventory has been mirrored and the demand and
the replica targets have been computed. Its last step reconciles the replicas that span several
nodes, one rank on each. Which ranks it retires and places is left open; what it does to them is
not.

Audit events, metrics and logs are left out. Rows whose workload Flux does not manage, or without a
model, are passed over wherever deployments are listed.
-/

namespace GreenCompute

abbrev ModelId := Text

/-! ## The state -/

/-- `FluxState`: what Flux knows of a node, under its hotkey and its id. A node without GPUs has
never been assigned a model. -/
structure FluxState where
  totalGpus : ℕ
  inferenceGpus : ℕ
  rentalGpus : ℕ
  idleGpus : ℕ
  inferenceAssignments : Table ModelId (List ℕ)
  unassigned : totalGpus = 0 → inferenceAssignments = .empty

/-- `NodeCapability` -/
structure FluxCapability where
  nodeId : NodeId
  gpuModel : Text
  gpuCount : ℕ
  availableGpus : ℕ
  vramGbPerGpu : ℕ
  observedAt : Option Time

/-- A row of `deployments`, as far as the catalog's replicas need it; whether it is a rank of a
replica that spans several nodes. -/
structure ReplicaRow where
  workloadId : WorkloadId
  hotkey : Hotkey
  nodeId : NodeId
  state : Text
  multiNode : Bool
  updatedAt : Time

/-- The tables that Flux works on, and its maps. The catalog is in the order in which
`list_catalog_entries` lists it. -/
structure FluxStore where
  workloads : Table WorkloadId WorkloadRow
  deployments : Table DeploymentId ReplicaRow
  catalog : List ModelCatalogEntry
  capabilities : Table Hotkey (List FluxCapability)
  fluxStates : Table (Hotkey × NodeId) FluxState
  replicaCooldownUntil : Table (Hotkey × ModelId) Time
  now : Time
  drawn : ℕ
  fresh : ∀ id, drawn ≤ id → deployments.get? id = none

/-- The order in which a set is iterated over. -/
structure SetOrder where
  order : List ModelId → List ModelId
  perm : ∀ l, (order l).Perm l.dedup

theorem SetOrder.perm_dedup : ∀ l : List ModelId, l.dedup.Perm l.dedup := fun _ ↦ .refl _

/-- What the reconciliation of distributed replicas does: it retires a rank, or places one. -/
inductive RankOp where
  | retire (id : DeploymentId)
  | place (hotkey : Hotkey) (nodeId : NodeId) (workloadId : WorkloadId)

/-- What a pass is given: the settings, the scores of demand, the replica targets, the orders that
neither the queries nor the sets determine, and the plan for the distributed replicas. -/
structure FluxInput where
  inferenceFloorPct : ℚ
  rentalFloorPct : ℚ
  excludedGpuModels : List Text
  nodeInventoryTimeout : Time
  inferenceScore : Hotkey → ℚ
  rentalScore : Hotkey → ℚ
  replicaTarget : ModelId → ℕ
  scan : Scan
  sets : SetOrder
  distributedPlan : FluxStore → List RankOp

/-! ## The orchestrator -/

namespace FluxOrchestrator

/-- A row's defaults in `_catalog_from_orm`. -/
def catalogFromOrm (row : ModelCatalogEntry) : ModelCatalogEntry :=
  { row with
    minVramGbPerGpu := if row.minVramGbPerGpu = 0 then 24 else row.minVramGbPerGpu
    gpuCount := if row.gpuCount = 0 then 1 else row.gpuCount }

/-- The GPUs assigned so far, by model, and the first one that is not. -/
abbrev Assignment := Table ModelId (List ℕ) × ℕ

/-- The next block of GPUs. -/
def block (a : Assignment) (entry : ModelCatalogEntry) : List ℕ :=
  List.range' a.2 entry.gpuCount

/-- Step 1: a model that the node already serves keeps its place, if it fits. -/
def pin (gpus : ℕ) (eligible : Table ModelId ModelCatalogEntry) (a : Assignment)
    (modelId : ModelId) : Assignment :=
  match eligible.get? modelId with
  | none => a
  | some entry =>
    if gpus < a.2 + entry.gpuCount then a
    else (a.1.insert modelId (block a entry), a.2 + entry.gpuCount)

/-- `_deficit` -/
def deficit (targets : Table ModelId ℕ) (a : Assignment) (entry : ModelCatalogEntry) : ℤ :=
  ((targets.get? entry.modelId).getD 0 : ℤ) -
    (((a.1.get? entry.modelId).getD []).length / max 1 entry.gpuCount : ℕ)

/-- The next model when there are targets: the one with the biggest deficit that fits. -/
def candidate (gpus : ℕ) (eligible : List ModelCatalogEntry) (targets : Table ModelId ℕ)
    (a : Assignment) : Option ModelCatalogEntry :=
  (eligible.insertionSort fun (e e' : ModelCatalogEntry) ↦
    deficit targets a e' < deficit targets a e ∨
      deficit targets a e' = deficit targets a e ∧ e.modelId ≤ e'.modelId).find? fun e ↦
        e.gpuCount ≤ gpus - a.2 ∧ 0 < deficit targets a e

/-- Assign the next block to a model. -/
def extend (a : Assignment) (entry : ModelCatalogEntry) : Assignment :=
  (a.1.insert entry.modelId ((a.1.get? entry.modelId).getD [] ++ block a entry),
    a.2 + entry.gpuCount)

/-- Step 2 with targets: every block takes at least one GPU, so there are no more of them than
there are GPUs. -/
def fillTargets (gpus : ℕ) (eligible : List ModelCatalogEntry) (targets : Table ModelId ℕ) :
    ℕ → Assignment → Assignment
  | 0, a => a
  | blocks + 1, a =>
    if a.2 < gpus then
      match candidate gpus eligible targets a with
      | none => a
      | some entry => fillTargets gpus eligible targets blocks (extend a entry)
    else a

/-- Step 2 without targets: the models in turn, `rotation` of them having had theirs. -/
def fillRotating (gpus : ℕ) (eligible : List ModelCatalogEntry) : ℕ → ℕ → Assignment → Assignment
  | 0, _, a => a
  | blocks + 1, rotation, a =>
    if a.2 < gpus then
      match (eligible.rotate rotation).findIdx? fun e ↦ e.gpuCount ≤ gpus - a.2 with
      | none => a
      | some skipped =>
        match (eligible.rotate rotation)[skipped]? with
        | none => a
        | some entry => fillRotating gpus eligible blocks (rotation + skipped + 1) (extend a entry)
    else a

/-- Once there are as many blocks as GPUs left, more of them change nothing. -/
theorem fillTargets_succ {gpus : ℕ} {eligible : List ModelCatalogEntry}
    (hpos : ∀ e ∈ eligible, 0 < e.gpuCount) (targets : Table ModelId ℕ) (blocks : ℕ)
    {a : Assignment} (h : gpus ≤ a.2 + blocks) :
    fillTargets gpus eligible targets (blocks + 1) a = fillTargets gpus eligible targets blocks a := by
  induction blocks generalizing a with
  | zero =>
    have hdone : ¬a.2 < gpus := Nat.not_lt.mpr h
    simp only [fillTargets, if_neg hdone]
  | succ blocks ih =>
    rw [fillTargets, fillTargets.eq_def gpus eligible targets (blocks + 1)]
    dsimp only
    split_ifs
    · cases hcandidate : candidate gpus eligible targets a with
      | none => rfl
      | some e =>
        rw [candidate] at hcandidate
        have he := hpos e ((List.mem_insertionSort _).mp (List.mem_of_find?_eq_some hcandidate))
        refine ih ?_
        change gpus ≤ a.2 + e.gpuCount + blocks
        omega
    · rfl

theorem fillRotating_succ {gpus : ℕ} {eligible : List ModelCatalogEntry}
    (hpos : ∀ e ∈ eligible, 0 < e.gpuCount) (blocks rotation : ℕ) {a : Assignment}
    (h : gpus ≤ a.2 + blocks) :
    fillRotating gpus eligible (blocks + 1) rotation a =
      fillRotating gpus eligible blocks rotation a := by
  induction blocks generalizing rotation a with
  | zero =>
    have hdone : ¬a.2 < gpus := Nat.not_lt.mpr h
    simp only [fillRotating, if_neg hdone]
  | succ blocks ih =>
    rw [fillRotating, fillRotating.eq_def gpus eligible (blocks + 1)]
    dsimp only
    split_ifs
    · split
      · rfl
      · split
        · rfl
        · next e hentry =>
          have he := hpos e (List.mem_rotate.mp (List.mem_of_getElem? hentry))
          refine ih _ ?_
          change gpus ≤ a.2 + e.gpuCount + blocks
          omega
    · rfl

/-- `assign_catalog_models` -/
def assignCatalogModels (inferenceGpuCount vramGbPerGpu : ℕ) (catalog : List ModelCatalogEntry)
    (replicaTargets : Table ModelId ℕ) (pinned : List ModelId) : Table ModelId (List ℕ) :=
  let eligible := catalog.filter fun e ↦
    e.minVramGbPerGpu ≤ vramGbPerGpu ∧ e.gpuCount ≤ inferenceGpuCount
  let byId := eligible.foldl (fun t e ↦ t.insert e.modelId e) .empty
  let none : Assignment := (eligible.foldl (fun t e ↦ t.insert e.modelId []) .empty, 0)
  let kept := pinned.foldl (pin inferenceGpuCount byId) none
  let filled :=
    if replicaTargets.rows = [] then
      fillRotating inferenceGpuCount eligible inferenceGpuCount 0 kept
    else fillTargets inferenceGpuCount eligible replicaTargets inferenceGpuCount kept
  filled.1.filter fun _ gpus ↦ gpus ≠ []

/-- `rebalance`: only idle GPUs are reassigned. -/
def rebalance (input : FluxInput) (hotkey : Hotkey) (state : FluxState)
    (catalog : List ModelCatalogEntry) (vramGbPerGpu : Option ℕ)
    (replicaTargets : Table ModelId ℕ) (pinned : List ModelId) : FluxState :=
  if htotal : state.totalGpus = 0 then state
  else
    let inferenceFloor := max 1 ⌈state.totalGpus * input.inferenceFloorPct⌉₊
    let rentalFloor := max 1 ⌈state.totalGpus * input.rentalFloorPct⌉₊
    let flexPool := state.totalGpus - inferenceFloor - rentalFloor
    let lockedInference := min state.inferenceGpus state.totalGpus
    let lockedRental := min state.rentalGpus state.totalGpus
    let inferenceDemand := input.inferenceScore hotkey
    let totalDemand := inferenceDemand + input.rentalScore hotkey
    let flexToInference :=
      if 0 < totalDemand then ⌊flexPool * (inferenceDemand / totalDemand)⌋₊ else flexPool / 2
    let inferenceAdd := min (inferenceFloor + flexToInference - lockedInference) state.idleGpus
    let idle := state.idleGpus - inferenceAdd
    let rentalAdd := min (rentalFloor + (flexPool - flexToInference) - lockedRental) idle
    let newInference := lockedInference + inferenceAdd
    { state with
      inferenceGpus := newInference
      rentalGpus := lockedRental + rentalAdd
      idleGpus := idle - rentalAdd
      inferenceAssignments :=
        match vramGbPerGpu with
        | none => .empty
        | some vram =>
          if catalog = [] ∨ newInference = 0 then .empty
          else assignCatalogModels newInference vram catalog replicaTargets pinned
      unassigned := fun h ↦ absurd h htotal }

end FluxOrchestrator

/-! ## Deployments -/

/-- The model that a workload runs, where Flux manages it. -/
def managedModel (row : WorkloadRow) : Option ModelId :=
  match row.metadata.lookup "managed_by".toList, row.metadata.lookup "catalog_model_id".toList with
  | some (.str manager), some (.str modelId) =>
    if manager = "flux".toList ∧ modelId ≠ [] then some modelId else none
  | _, _ => none

/-- An entry of `list_flux_deployments`. -/
structure FluxDeployment where
  deploymentId : DeploymentId
  modelId : ModelId
  state : Text
  updatedAt : Time
  multiNode : Bool

/-- `live_states` -/
def liveStates : List Text :=
  ["ready".toList, "starting".toList, "pulling".toList, "scheduled".toList, "provisioning".toList,
    "pending".toList]

namespace FluxStore

/-- The model of a deployment. -/
def modelOf (s : FluxStore) (row : ReplicaRow) : Option ModelId :=
  (s.workloads.get? row.workloadId).bind managedModel

/-- `_list_flux_deployments` -/
def listFluxDeployments (s : FluxStore) (hotkey : Hotkey) (nodeId : Option NodeId)
    (includeTerminated : Bool) : List FluxDeployment :=
  (s.deployments.select fun _ row ↦ row.hotkey = hotkey ∧ (∀ n ∈ nodeId, row.nodeId = n) ∧
    (includeTerminated = true ∨ row.state ≠ "terminated".toList)).filterMap fun r ↦
      (s.modelOf r.2).map fun modelId ↦
        ⟨r.1, modelId, r.2.state, r.2.updatedAt, r.2.multiNode⟩

/-- `get_catalog_workload_id` -/
def catalogWorkloadId (s : FluxStore) (scan : Scan) (modelId : ModelId) : Option WorkloadId :=
  ((scan.order s.workloads.rows).find? fun row ↦ row.2.name = modelId).map Prod.fst

/-- `create_flux_deployment`; whether the deployment is a rank. -/
def createFluxDeployment (hotkey : Hotkey) (nodeId : NodeId) (workloadId : WorkloadId)
    (multiNode : Bool) (s : FluxStore) : FluxStore :=
  { s with
    deployments := s.deployments.insert s.drawn
      ⟨workloadId, hotkey, nodeId, "scheduled".toList, multiNode, s.now⟩
    drawn := s.drawn + 1
    fresh := by
      intro id hid
      have hid : s.drawn + 1 ≤ id := hid
      have hne : id ≠ s.drawn := (Nat.lt_of_succ_le hid).ne'
      rw [Table.get?_insert_ne _ hne]
      exact s.fresh id (Nat.le_of_succ_le hid) }

/-- `terminate_flux_deployment`, maybe by `force`. -/
def terminateFluxDeployment (id : DeploymentId) (force : Bool) (s : FluxStore) : FluxStore :=
  { s with
    deployments := s.deployments.modify id fun row ↦
      if row.state = "terminated".toList ∨ row.state = "failed".toList ∧ force = false then row
      else { row with state := "terminated".toList, updatedAt := s.now }
    fresh := by
      intro id' hid
      rw [Table.get?_modify, s.fresh id' hid]
      exact ite_self _ }

/-! ## Reconciling a node -/

/-- The cooldown after a failure: 15 minutes. -/
def cooldown : Time := 15 * 60

/-- A recent failure of a model on one of the hotkey's nodes begins its cooldown. -/
def armCooldown (hotkey : Hotkey) (s : FluxStore) (d : FluxDeployment) : FluxStore :=
  if (d.state = "failed".toList ∨ d.state = "terminated".toList) ∧ s.now - d.updatedAt < cooldown
  then
    let until_ := d.updatedAt + cooldown
    { s with
      replicaCooldownUntil := s.replicaCooldownUntil.insert (hotkey, d.modelId)
        (((s.replicaCooldownUntil.get? (hotkey, d.modelId)).map (max until_)).getD until_) }
  else s

/-- Provision a replica of a newly assigned model, unless the model is cooling down or has no
workload. -/
def provision (input : FluxInput) (hotkey : Hotkey) (nodeId : NodeId) (s : FluxStore)
    (modelId : ModelId) : FluxStore :=
  if ∃ t ∈ s.replicaCooldownUntil.get? (hotkey, modelId), s.now < t then s
  else
    match s.catalogWorkloadId input.scan modelId with
    | none => s
    | some workloadId => s.createFluxDeployment hotkey nodeId workloadId false

/-- `_reconcile_catalog_deployments` -/
def reconcileCatalogDeployments (input : FluxInput) (hotkey : Hotkey) (nodeId : NodeId)
    (new : FluxState) (s : FluxStore) : FluxStore :=
  let s := (s.listFluxDeployments hotkey none true).foldl (armCooldown hotkey) s
  let targetModels := new.inferenceAssignments.rows.map Prod.fst
  let existing := (s.listFluxDeployments hotkey (some nodeId) false).filter fun d ↦
    d.multiNode = false
  let existingModels := (existing.filter fun d ↦ d.state ∈ liveStates).map FluxDeployment.modelId
  let s := (existing.filter fun d ↦ d.modelId ∉ targetModels).foldl
    (fun s d ↦ s.terminateFluxDeployment d.deploymentId false) s
  (input.sets.order (targetModels.filter fun m ↦ m ∉ existingModels)).foldl
    (provision input hotkey nodeId) s

/-! ## Rebalancing -/

/-- `list_catalog_entries(visibility="public")` -/
def publicCatalog (s : FluxStore) : List ModelCatalogEntry :=
  (s.catalog.filter fun e ↦ e.visibility = "public".toList).map FluxOrchestrator.catalogFromOrm

/-- `compute_replica_targets`, for every public model. -/
def replicaTargets (input : FluxInput) (s : FluxStore) : Table ModelId ℕ :=
  s.publicCatalog.foldl (fun t e ↦ t.insert e.modelId (input.replicaTarget e.modelId)) .empty

/-- The live deployments of a model on the hotkey's nodes, ranks included. -/
def running (s : FluxStore) (hotkey : Hotkey) (modelId : ModelId) : ℕ :=
  ((s.listFluxDeployments hotkey none false).filter fun d ↦
    d.state ∈ liveStates ∧ d.modelId = modelId).length

/-- The models that a node serves. -/
def serving (s : FluxStore) (hotkey : Hotkey) (nodeId : NodeId) : List ModelId :=
  ((s.listFluxDeployments hotkey (some nodeId) false).filter fun d ↦
    d.state ∈ liveStates).map FluxDeployment.modelId

/-- What a node last advertised. -/
def capability (s : FluxStore) (hotkey : Hotkey) (nodeId : NodeId) : Option FluxCapability :=
  ((s.capabilities.get? hotkey).getD []).reverse.find? fun c ↦ c.nodeId = nodeId

/-- Whether a node's GPUs are kept from inference. -/
def excludes (input : FluxInput) (cap : Option FluxCapability) : Bool :=
  let gpuModel := (cap.map fun c ↦ c.gpuModel.lower).getD []
  gpuModel ≠ [] ∧ gpuModel ∈ input.excludedGpuModels

/-- A model that the node newly took has one unit less to be placed. -/
def consume (pinned : List ModelId) (remaining : Table ModelId ℕ) (r : ModelId × List ℕ) :
    Table ModelId ℕ :=
  if r.2 ≠ [] ∧ r.1 ∉ pinned then remaining.insert r.1 ((remaining.get? r.1).getD 0 - 1)
  else remaining

/-- One node of `rebalance_miner`, with the deficits that remain. -/
def rebalanceNode (input : FluxInput) (hotkey : Hotkey) (acc : Table ModelId ℕ × FluxStore)
    (node : NodeId × FluxState) : Table ModelId ℕ × FluxStore :=
  let (remaining, s) := acc
  let (nodeId, state) := node
  let cap := s.capability hotkey nodeId
  if excludes input cap then (remaining, s)
  else
    let pinned := input.sets.order (s.serving hotkey nodeId)
    let new := FluxOrchestrator.rebalance input hotkey state s.publicCatalog
      (cap.map FluxCapability.vramGbPerGpu) remaining pinned
    (new.inferenceAssignments.rows.foldl (consume pinned) remaining,
      reconcileCatalogDeployments input hotkey nodeId new
        { s with fluxStates := s.fluxStates.insert (hotkey, nodeId) new })

/-- `rebalance_miner`: the deficits of the models are what the hotkey's own deployments leave of
the targets. -/
def rebalanceMiner (input : FluxInput) (targets : Table ModelId ℕ) (hotkey : Hotkey)
    (s : FluxStore) : FluxStore :=
  let states := (s.fluxStates.select fun key _ ↦ key.1 = hotkey).map fun r ↦ (r.1.2, r.2)
  let remaining := targets.map fun modelId target ↦ target - s.running hotkey modelId
  (states.foldl (rebalanceNode input hotkey) (remaining, s)).2

/-- `_is_cap_fresh` -/
def isCapFresh (input : FluxInput) (now : Time) (cap : FluxCapability) : Bool :=
  match cap.observedAt with
  | none => false
  | some observedAt => now - observedAt ≤ input.nodeInventoryTimeout

/-- The state of a node that Flux has not seen yet. -/
def bootstrap (hotkey : Hotkey) (s : FluxStore) (cap : FluxCapability) : FluxStore :=
  if (s.fluxStates.get? (hotkey, cap.nodeId)).isSome then s
  else
    let available := min cap.availableGpus cap.gpuCount
    { s with
      fluxStates := s.fluxStates.insert (hotkey, cap.nodeId)
        { totalGpus := cap.gpuCount
          inferenceGpus := 0
          rentalGpus := cap.gpuCount - available
          idleGpus := available
          inferenceAssignments := .empty
          unassigned := fun _ ↦ rfl } }

/-- The nodes whose inventory is fresh. -/
def freshCaps (input : FluxInput) (s : FluxStore) : List (Hotkey × FluxCapability) :=
  s.capabilities.rows.flatMap fun r ↦
    (r.2.filter (isCapFresh input s.now)).map fun cap ↦ (r.1, cap)

/-- The states of stale nodes are dropped, and those of new nodes added. -/
def refreshStates (input : FluxInput) (s : FluxStore) : FluxStore :=
  let fresh := freshCaps input s
  let s := { s with
    fluxStates := s.fluxStates.filter fun key _ ↦
      key ∈ fresh.map fun r ↦ (r.1, r.2.nodeId) }
  fresh.foldl (fun s r ↦ bootstrap r.1 s r.2) s

/-- One step of `_reconcile_distributed_replicas`. Only ranks are retired, by force. -/
def reconcileRank (s : FluxStore) : RankOp → FluxStore
  | .retire id =>
    if ∃ row ∈ s.deployments.get? id, row.multiNode = true then s.terminateFluxDeployment id true
    else s
  | .place hotkey nodeId workloadId => s.createFluxDeployment hotkey nodeId workloadId true

/-- `_reconcile_distributed_replicas` -/
def reconcileDistributedReplicas (input : FluxInput) (s : FluxStore) : FluxStore :=
  (input.distributedPlan s).foldl reconcileRank s

/-- The hotkeys that have a node, in the order in which Flux first saw one of each. -/
def trackedHotkeys (s : FluxStore) : List Hotkey :=
  (s.fluxStates.rows.map fun r ↦ r.1.1).reverse.dedup.reverse

/-- `rebalance_all_miners` -/
def rebalanceAllMiners (input : FluxInput) (s : FluxStore) : FluxStore :=
  let s := refreshStates input s
  let targets := replicaTargets input s
  reconcileDistributedReplicas input
    (s.trackedHotkeys.foldl (fun s hotkey ↦ rebalanceMiner input targets hotkey s) s)

end FluxStore

end GreenCompute
