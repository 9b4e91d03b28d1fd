import GreenCompute.Validator.Flux
import Mathlib.Data.List.Dedup

/-!
# Replicas within their targets

How many replicas of a model a pass of Flux may leave in the fleet. Replicas are counted by where
they are: on which node, by which id, and whether they are ranks. Rebalancing a node changes the
count of a model by one at most, and only at that node.

The deficit of a model is shared out among the nodes of one hotkey. The next hotkey begins with a
deficit of its own, so the fleet's target is kept only where the hotkeys' deficits do not add up
to more than the fleet's.
-/

namespace GreenCompute

/-! ## What a node is assigned -/

namespace FluxOrchestrator

/-- Every model of an assignment is eligible, and one that has GPUs is pinned or lacks replicas. -/
def Backed (eligible : List ModelCatalogEntry) (targets : Table ModelId ℕ) (pinned : List ModelId)
    (a : Assignment) : Prop :=
  ∀ m gpus, a.1.get? m = some gpus →
    (∃ e ∈ eligible, e.modelId = m) ∧
      (gpus ≠ [] → m ∈ pinned ∨ 0 < (targets.get? m).getD 0)

variable {eligible : List ModelCatalogEntry} {targets : Table ModelId ℕ} {pinned : List ModelId}
  {a : Assignment}

theorem Backed.insert (h : Backed eligible targets pinned a) {e : ModelCatalogEntry}
    (he : e ∈ eligible) {gpus : List ℕ} (cursor : ℕ)
    (hgpus : gpus ≠ [] → e.modelId ∈ pinned ∨ 0 < (targets.get? e.modelId).getD 0) :
    Backed eligible targets pinned (a.1.insert e.modelId gpus, cursor) := by
  intro m gpus' hget
  rw [Table.get?_insert] at hget
  split at hget
  · next hm =>
    obtain rfl : gpus = gpus' := Option.some.inj hget
    rw [hm]
    exact ⟨⟨e, he, rfl⟩, hgpus⟩
  · exact h m gpus' hget

/-- To begin with, no model has GPUs. -/
theorem backed_start {l : List ModelCatalogEntry} (hl : ∀ e ∈ l, e ∈ eligible)
    {t : Table ModelId (List ℕ)} (h : Backed eligible targets pinned (t, 0)) :
    Backed eligible targets pinned (l.foldl (fun t e ↦ t.insert e.modelId []) t, 0) := by
  induction l generalizing t with
  | nil => exact h
  | cons e l ih =>
    refine ih (fun e' he' ↦ hl e' (List.mem_cons_of_mem _ he')) ?_
    exact h.insert (hl e List.mem_cons_self) 0 fun hne ↦ absurd rfl hne

/-- The eligible models by their ids. -/
theorem get?_byId {l : List ModelCatalogEntry} (hl : ∀ e ∈ l, e ∈ eligible)
    {t : Table ModelId ModelCatalogEntry}
    (ht : ∀ m e, t.get? m = some e → e ∈ eligible ∧ e.modelId = m) {m : ModelId}
    {e : ModelCatalogEntry} (h : (l.foldl (fun t e ↦ t.insert e.modelId e) t).get? m = some e) :
    e ∈ eligible ∧ e.modelId = m := by
  induction l generalizing t with
  | nil => exact ht m e h
  | cons e' l ih =>
    refine ih (fun e'' he'' ↦ hl e'' (List.mem_cons_of_mem _ he'')) ?_ h
    intro m' e'' hget
    rw [Table.get?_insert] at hget
    split at hget
    · next hm =>
      obtain rfl : e' = e'' := Option.some.inj hget
      exact ⟨hl e' List.mem_cons_self, hm.symm⟩
    · exact ht m' e'' hget

theorem Backed.pin (h : Backed eligible targets pinned a) {gpus : ℕ}
    {byId : Table ModelId ModelCatalogEntry}
    (hbyId : ∀ m e, byId.get? m = some e → e ∈ eligible ∧ e.modelId = m) {m : ModelId}
    (hm : m ∈ pinned) : Backed eligible targets pinned (pin gpus byId a m) := by
  unfold FluxOrchestrator.pin
  cases hentry : byId.get? m with
  | none => exact h
  | some e =>
    obtain ⟨he, rfl⟩ := hbyId m e hentry
    dsimp only
    split_ifs
    · exact h
    · exact h.insert he _ fun _ ↦ .inl hm

/-- Only a model that lacks replicas is a candidate. -/
theorem candidate_spec {gpus : ℕ} {e : ModelCatalogEntry}
    (h : candidate gpus eligible targets a = some e) :
    e ∈ eligible ∧ e.gpuCount ≤ gpus - a.2 ∧ 0 < (targets.get? e.modelId).getD 0 := by
  rw [candidate] at h
  have hmem := (List.mem_insertionSort _).mp (List.mem_of_find?_eq_some h)
  have hfound := List.find?_some h
  rw [decide_eq_true_eq] at hfound
  refine ⟨hmem, hfound.1, ?_⟩
  have hdeficit := hfound.2
  rw [deficit, sub_pos] at hdeficit
  exact Int.natCast_pos.mp ((Int.natCast_nonneg _).trans_lt hdeficit)

theorem Backed.fillTargets (h : Backed eligible targets pinned a) (gpus blocks : ℕ) :
    Backed eligible targets pinned (fillTargets gpus eligible targets blocks a) := by
  induction blocks generalizing a with
  | zero => exact h
  | succ blocks ih =>
    rw [FluxOrchestrator.fillTargets]
    split_ifs
    · cases hcandidate : candidate gpus eligible targets a with
      | none => exact h
      | some e =>
        obtain ⟨he, -, hlacks⟩ := candidate_spec hcandidate
        exact ih (h.insert he _ fun _ ↦ .inr hlacks)
    · exact h

theorem Backed.pinAll (h : Backed eligible targets pinned a) (gpus : ℕ)
    {byId : Table ModelId ModelCatalogEntry}
    (hbyId : ∀ m e, byId.get? m = some e → e ∈ eligible ∧ e.modelId = m) {models : List ModelId}
    (hmodels : ∀ m ∈ models, m ∈ pinned) :
    Backed eligible targets pinned (models.foldl (FluxOrchestrator.pin gpus byId) a) := by
  induction models generalizing a with
  | nil => exact h
  | cons m models ih =>
    exact ih (h.pin hbyId (hmodels m List.mem_cons_self)) fun m' hm' ↦
      hmodels m' (List.mem_cons_of_mem _ hm')

/-- `assign_catalog_models` gives GPUs only to models that fit, and that the node already serves or
that lack replicas. -/
theorem get?_assignCatalogModels {gpuCount vram : ℕ} {catalog : List ModelCatalogEntry}
    (htargets : targets.rows ≠ []) {m : ModelId} {gpus : List ℕ}
    (h : (assignCatalogModels gpuCount vram catalog targets pinned).get? m = some gpus) :
    gpus ≠ [] ∧
      (∃ e ∈ catalog, e.modelId = m ∧ e.minVramGbPerGpu ≤ vram ∧ e.gpuCount ≤ gpuCount) ∧
      (m ∈ pinned ∨ 0 < (targets.get? m).getD 0) := by
  simp only [assignCatalogModels, if_neg htargets] at h
  rw [Table.get?_filter, Option.filter_eq_some_iff, decide_eq_true_eq] at h
  set eligible := catalog.filter fun e ↦ e.minVramGbPerGpu ≤ vram ∧ e.gpuCount ≤ gpuCount
    with heligible
  have hstart : Backed eligible targets pinned
      (eligible.foldl (fun t e ↦ t.insert e.modelId []) .empty, 0) :=
    backed_start (fun _ he ↦ he) fun _ _ hsome ↦ absurd hsome (by simp)
  have hbyId : ∀ m e,
      (eligible.foldl (fun t e ↦ t.insert e.modelId e) (.empty : Table _ _)).get? m = some e →
        e ∈ eligible ∧ e.modelId = m :=
    fun m e ↦ get?_byId (fun _ he ↦ he) fun _ _ hsome ↦ absurd hsome (by simp)
  have hkept := hstart.pinAll gpuCount hbyId fun _ hm ↦ hm
  obtain ⟨⟨e, he, hid⟩, hbacked⟩ := hkept.fillTargets gpuCount gpuCount m gpus h.1
  rw [heligible, List.mem_filter, decide_eq_true_eq] at he
  exact ⟨h.2, ⟨e, he.1, hid, he.2⟩, hbacked h.2⟩

/-- What `rebalance` assigns to a node fits into the GPUs that inference has or may take there. -/
theorem get?_rebalance {input : FluxInput} {hotkey : Hotkey} {state : FluxState}
    {catalog : List ModelCatalogEntry} {vram : Option ℕ}
    (htargets : catalog ≠ [] → targets.rows ≠ []) {m : ModelId} {gpus : List ℕ}
    (h : (rebalance input hotkey state catalog vram targets pinned).inferenceAssignments.get? m =
      some gpus) :
    gpus ≠ [] ∧
      (∃ v ∈ vram, ∃ e ∈ catalog, e.modelId = m ∧ e.minVramGbPerGpu ≤ v ∧
        e.gpuCount ≤ state.inferenceGpus + state.idleGpus) ∧
      (m ∈ pinned ∨ 0 < (targets.get? m).getD 0) := by
  rw [rebalance] at h
  split at h
  · next htotal =>
    rw [state.unassigned htotal] at h
    exact absurd h (by simp)
  · cases vram with
    | none => exact absurd h (by simp)
    | some v =>
      dsimp only at h
      generalize (if 0 < input.inferenceScore hotkey + input.rentalScore hotkey then _ else _ : ℕ) =
        flexToInference at h
      split at h
      · exact absurd h (by simp)
      · next hcatalog =>
        obtain ⟨hne, ⟨e, he, hid, hvram, hcount⟩, hneed⟩ :=
          get?_assignCatalogModels (htargets fun hnil ↦ hcatalog (.inl hnil)) h
        refine ⟨hne, ⟨v, rfl, e, he, hid, hvram, hcount.trans ?_⟩, hneed⟩
        omega

end FluxOrchestrator

open FluxOrchestrator

namespace FluxStore

/-! ## Counting replicas -/

/-- Where a replica is: its id, its node, and whether it is a rank. -/
abbrev Place := DeploymentId → Hotkey × NodeId → Bool → Bool

/-- Any replica on a single node. -/
def single : Place := fun _ _ rank ↦ !rank

/-- Any replica of a hotkey. -/
def ofHotkey (hotkey : Hotkey) : Place := fun _ key _ ↦ key.1 = hotkey

/-- Any replica on a node. -/
def onNode (key : Hotkey × NodeId) : Place := fun _ key' _ ↦ key' = key

/-- A replica on one node and no other. -/
def singleOn (key : Hotkey × NodeId) : Place := fun _ key' rank ↦ key' = key ∧ rank = false

/-- A replica on one node, whose id was drawn later. -/
def newOn (drawn : ℕ) (key : Hotkey × NodeId) : Place := fun id key' rank ↦
  drawn ≤ id ∧ key' = key ∧ rank = false

/-- Whether a deployment is a live replica of a model at a place. -/
def isReplica (s : FluxStore) (m : ModelId) (p : Place) (id : DeploymentId) (row : ReplicaRow) :
    Bool :=
  row.state ∈ liveStates ∧ s.modelOf row = some m ∧ p id (row.hotkey, row.nodeId) row.multiNode

/-- The live replicas of a model at a place. -/
def replicas (s : FluxStore) (m : ModelId) (p : Place) : ℕ :=
  s.deployments.total fun id row ↦ if s.isReplica m p id row then 1 else 0

theorem replicas_pos_iff {s : FluxStore} {m : ModelId} {p : Place} :
    0 < s.replicas m p ↔
      ∃ id row, s.deployments.get? id = some row ∧ s.isReplica m p id row = true :=
  Table.total_pos_iff

theorem terminated_not_live : "terminated".toList ∉ liveStates := by decide

theorem scheduled_live : "scheduled".toList ∈ liveStates := by decide

/-- What `list_flux_deployments` lists. -/
theorem mem_listFluxDeployments {s : FluxStore} {hotkey : Hotkey} {nodeId : Option NodeId}
    {d : FluxDeployment} :
    d ∈ s.listFluxDeployments hotkey nodeId false ↔
      ∃ row, s.deployments.get? d.deploymentId = some row ∧
        (row.hotkey = hotkey ∧ (∀ n ∈ nodeId, row.nodeId = n) ∧ row.state ≠ "terminated".toList) ∧
        s.modelOf row = some d.modelId ∧ d.state = row.state ∧ d.updatedAt = row.updatedAt ∧
        d.multiNode = row.multiNode := by
  simp only [listFluxDeployments, List.mem_filterMap, Option.map_eq_some_iff, Prod.exists,
    Table.mem_select]
  constructor
  · rintro ⟨id, row, ⟨hget, hwhere⟩, modelId, hmodel, rfl⟩
    exact ⟨row, hget, by simpa using hwhere, hmodel, rfl, rfl, rfl⟩
  · rintro ⟨row, hget, hwhere, hmodel, hstate, htime, hrank⟩
    refine ⟨d.deploymentId, row, ⟨hget, by simpa using hwhere⟩, d.modelId, hmodel, ?_⟩
    rw [← hstate, ← htime, ← hrank]

/-- The models of the live deployments on a node, of those that are ranks or of those that are
not. -/
theorem mem_live_iff {s : FluxStore} {hotkey : Hotkey} {nodeId : NodeId} {m : ModelId}
    {q : Bool → Bool} :
    (∃ d ∈ s.listFluxDeployments hotkey (some nodeId) false,
      (d.state ∈ liveStates ∧ q d.multiNode = true) ∧ d.modelId = m) ↔
        0 < s.replicas m fun _ key rank ↦ key = (hotkey, nodeId) ∧ q rank = true := by
  rw [replicas_pos_iff]
  simp only [isReplica, mem_listFluxDeployments, decide_eq_true_eq, Prod.mk.injEq]
  constructor
  · rintro ⟨d, ⟨row, hget, ⟨hhotkey, hnode, -⟩, hmodel, hstate, -, hrank⟩, ⟨hlive, hq⟩, rfl⟩
    rw [hstate] at hlive
    rw [hrank] at hq
    exact ⟨d.deploymentId, row, hget, hlive, hmodel, ⟨hhotkey, hnode nodeId rfl⟩, hq⟩
  · rintro ⟨id, row, hget, hlive, hmodel, ⟨hhotkey, hnode⟩, hq⟩
    have hstate : row.state ≠ "terminated".toList := by
      intro hstate
      exact terminated_not_live (hstate ▸ hlive)
    refine ⟨⟨id, m, row.state, row.updatedAt, row.multiNode⟩,
      ⟨row, hget, ⟨hhotkey, ?_, hstate⟩, hmodel, rfl, rfl, rfl⟩, ⟨hlive, hq⟩, rfl⟩
    rintro n ⟨⟩
    exact hnode

theorem mem_serving {s : FluxStore} {hotkey : Hotkey} {nodeId : NodeId} {m : ModelId} :
    m ∈ s.serving hotkey nodeId ↔ 0 < s.replicas m (onNode (hotkey, nodeId)) := by
  rw [show onNode (hotkey, nodeId) = fun _ key rank ↦
    decide (key = (hotkey, nodeId) ∧ (fun _ ↦ true) rank = true) by simp [onNode, funext_iff],
    ← mem_live_iff]
  simp [serving, and_assoc]

/-- The models that `_reconcile_catalog_deployments` takes to exist on a node. -/
theorem mem_existing {s : FluxStore} {hotkey : Hotkey} {nodeId : NodeId} {m : ModelId} :
    m ∈ (((s.listFluxDeployments hotkey (some nodeId) false).filter fun d ↦
      d.multiNode = false).filter fun d ↦ d.state ∈ liveStates).map FluxDeployment.modelId ↔
        0 < s.replicas m (singleOn (hotkey, nodeId)) := by
  rw [show singleOn (hotkey, nodeId) = fun _ key rank ↦
    decide (key = (hotkey, nodeId) ∧ (!rank) = true) by simp [singleOn, funext_iff],
    ← mem_live_iff]
  simp [and_assoc, and_comm]

theorem running_eq (s : FluxStore) (hotkey : Hotkey) (m : ModelId) :
    s.running hotkey m = s.replicas m (ofHotkey hotkey) := by
  have hlength : s.running hotkey m =
      (s.listFluxDeployments hotkey none false).countP fun d ↦
        d.state ∈ liveStates ∧ d.modelId = m := (List.countP_eq_length_filter).symm
  rw [hlength, replicas, Table.total_ite_eq_countP, listFluxDeployments, List.countP_filterMap,
    Table.select, List.countP_filter]
  refine List.countP_congr fun r _ ↦ ?_
  cases hmodel : s.modelOf r.2 with
  | none => simp [isReplica, hmodel]
  | some modelId =>
    have hne : r.2.state ∈ liveStates → r.2.state ≠ "terminated".toList := by
      intro hlive hstate
      exact terminated_not_live (hstate ▸ hlive)
    simp only [isReplica, hmodel, ofHotkey, Option.map_some, Option.getD_some, Option.some.injEq,
      Option.mem_def, reduceCtorEq, IsEmpty.forall_iff, implies_true, true_and,
      Bool.false_eq_true, false_or, Bool.and_eq_true, decide_eq_true_eq]
    tauto

/-! ## What the operations do to the counts -/

/-- A deployment that is terminated is no longer a replica. -/
theorem isReplica_terminated (s : FluxStore) (m : ModelId) (p : Place) (id : DeploymentId)
    (row : ReplicaRow) (now : Time) :
    s.isReplica m p id { row with state := "terminated".toList, updatedAt := now } = false :=
  decide_eq_false fun h ↦ terminated_not_live h.1

/-- Whether a row is a replica depends on the workloads alone. -/
theorem isReplica_congr {s s' : FluxStore} (h : s'.workloads = s.workloads) :
    s'.isReplica = s.isReplica := by
  funext m p id row
  rw [isReplica, isReplica, modelOf, modelOf, h]

private theorem total_terminate (s : FluxStore) (id : DeploymentId) (force : Bool)
    (f : DeploymentId → ReplicaRow → ℕ) :
    (s.terminateFluxDeployment id force).deployments.total f =
      s.deployments.total fun id' row ↦ f id' (if id' = id then
        if row.state = "terminated".toList ∨ row.state = "failed".toList ∧ force = false then row
        else { row with state := "terminated".toList, updatedAt := s.now } else row) :=
  Table.total_map _ _ _

theorem replicas_terminate_le (s : FluxStore) (id : DeploymentId) (force : Bool) (m : ModelId)
    (p : Place) : (s.terminateFluxDeployment id force).replicas m p ≤ s.replicas m p := by
  have hreplica : (s.terminateFluxDeployment id force).isReplica = s.isReplica :=
    isReplica_congr rfl
  rw [replicas, replicas, hreplica, total_terminate]
  refine Table.total_le_total fun id' row _ ↦ ?_
  by_cases hid : id' = id
  · rw [if_pos hid]
    split
    · exact le_rfl
    · rw [isReplica_terminated]
      exact Nat.zero_le _
  · rw [if_neg hid]

/-- To terminate a deployment does nothing to the places that it is not at. -/
theorem replicas_terminate_eq (s : FluxStore) {id : DeploymentId} (force : Bool) (m : ModelId)
    {p : Place} (h : ∀ row, s.deployments.get? id = some row →
      p id (row.hotkey, row.nodeId) row.multiNode = false) :
    (s.terminateFluxDeployment id force).replicas m p = s.replicas m p := by
  have hreplica : (s.terminateFluxDeployment id force).isReplica = s.isReplica :=
    isReplica_congr rfl
  refine le_antisymm (replicas_terminate_le s id force m p) ?_
  rw [replicas, replicas, hreplica, total_terminate]
  refine Table.total_le_total fun id' row hget ↦ ?_
  by_cases hid : id' = id
  · subst hid
    have hnot : s.isReplica m p id' row = false :=
      decide_eq_false fun hr ↦ Bool.false_ne_true ((h row hget).symm.trans hr.2.2)
    rw [hnot]
    exact Nat.zero_le _
  · rw [if_neg hid]

/-- A new deployment counts at its place, where its workload is one of the model. -/
theorem replicas_create (s : FluxStore) (hotkey : Hotkey) (nodeId : NodeId)
    (workloadId : WorkloadId) (rank : Bool) (m : ModelId) (p : Place) :
    (s.createFluxDeployment hotkey nodeId workloadId rank).replicas m p =
      s.replicas m p +
        if (s.workloads.get? workloadId).bind managedModel = some m ∧
          p s.drawn (hotkey, nodeId) rank = true then 1 else 0 := by
  have hreplica : (s.createFluxDeployment hotkey nodeId workloadId rank).isReplica = s.isReplica :=
    isReplica_congr rfl
  rw [replicas, replicas, hreplica, createFluxDeployment, Table.total_insert,
    Table.total_of_get?_none (s.fresh _ le_rfl)]
  congr 1
  refine if_congr ?_ rfl rfl
  rw [isReplica, decide_eq_true_eq]
  exact and_iff_right scheduled_live

/-! ## Rebalancing one node -/

/-- What is done to some nodes: the counts change only for replicas that are on one of them and no
other, and so do Flux's maps. -/
structure Touches (nodes : Set (Hotkey × NodeId)) (s s' : FluxStore) : Prop where
  workloads : s'.workloads = s.workloads
  catalog : s'.catalog = s.catalog
  capabilities : s'.capabilities = s.capabilities
  elsewhere : ∀ h, (∀ n, (h, n) ∉ nodes) →
    (s'.fluxStates.select fun key _ ↦ key.1 = h) = s.fluxStates.select fun key _ ↦ key.1 = h
  drawn : s.drawn ≤ s'.drawn
  frame : ∀ m p, (∀ id, ∀ key ∈ nodes, p id key false = false) → s'.replicas m p = s.replicas m p

namespace Touches

variable {nodes nodes' : Set (Hotkey × NodeId)} {s s' s'' : FluxStore}

theorem refl (nodes : Set (Hotkey × NodeId)) (s : FluxStore) : Touches nodes s s :=
  ⟨rfl, rfl, rfl, fun _ _ ↦ rfl, le_rfl, fun _ _ _ ↦ rfl⟩

theorem trans (h : Touches nodes s s') (h' : Touches nodes s' s'') : Touches nodes s s'' where
  workloads := h'.workloads.trans h.workloads
  catalog := h'.catalog.trans h.catalog
  capabilities := h'.capabilities.trans h.capabilities
  elsewhere hk hne := (h'.elsewhere hk hne).trans (h.elsewhere hk hne)
  drawn := h.drawn.trans h'.drawn
  frame m p hp := (h'.frame m p hp).trans (h.frame m p hp)

theorem mono (h : Touches nodes s s') (hsub : nodes ⊆ nodes') : Touches nodes' s s' :=
  { h with
    elsewhere := fun hk hne ↦ h.elsewhere hk fun n hn ↦ hne n (hsub hn)
    frame := fun m p hp ↦ h.frame m p fun id key hkey ↦ hp id key (hsub hkey) }

end Touches

/-- What is done to one node: a model gets no more replicas than it is listed for. -/
structure NodeStep (hotkey : Hotkey) (nodeId : NodeId) (grown : List ModelId) (s s' : FluxStore) :
    Prop extends Touches {(hotkey, nodeId)} s s' where
  grows : ∀ m p, s'.replicas m p ≤ s.replicas m p + grown.count m

namespace NodeStep

variable {hotkey : Hotkey} {nodeId : NodeId} {grown grown' : List ModelId} {s s' s'' : FluxStore}

theorem refl (hotkey : Hotkey) (nodeId : NodeId) (s : FluxStore) : NodeStep hotkey nodeId [] s s :=
  ⟨.refl _ s, fun _ _ ↦ le_self_add⟩

theorem trans (h : NodeStep hotkey nodeId grown s s') (h' : NodeStep hotkey nodeId grown' s' s'') :
    NodeStep hotkey nodeId (grown ++ grown') s s'' where
  toTouches := h.toTouches.trans h'.toTouches
  grows m p := by
    rw [List.count_append]
    have hfirst := h.grows m p
    have hsecond := h'.grows m p
    omega

theorem mono (h : NodeStep hotkey nodeId grown s s')
    (hcount : ∀ m, grown.count m ≤ grown'.count m) : NodeStep hotkey nodeId grown' s s' :=
  { h with grows := fun m p ↦ (h.grows m p).trans (Nat.add_le_add_left (hcount m) _) }

/-- A change to Flux's own maps. -/
theorem of_maps (hdeployments : s'.deployments = s.deployments)
    (hworkloads : s'.workloads = s.workloads) (hcatalog : s'.catalog = s.catalog)
    (hcapabilities : s'.capabilities = s.capabilities) (hdrawn : s'.drawn = s.drawn)
    (helsewhere : ∀ h ≠ hotkey, (s'.fluxStates.select fun key _ ↦ key.1 = h) =
      s.fluxStates.select fun key _ ↦ key.1 = h) : NodeStep hotkey nodeId [] s s' := by
  have hreplicas : ∀ m p, s'.replicas m p = s.replicas m p := by
    intro m p
    rw [replicas, replicas, isReplica_congr hworkloads, hdeployments]
  refine ⟨⟨hworkloads, hcatalog, hcapabilities, fun h hne ↦ helsewhere h ?_, hdrawn.ge,
    fun m p _ ↦ hreplicas m p⟩, fun m p ↦ (hreplicas m p).le.trans le_self_add⟩
  rintro rfl
  exact hne nodeId rfl

end NodeStep

/-- The deployment under an id, if there is one, is a replica on one node and no other. -/
def IsSingleOn (s : FluxStore) (hotkey : Hotkey) (nodeId : NodeId) (id : DeploymentId) : Prop :=
  ∀ row, s.deployments.get? id = some row →
    row.hotkey = hotkey ∧ row.nodeId = nodeId ∧ row.multiNode = false

theorem nodeStep_terminate {s : FluxStore} {hotkey : Hotkey} {nodeId : NodeId} {id : DeploymentId}
    (h : s.IsSingleOn hotkey nodeId id) (force : Bool) :
    NodeStep hotkey nodeId [] s (s.terminateFluxDeployment id force) where
  workloads := rfl
  catalog := rfl
  capabilities := rfl
  elsewhere _ _ := rfl
  drawn := le_rfl
  frame m p hp := by
    refine replicas_terminate_eq s force m fun row hget ↦ ?_
    obtain ⟨rfl, rfl, hrank⟩ := h row hget
    rw [hrank]
    exact hp id _ rfl
  grows m p := (replicas_terminate_le s id force m p).trans le_self_add

/-- A deployment stays where it is when another one, or it itself, is terminated. -/
theorem IsSingleOn.terminate {s : FluxStore} {hotkey : Hotkey} {nodeId : NodeId}
    {id : DeploymentId} (h : s.IsSingleOn hotkey nodeId id) (id' : DeploymentId) (force : Bool) :
    (s.terminateFluxDeployment id' force).IsSingleOn hotkey nodeId id := by
  intro row hget
  obtain ⟨row₀, hget₀, rfl⟩ := Option.map_eq_some_iff.mp ((Table.get?_map _ _ _).symm.trans hget)
  have hsingle := h row₀ hget₀
  dsimp only
  split_ifs
  all_goals exact hsingle

theorem nodeStep_terminate_all {hotkey : Hotkey} {nodeId : NodeId} (ds : List FluxDeployment)
    {s : FluxStore} (h : ∀ d ∈ ds, s.IsSingleOn hotkey nodeId d.deploymentId) :
    NodeStep hotkey nodeId [] s
      (ds.foldl (fun s d ↦ s.terminateFluxDeployment d.deploymentId false) s) := by
  induction ds generalizing s with
  | nil => exact .refl hotkey nodeId s
  | cons d ds ih =>
    have hfirst := nodeStep_terminate (h d List.mem_cons_self) false
    have hrest := ih fun d' hd' ↦
      (h d' (List.mem_cons_of_mem _ hd')).terminate d.deploymentId false
    exact hfirst.trans hrest

/-- The workload that the pass finds under the name of a public model is, where Flux manages it,
one of that model. -/
def Named (scan : Scan) (s : FluxStore) : Prop :=
  ∀ e ∈ s.publicCatalog, ∀ id ∈ s.catalogWorkloadId scan e.modelId,
    ∀ m ∈ (s.workloads.get? id).bind managedModel, m = e.modelId

theorem nodeStep_provision {input : FluxInput} {s : FluxStore} {hotkey : Hotkey} {nodeId : NodeId}
    {modelId : ModelId} (hnamed : s.Named input.scan)
    (hpublic : ∃ e ∈ s.publicCatalog, e.modelId = modelId) :
    NodeStep hotkey nodeId [modelId] s (provision input hotkey nodeId s modelId) := by
  have hidle : NodeStep hotkey nodeId [modelId] s s :=
    (NodeStep.refl hotkey nodeId s).mono fun m ↦ Nat.zero_le _
  unfold provision
  split
  · exact hidle
  · cases hworkload : s.catalogWorkloadId input.scan modelId with
    | none => exact hidle
    | some workloadId =>
      obtain ⟨e, he, rfl⟩ := hpublic
      refine ⟨⟨rfl, rfl, rfl, fun _ _ ↦ rfl, Nat.le_succ _, fun m p hp ↦ ?_⟩, fun m p ↦ ?_⟩
      · rw [replicas_create, hp _ _ rfl]
        simp
      · rw [replicas_create]
        refine Nat.add_le_add_left ?_ _
        split
        · next hmodel =>
          rw [hnamed e he workloadId hworkload m hmodel.1]
          simp
        · exact Nat.zero_le _

theorem Touches.named {scan : Scan} {nodes : Set (Hotkey × NodeId)} {s s' : FluxStore}
    (h : Touches nodes s s') (hnamed : s.Named scan) : s'.Named scan := by
  intro e he id hid
  rw [publicCatalog, h.catalog] at he
  rw [catalogWorkloadId, h.workloads] at hid
  rw [h.workloads]
  exact hnamed e he id hid

theorem nodeStep_provision_all {input : FluxInput} {hotkey : Hotkey} {nodeId : NodeId}
    (models : List ModelId) {s : FluxStore} (hnamed : s.Named input.scan)
    (hpublic : ∀ m ∈ models, ∃ e ∈ s.publicCatalog, e.modelId = m) :
    NodeStep hotkey nodeId models s (models.foldl (provision input hotkey nodeId) s) := by
  induction models generalizing s with
  | nil => exact .refl hotkey nodeId s
  | cons modelId models ih =>
    have hfirst : NodeStep hotkey nodeId [modelId] s (provision input hotkey nodeId s modelId) :=
      nodeStep_provision hnamed (hpublic modelId List.mem_cons_self)
    have hrest := ih (hfirst.named hnamed) fun m hm ↦ by
      rw [publicCatalog, hfirst.catalog]
      exact hpublic m (List.mem_cons_of_mem _ hm)
    exact hfirst.trans hrest

theorem armCooldown_all (hotkey : Hotkey) (ds : List FluxDeployment) (s : FluxStore) :
    ∃ cooldowns, ds.foldl (armCooldown hotkey) s = { s with replicaCooldownUntil := cooldowns } := by
  induction ds generalizing s with
  | nil => exact ⟨s.replicaCooldownUntil, rfl⟩
  | cons d ds ih =>
    obtain ⟨first, hfirst⟩ : ∃ cooldowns,
        armCooldown hotkey s d = { s with replicaCooldownUntil := cooldowns } := by
      unfold armCooldown
      split
      · exact ⟨_, rfl⟩
      · exact ⟨s.replicaCooldownUntil, rfl⟩
    obtain ⟨rest, hrest⟩ := ih (armCooldown hotkey s d)
    exact ⟨rest, by rw [List.foldl_cons, hrest, hfirst]⟩

/-- A node gets one replica at most of each model that it is assigned and has no replica of. -/
theorem nodeStep_reconcile {input : FluxInput} (hotkey : Hotkey) (nodeId : NodeId)
    {new : FluxState} {s : FluxStore} (hnamed : s.Named input.scan)
    (hpublic : ∀ m ∈ new.inferenceAssignments.rows.map Prod.fst,
      ∃ e ∈ s.publicCatalog, e.modelId = m) :
    NodeStep hotkey nodeId
      ((new.inferenceAssignments.rows.map Prod.fst).filter fun m ↦
        s.replicas m (singleOn (hotkey, nodeId)) = 0)
      s (reconcileCatalogDeployments input hotkey nodeId new s) := by
  obtain ⟨cooldowns, harmed⟩ :=
    armCooldown_all hotkey (s.listFluxDeployments hotkey none true) s
  rw [reconcileCatalogDeployments, harmed]
  set armed : FluxStore := { s with replicaCooldownUntil := cooldowns }
  have harmed : NodeStep hotkey nodeId [] s armed :=
    .of_maps rfl rfl rfl rfl rfl fun _ _ ↦ rfl
  set targetModels := new.inferenceAssignments.rows.map Prod.fst
  set existing := (armed.listFluxDeployments hotkey (some nodeId) false).filter fun d ↦
    d.multiNode = false with hexisting
  have hsingle : ∀ d ∈ existing.filter fun d ↦ d.modelId ∉ targetModels,
      armed.IsSingleOn hotkey nodeId d.deploymentId := by
    intro d hd row hget
    rw [List.mem_filter, hexisting, List.mem_filter, mem_listFluxDeployments] at hd
    obtain ⟨⟨⟨row', hget', ⟨hhotkey, hnode, -⟩, -, -, -, hrank⟩, hmulti⟩, -⟩ := hd
    obtain rfl : row' = row := Option.some.inj (hget'.symm.trans hget)
    exact ⟨hhotkey, hnode nodeId rfl, hrank.symm.trans (of_decide_eq_true hmulti)⟩
  have hterminated := nodeStep_terminate_all _ hsingle
  -- The models that have no replica on the node, each once.
  have hmissing : (targetModels.filter fun m ↦
      m ∉ (existing.filter fun d ↦ d.state ∈ liveStates).map FluxDeployment.modelId) =
        targetModels.filter fun m ↦ s.replicas m (singleOn (hotkey, nodeId)) = 0 := by
    refine List.filter_congr fun m _ ↦ ?_
    rw [decide_eq_decide, hexisting, mem_existing, Nat.pos_iff_ne_zero, not_not]
    rfl
  rw [hmissing]
  set missing := targetModels.filter fun m ↦ s.replicas m (singleOn (hotkey, nodeId)) = 0
  have hnodup : missing.Nodup := new.inferenceAssignments.nodup.filter _
  have hperm : (input.sets.order missing).Perm missing := by
    have h := input.sets.perm missing
    rwa [List.dedup_eq_self.mpr hnodup] at h
  have hsteps := harmed.trans hterminated
  have hpublic' : ∀ m ∈ input.sets.order missing, ∃ e ∈ s.publicCatalog, e.modelId = m :=
    fun m hm ↦ hpublic m (List.mem_of_mem_filter (hperm.mem_iff.mp hm))
  refine (hsteps.trans (nodeStep_provision_all _ (hsteps.named hnamed) ?_)).mono fun m ↦ ?_
  · rw [publicCatalog, hsteps.catalog]
    exact hpublic'
  exact (hperm.count_eq m).le

/-! ## The deficits that remain -/

/-- What remains to be placed of a model. -/
def units (remaining : Table ModelId ℕ) (m : ModelId) : ℕ := (remaining.get? m).getD 0

theorem units_consume_le (pinned : List ModelId) (remaining : Table ModelId ℕ)
    (r : ModelId × List ℕ) (m : ModelId) :
    units (consume pinned remaining r) m ≤ units remaining m := by
  unfold consume units
  split
  · rw [Table.get?_insert]
    split
    · next hm =>
      rw [hm, Option.getD_some]
      exact Nat.sub_le _ _
    · exact le_rfl
  · exact le_rfl

theorem units_consumeAll_le (pinned : List ModelId) (rows : List (ModelId × List ℕ))
    (remaining : Table ModelId ℕ) (m : ModelId) :
    units (rows.foldl (consume pinned) remaining) m ≤ units remaining m := by
  induction rows generalizing remaining with
  | nil => exact le_rfl
  | cons r rows ih => exact (ih _).trans (units_consume_le pinned remaining r m)

/-- A model that the node newly takes has one unit less afterwards. -/
theorem units_consumeAll_of_mem {pinned : List ModelId} {rows : List (ModelId × List ℕ)}
    {m : ModelId} {gpus : List ℕ} (hmem : (m, gpus) ∈ rows) (hgpus : gpus ≠ [])
    (hm : m ∉ pinned) (remaining : Table ModelId ℕ) :
    units (rows.foldl (consume pinned) remaining) m ≤ units remaining m - 1 := by
  induction rows generalizing remaining with
  | nil => exact absurd hmem List.not_mem_nil
  | cons r rows ih =>
    rw [List.foldl_cons]
    rcases List.mem_cons.mp hmem with rfl | hmem
    · refine (units_consumeAll_le pinned rows _ m).trans ?_
      rw [consume, if_pos ⟨hgpus, hm⟩, units, Table.get?_insert_self, Option.getD_some, units]
    · have hfirst := units_consume_le pinned remaining r m
      have hrest := ih hmem (consume pinned remaining r)
      omega

theorem consumeAll_ne_nil {pinned : List ModelId} (rows : List (ModelId × List ℕ))
    {remaining : Table ModelId ℕ} (h : remaining.rows ≠ []) :
    (rows.foldl (consume pinned) remaining).rows ≠ [] := by
  induction rows generalizing remaining with
  | nil => exact h
  | cons r rows ih =>
    refine ih ?_
    unfold consume
    split
    · exact Table.rows_insert_ne_nil _ _ _
    · exact h

/-- A node that may be assigned a model: it is not kept from inference, and the model fits into the
GPUs that inference has or may take there. -/
def fits (input : FluxInput) (s : FluxStore) (m : ModelId) (hotkey : Hotkey)
    (node : NodeId × FluxState) : Bool :=
  excludes input (s.capability hotkey node.1) = false ∧
    ∃ cap ∈ s.capability hotkey node.1, ∃ e ∈ s.publicCatalog, e.modelId = m ∧
      e.minVramGbPerGpu ≤ cap.vramGbPerGpu ∧
        e.gpuCount ≤ node.2.inferenceGpus + node.2.idleGpus

/-- A pass over one node places a replica only of a model that fits and is missing there; and unless
the node serves the model as a rank, the model has one unit less to be placed. -/
theorem rebalanceNode_step {input : FluxInput} {hotkey : Hotkey} {remaining : Table ModelId ℕ}
    {s : FluxStore} (hnamed : s.Named input.scan)
    (hremaining : s.publicCatalog ≠ [] → remaining.rows ≠ []) (node : NodeId × FluxState) :
    ∃ grown : List ModelId, grown.Nodup ∧
      NodeStep hotkey node.1 grown s (rebalanceNode input hotkey (remaining, s) node).2 ∧
      (s.publicCatalog ≠ [] → (rebalanceNode input hotkey (remaining, s) node).1.rows ≠ []) ∧
      ∀ m, units (rebalanceNode input hotkey (remaining, s) node).1 m ≤ units remaining m ∧
        (m ∈ grown → fits input s m hotkey node = true ∧
          s.replicas m (singleOn (hotkey, node.1)) = 0 ∧
          (m ∈ s.serving hotkey node.1 ∨
            units (rebalanceNode input hotkey (remaining, s) node).1 m < units remaining m)) := by
  obtain ⟨nodeId, state⟩ := node
  rw [rebalanceNode]
  dsimp only
  by_cases hexcluded : excludes input (s.capability hotkey nodeId) = true
  · rw [if_pos hexcluded]
    exact ⟨[], List.nodup_nil, .refl hotkey nodeId s, hremaining, fun m ↦
      ⟨le_rfl, fun hm ↦ absurd hm List.not_mem_nil⟩⟩
  rw [if_neg hexcluded]
  set pinned := input.sets.order (s.serving hotkey nodeId)
  have hpinned : ∀ m, m ∈ pinned ↔ m ∈ s.serving hotkey nodeId := fun m ↦
    (input.sets.perm _).mem_iff.trans List.mem_dedup
  set new := rebalance input hotkey state s.publicCatalog
    ((s.capability hotkey nodeId).map FluxCapability.vramGbPerGpu) remaining pinned
  have hassigned : ∀ m gpus, new.inferenceAssignments.get? m = some gpus → _ :=
    fun m gpus ↦ get?_rebalance hremaining
  set stored : FluxStore := { s with fluxStates := s.fluxStates.insert (hotkey, nodeId) new }
  have hstored : NodeStep hotkey nodeId [] s stored :=
    .of_maps rfl rfl rfl rfl rfl fun h hne ↦
      Table.select_insert_of_not _ (fun _ ↦ by simpa using hne.symm) _
  have hpublic : ∀ m ∈ new.inferenceAssignments.rows.map Prod.fst,
      ∃ e ∈ stored.publicCatalog, e.modelId = m := by
    intro m hm
    obtain ⟨gpus, hget⟩ := Option.isSome_iff_exists.mp (Table.mem_keys_iff.mp hm)
    obtain ⟨-, ⟨-, -, e, he, hid, -⟩, -⟩ := hassigned m gpus hget
    exact ⟨e, he, hid⟩
  have hreconciled := nodeStep_reconcile hotkey nodeId (hstored.named hnamed) hpublic
  refine ⟨_, new.inferenceAssignments.nodup.filter _, hstored.trans hreconciled,
    fun hcatalog ↦ consumeAll_ne_nil _ (hremaining hcatalog), fun m ↦
      ⟨units_consumeAll_le _ _ _ m, fun hm ↦ ?_⟩⟩
  rw [List.mem_filter, decide_eq_true_eq] at hm
  obtain ⟨hkey, hmissing⟩ := hm
  obtain ⟨gpus, hget⟩ := Option.isSome_iff_exists.mp (Table.mem_keys_iff.mp hkey)
  obtain ⟨hgpus, ⟨vram, hvram, e, he, hid, hfits⟩, hneed⟩ := hassigned m gpus hget
  obtain ⟨cap, hcap, rfl⟩ := Option.map_eq_some_iff.mp hvram
  refine ⟨decide_eq_true ⟨Bool.eq_false_of_not_eq_true hexcluded, cap, hcap, e, he, hid, hfits⟩,
    hmissing, ?_⟩
  by_cases hserving : m ∈ s.serving hotkey nodeId
  · exact .inl hserving
  · right
    have hunpinned : m ∉ pinned := fun h ↦ hserving ((hpinned m).mp h)
    have hlacks : 0 < units remaining m := hneed.resolve_left hunpinned
    have htaken := units_consumeAll_of_mem (Table.mem_rows_iff.mpr hget) hgpus hunpinned remaining
    exact htaken.trans_lt (Nat.sub_lt hlacks Nat.one_pos)

/-! ## Rebalancing the nodes of a hotkey -/

/-- The nodes that may take a model that they do not serve. -/
def room (input : FluxInput) (s : FluxStore) (m : ModelId) (hotkey : Hotkey)
    (nodes : List (NodeId × FluxState)) : ℕ :=
  nodes.countP fun node ↦ fits input s m hotkey node ∧ m ∉ s.serving hotkey node.1

/-- The nodes that may take a model that they serve, but have no replica of it for themselves. -/
def ranked (input : FluxInput) (s : FluxStore) (m : ModelId) (hotkey : Hotkey)
    (nodes : List (NodeId × FluxState)) : ℕ :=
  nodes.countP fun node ↦ fits input s m hotkey node ∧ m ∈ s.serving hotkey node.1 ∧
    s.replicas m (singleOn (hotkey, node.1)) = 0

theorem room_cons (input : FluxInput) (s : FluxStore) (m : ModelId) (hotkey : Hotkey)
    (node : NodeId × FluxState) (nodes : List (NodeId × FluxState)) :
    room input s m hotkey (node :: nodes) = room input s m hotkey nodes +
      if fits input s m hotkey node ∧ m ∉ s.serving hotkey node.1 then 1 else 0 := by
  simp only [room, List.countP_cons, decide_eq_true_eq]

theorem ranked_cons (input : FluxInput) (s : FluxStore) (m : ModelId) (hotkey : Hotkey)
    (node : NodeId × FluxState) (nodes : List (NodeId × FluxState)) :
    ranked input s m hotkey (node :: nodes) = ranked input s m hotkey nodes +
      if fits input s m hotkey node ∧ m ∈ s.serving hotkey node.1 ∧
        s.replicas m (singleOn (hotkey, node.1)) = 0 then 1 else 0 := by
  simp only [ranked, List.countP_cons, decide_eq_true_eq]

section elsewhere

variable {touched : Set (Hotkey × NodeId)} {s s' : FluxStore}

theorem Touches.fits_eq (h : Touches touched s s') (input : FluxInput) (m : ModelId)
    (hotkey : Hotkey) (node : NodeId × FluxState) :
    fits input s' m hotkey node = fits input s m hotkey node := by
  rw [fits, fits, capability, capability, publicCatalog, publicCatalog, h.capabilities, h.catalog]

theorem Touches.serving_iff (h : Touches touched s s') {hotkey : Hotkey} {nodeId : NodeId}
    (hnode : (hotkey, nodeId) ∉ touched) (m : ModelId) :
    m ∈ s'.serving hotkey nodeId ↔ m ∈ s.serving hotkey nodeId := by
  rw [mem_serving, mem_serving, h.frame]
  intro id key hkey
  exact decide_eq_false fun heq ↦ hnode (heq ▸ hkey)

theorem Touches.singleOn_eq (h : Touches touched s s') {hotkey : Hotkey} {nodeId : NodeId}
    (hnode : (hotkey, nodeId) ∉ touched) (m : ModelId) :
    s'.replicas m (singleOn (hotkey, nodeId)) = s.replicas m (singleOn (hotkey, nodeId)) := by
  refine h.frame m _ fun id key hkey ↦ decide_eq_false fun heq ↦ hnode ?_
  exact heq.1 ▸ hkey

theorem Touches.room_eq (h : Touches touched s s') (input : FluxInput) (m : ModelId)
    {hotkey : Hotkey} {nodes : List (NodeId × FluxState)}
    (hnodes : ∀ node ∈ nodes, (hotkey, node.1) ∉ touched) :
    room input s' m hotkey nodes = room input s m hotkey nodes := by
  refine List.countP_congr fun node hnode ↦ ?_
  rw [decide_eq_true_eq, decide_eq_true_eq, h.fits_eq, h.serving_iff (hnodes node hnode)]

theorem Touches.ranked_eq (h : Touches touched s s') (input : FluxInput) (m : ModelId)
    {hotkey : Hotkey} {nodes : List (NodeId × FluxState)}
    (hnodes : ∀ node ∈ nodes, (hotkey, node.1) ∉ touched) :
    ranked input s' m hotkey nodes = ranked input s m hotkey nodes := by
  refine List.countP_congr fun node hnode ↦ ?_
  rw [decide_eq_true_eq, decide_eq_true_eq, h.fits_eq, h.serving_iff (hnodes node hnode),
    h.singleOn_eq (hnodes node hnode)]

end elsewhere

/-- What a pass over nodes of one hotkey does. It places no more replicas of a model than remain to
be placed, nor than there is room for, the nodes apart that serve it as a rank; and at each node one
at most. -/
structure MinerStep (input : FluxInput) (hotkey : Hotkey) (nodes : List (NodeId × FluxState))
    (remaining : Table ModelId ℕ) (s s' : FluxStore) : Prop
    extends Touches {key | key.1 = hotkey} s s' where
  grows : ∀ m, s'.replicas m single ≤ s.replicas m single +
    (min (units remaining m) (room input s m hotkey nodes) + ranked input s m hotkey nodes)
  places : ∀ m drawn key, s'.replicas m (newOn drawn key) ≤ s.replicas m (newOn drawn key) +
    nodes.countP fun node ↦ (hotkey, node.1) = key

theorem rebalanceNodes_step {input : FluxInput} {hotkey : Hotkey}
    (nodes : List (NodeId × FluxState)) (hnodup : (nodes.map Prod.fst).Nodup)
    {remaining : Table ModelId ℕ} {s : FluxStore} (hnamed : s.Named input.scan)
    (hremaining : s.publicCatalog ≠ [] → remaining.rows ≠ []) :
    MinerStep input hotkey nodes remaining s
      (nodes.foldl (rebalanceNode input hotkey) (remaining, s)).2 := by
  induction nodes generalizing remaining s with
  | nil => exact ⟨.refl _ s, fun m ↦ le_self_add, fun m drawn key ↦ le_self_add⟩
  | cons node nodes ih =>
    rw [List.map_cons, List.nodup_cons] at hnodup
    obtain ⟨grown, hgrown, hstep, hremaining', hunits⟩ := rebalanceNode_step hnamed hremaining node
    rw [List.foldl_cons]
    set acc := rebalanceNode input hotkey (remaining, s) node
    have hcatalog : acc.2.publicCatalog = s.publicCatalog := by
      rw [publicCatalog, publicCatalog, hstep.catalog]
    have hrest : MinerStep input hotkey nodes acc.1 acc.2
        (nodes.foldl (rebalanceNode input hotkey) acc).2 :=
      ih hnodup.2 (hstep.named hnamed) (hcatalog ▸ hremaining')
    have hothers : ∀ node' ∈ nodes, (hotkey, node'.1) ∉ ({(hotkey, node.1)} : Set _) := by
      intro node' hmem heq
      refine hnodup.1 (List.mem_map.mpr ⟨node', hmem, ?_⟩)
      exact congrArg Prod.snd heq
    have hsub : ({(hotkey, node.1)} : Set (Hotkey × NodeId)) ⊆ {key | key.1 = hotkey} := by
      rintro key rfl
      rfl
    have hcount : ∀ m, grown.count m ≤ 1 := List.nodup_iff_count_le_one.mp hgrown
    refine ⟨(hstep.toTouches.mono hsub).trans hrest.toTouches, fun m ↦ ?_, fun m drawn key ↦ ?_⟩
    · have hgrows := hrest.grows m
      rw [hstep.room_eq input m hothers, hstep.ranked_eq input m hothers] at hgrows
      have hfirst := hstep.grows m single
      obtain ⟨hle, htaken⟩ := hunits m
      rw [room_cons, ranked_cons]
      by_cases hm : m ∈ grown
      · have hone := hcount m
        obtain ⟨hfits, hmissing, hserving⟩ := htaken hm
        by_cases hserves : m ∈ s.serving hotkey node.1
        -- A rank keeps the model on the node, which is counted among the ranked ones.
        · rw [if_neg fun h ↦ h.2 hserves, if_pos ⟨hfits, hserves, hmissing⟩]
          omega
        -- The node takes the model anew: a unit and a place are gone.
        · have hless := hserving.resolve_left hserves
          rw [if_pos ⟨hfits, hserves⟩, if_neg fun h ↦ hserves h.2.1]
          omega
      · rw [List.count_eq_zero_of_not_mem hm] at hfirst
        omega
    · have hplaces := hrest.places m drawn key
      rw [List.countP_cons]
      by_cases hkey : (hotkey, node.1) = key
      · have hfirst := hstep.grows m (newOn drawn key)
        have hone := hcount m
        rw [if_pos (decide_eq_true hkey)]
        omega
      · have hframe : acc.2.replicas m (newOn drawn key) = s.replicas m (newOn drawn key) := by
          refine hstep.frame m _ fun id key' hkey' ↦ decide_eq_false fun h ↦ hkey ?_
          exact hkey'.symm.trans h.2.1
        omega

/-! ## Rebalancing all hotkeys -/

/-- The nodes of a hotkey. -/
def nodesOf (s : FluxStore) (hotkey : Hotkey) : List (NodeId × FluxState) :=
  (s.fluxStates.select fun key _ ↦ key.1 = hotkey).map fun r ↦ (r.1.2, r.2)

theorem nodup_nodesOf (s : FluxStore) (hotkey : Hotkey) :
    ((s.nodesOf hotkey).map Prod.fst).Nodup := by
  have hkeys := s.fluxStates.nodup_select fun key _ ↦ key.1 = hotkey
  rw [nodesOf, List.map_map]
  refine List.Nodup.of_map (fun n ↦ (hotkey, n)) ?_
  rw [List.map_map]
  convert hkeys using 1
  refine List.map_congr_left fun r hr ↦ ?_
  have hhotkey : r.1.1 = hotkey := of_decide_eq_true (List.mem_filter.mp hr).2
  exact Prod.ext hhotkey.symm rfl

/-- How many replicas of a model the nodes of a hotkey may be given: as many as the hotkey's own
deployments leave of the target, where there is room for them, and one for every node that serves
the model as a rank only. -/
def quota (input : FluxInput) (targets : Table ModelId ℕ) (s : FluxStore) (m : ModelId)
    (hotkey : Hotkey) : ℕ :=
  min (units targets m - s.running hotkey m) (room input s m hotkey (s.nodesOf hotkey)) +
    ranked input s m hotkey (s.nodesOf hotkey)

theorem Touches.quota_eq {hotkey hotkey' : Hotkey} {s s' : FluxStore}
    (h : Touches {key | key.1 = hotkey} s s') (hne : hotkey' ≠ hotkey) (input : FluxInput)
    (targets : Table ModelId ℕ) (m : ModelId) :
    quota input targets s' m hotkey' = quota input targets s m hotkey' := by
  have hother : ∀ n, (hotkey', n) ∉ ({key | key.1 = hotkey} : Set (Hotkey × NodeId)) :=
    fun _ ↦ hne
  have hnodes : s'.nodesOf hotkey' = s.nodesOf hotkey' := by
    rw [nodesOf, nodesOf, h.elsewhere hotkey' hother]
  have hrunning : s'.running hotkey' m = s.running hotkey' m := by
    rw [running_eq, running_eq, h.frame]
    rintro id key rfl
    exact decide_eq_false hne.symm
  rw [quota, quota, hnodes, hrunning, h.room_eq input m fun node _ ↦ hother node.1,
    h.ranked_eq input m fun node _ ↦ hother node.1]

theorem units_deficits (targets : Table ModelId ℕ) (f : ModelId → ℕ) (m : ModelId) :
    units (targets.map fun modelId target ↦ target - f modelId) m = units targets m - f m := by
  rw [units, units, Table.get?_map]
  cases targets.get? m with
  | none => exact (Nat.zero_sub _).symm
  | some target => rfl

theorem rebalanceMiner_step {input : FluxInput} {targets : Table ModelId ℕ} (hotkey : Hotkey)
    {s : FluxStore} (hnamed : s.Named input.scan)
    (htargets : s.publicCatalog ≠ [] → targets.rows ≠ []) :
    Touches {key | key.1 = hotkey} s (rebalanceMiner input targets hotkey s) ∧
      (∀ m, (rebalanceMiner input targets hotkey s).replicas m single ≤
        s.replicas m single + quota input targets s m hotkey) ∧
      ∀ m drawn key, (rebalanceMiner input targets hotkey s).replicas m (newOn drawn key) ≤
        s.replicas m (newOn drawn key) + if hotkey = key.1 then 1 else 0 := by
  have hstep : MinerStep input hotkey (s.nodesOf hotkey)
      (targets.map fun modelId target ↦ target - s.running hotkey modelId) s
      (rebalanceMiner input targets hotkey s) := by
    refine rebalanceNodes_step _ (s.nodup_nodesOf hotkey) hnamed fun hcatalog hnil ↦ ?_
    exact htargets hcatalog (List.map_eq_nil_iff.mp hnil)
  refine ⟨hstep.toTouches, fun m ↦ ?_, fun m drawn key ↦ (hstep.places m drawn key).trans ?_⟩
  · have hgrows := hstep.grows m
    rwa [units_deficits] at hgrows
  · refine Nat.add_le_add_left ?_ _
    split_ifs with hkey
    -- The node is one of the hotkey's, once.
    · have hcount := List.nodup_iff_count_le_one.mp (s.nodup_nodesOf hotkey) key.2
      rw [List.count, List.countP_map] at hcount
      refine (List.countP_mono_left fun node _ h ↦ ?_).trans hcount
      have hnode := congrArg Prod.snd (of_decide_eq_true h)
      exact beq_iff_eq.mpr hnode
    · refine (List.countP_eq_zero.mpr fun node _ h ↦ ?_).le
      exact hkey (congrArg Prod.fst (of_decide_eq_true h))

theorem rebalanceMiners_step {input : FluxInput} {targets : Table ModelId ℕ}
    (hotkeys : List Hotkey) (hnodup : hotkeys.Nodup) {s : FluxStore}
    (hnamed : s.Named input.scan) (htargets : s.publicCatalog ≠ [] → targets.rows ≠ [])
    (m : ModelId) :
    (hotkeys.foldl (fun s hotkey ↦ rebalanceMiner input targets hotkey s) s).replicas m single ≤
        s.replicas m single + (hotkeys.map (quota input targets s m)).sum ∧
      ∀ drawn key, (hotkeys.foldl (fun s hotkey ↦ rebalanceMiner input targets hotkey s)
          s).replicas m (newOn drawn key) ≤
        s.replicas m (newOn drawn key) + hotkeys.count key.1 := by
  induction hotkeys generalizing s with
  | nil => exact ⟨le_self_add, fun _ _ ↦ le_self_add⟩
  | cons hotkey hotkeys ih =>
    rw [List.nodup_cons] at hnodup
    obtain ⟨htouches, hgrows, hplaces⟩ := rebalanceMiner_step hotkey hnamed htargets
    have hcatalog : (rebalanceMiner input targets hotkey s).publicCatalog = s.publicCatalog := by
      rw [publicCatalog, publicCatalog, htouches.catalog]
    obtain ⟨hrest, hplaces'⟩ := ih hnodup.2 (htouches.named hnamed) (hcatalog ▸ htargets)
    have hquotas : hotkeys.map (quota input targets (rebalanceMiner input targets hotkey s) m) =
        hotkeys.map (quota input targets s m) := by
      refine List.map_congr_left fun hotkey' hmem ↦ htouches.quota_eq ?_ input targets m
      rintro rfl
      exact hnodup.1 hmem
    rw [hquotas] at hrest
    rw [List.foldl_cons, List.map_cons, List.sum_cons]
    refine ⟨?_, fun drawn key ↦ ?_⟩
    · have hfirst := hgrows m
      omega
    · have hfirst := hplaces m drawn key
      have hsecond := hplaces' drawn key
      rw [List.count_cons]
      simp only [beq_iff_eq]
      omega

/-! ## The whole pass -/

/-- The replicas that span several nodes are none of those on one node. -/
theorem replicas_reconcileRank {m : ModelId} {p : Place} (hp : ∀ id key, p id key true = false)
    (s : FluxStore) (o : RankOp) : (s.reconcileRank o).replicas m p = s.replicas m p := by
  cases o with
  | retire id =>
    rw [reconcileRank]
    split
    · next hrank =>
      refine replicas_terminate_eq s true m fun row hget ↦ ?_
      obtain ⟨row', hget', hmulti⟩ := hrank
      obtain rfl : row' = row := Option.some.inj (hget'.symm.trans hget)
      rw [hmulti]
      exact hp id _
    · rfl
  | place hotkey nodeId workloadId =>
    rw [reconcileRank, replicas_create, hp]
    simp

theorem replicas_reconcileDistributedReplicas {m : ModelId} {p : Place}
    (hp : ∀ id key, p id key true = false) (input : FluxInput) (s : FluxStore) :
    (reconcileDistributedReplicas input s).replicas m p = s.replicas m p := by
  rw [reconcileDistributedReplicas]
  generalize input.distributedPlan s = plan
  induction plan generalizing s with
  | nil => rfl
  | cons o plan ih => rw [List.foldl_cons, ih, replicas_reconcileRank hp]

/-- Refreshing changes what Flux knows of the nodes, and nothing else. -/
theorem refreshStates_spec (input : FluxInput) (s : FluxStore) :
    ∃ states, refreshStates input s = { s with fluxStates := states } := by
  rw [refreshStates]
  generalize freshCaps input s = fresh
  generalize s.fluxStates.filter _ = states
  induction fresh generalizing states with
  | nil => exact ⟨states, rfl⟩
  | cons r fresh ih =>
    rw [List.foldl_cons, bootstrap]
    split
    · exact ih states
    · exact ih _

theorem replicaTargets_ne_nil {input : FluxInput} {s : FluxStore} (h : s.publicCatalog ≠ []) :
    (replicaTargets input s).rows ≠ [] := by
  have hfold : ∀ (l : List ModelCatalogEntry) (t : Table ModelId ℕ), l ≠ [] ∨ t.rows ≠ [] →
      (l.foldl (fun t e ↦ t.insert e.modelId (input.replicaTarget e.modelId)) t).rows ≠ [] := by
    intro l
    induction l with
    | nil => exact fun t ht ↦ ht.resolve_left fun hne ↦ hne rfl
    | cons e l ih => exact fun t _ ↦ ih _ (.inr (Table.rows_insert_ne_nil t _ _))
  exact hfold _ _ (.inl h)

/-- A model that is not in the public catalog is given to no node. -/
theorem quota_eq_zero {input : FluxInput} {s : FluxStore} {m : ModelId}
    (h : ∀ e ∈ s.publicCatalog, e.modelId ≠ m) (targets : Table ModelId ℕ) (hotkey : Hotkey) :
    quota input targets s m hotkey = 0 := by
  have hfits : ∀ node, fits input s m hotkey node = false := fun node ↦
    decide_eq_false fun ⟨_, _, _, e, he, hid, _⟩ ↦ h e he hid
  have hroom : room input s m hotkey (s.nodesOf hotkey) = 0 :=
    List.countP_eq_zero.mpr fun node _ hnode ↦
      Bool.false_ne_true ((hfits node).symm.trans (of_decide_eq_true hnode).1)
  have hranked : ranked input s m hotkey (s.nodesOf hotkey) = 0 :=
    List.countP_eq_zero.mpr fun node _ hnode ↦
      Bool.false_ne_true ((hfits node).symm.trans (of_decide_eq_true hnode).1)
  rw [quota, hroom, hranked, Nat.min_zero]

/-- The fleet's target for a model. -/
def target (input : FluxInput) (s : FluxStore) (m : ModelId) : ℕ :=
  units (replicaTargets input s) m

/-- The hotkeys together may give their nodes no more replicas of a model than the fleet lacks, and
the workload under a model's name is the model's. -/
structure Apportioned (input : FluxInput) (s : FluxStore) : Prop where
  named : s.Named input.scan
  within : ∀ e ∈ s.publicCatalog, ((refreshStates input s).trackedHotkeys.map
    (quota input (replicaTargets input s) (refreshStates input s) e.modelId)).sum ≤
      target input s e.modelId - s.replicas e.modelId single

/-- Where the hotkeys' deficits do not add up to more than the fleet's, a pass keeps every model
within its target, or at what it had; and it places at most one replica of a model on a node. -/
theorem replicas_within_target {input : FluxInput} {s : FluxStore} (h : Apportioned input s)
    (m : ModelId) :
    (rebalanceAllMiners input s).replicas m single ≤
        max (s.replicas m single) (target input s m) ∧
      ∀ key, (rebalanceAllMiners input s).replicas m (newOn s.drawn key) ≤ 1 := by
  have hwithin : ((refreshStates input s).trackedHotkeys.map
      (quota input (replicaTargets input s) (refreshStates input s) m)).sum ≤
        target input s m - s.replicas m single := by
    by_cases hpublic : ∃ e ∈ s.publicCatalog, e.modelId = m
    · obtain ⟨e, he, rfl⟩ := hpublic
      exact h.within e he
    · obtain ⟨states, hstates⟩ := refreshStates_spec input s
      have hother : ∀ e ∈ (refreshStates input s).publicCatalog, e.modelId ≠ m := by
        rw [hstates]
        exact fun e he hid ↦ hpublic ⟨e, he, hid⟩
      rw [List.sum_eq_zero]
      · exact Nat.zero_le _
      · intro n hn
        obtain ⟨hotkey, -, rfl⟩ := List.mem_map.mp hn
        exact quota_eq_zero hother _ hotkey
  obtain ⟨states, hstates⟩ := refreshStates_spec input s
  rw [rebalanceAllMiners]
  rw [hstates] at hwithin ⊢
  set known : FluxStore := { s with fluxStates := states }
  have hnodup : known.trackedHotkeys.Nodup := List.nodup_reverse.mpr (List.nodup_dedup _)
  have hnamed : known.Named input.scan := h.named
  obtain ⟨hgrows, hplaces⟩ :=
    rebalanceMiners_step known.trackedHotkeys hnodup hnamed replicaTargets_ne_nil m
  refine ⟨?_, fun key ↦ ?_⟩
  · rw [replicas_reconcileDistributedReplicas fun _ _ ↦ rfl]
    have hbound : s.replicas m single + (target input s m - s.replicas m single) ≤
        max (s.replicas m single) (target input s m) := by omega
    exact hgrows.trans ((Nat.add_le_add_left hwithin _).trans hbound)
  · rw [replicas_reconcileDistributedReplicas fun _ _ ↦ by simp [newOn]]
    have hnone : known.replicas m (newOn s.drawn key) = 0 := by
      by_contra hne
      obtain ⟨id, row, hget, hreplica⟩ := replicas_pos_iff.mp (Nat.pos_of_ne_zero hne)
      have hdrawn : s.drawn ≤ id := (of_decide_eq_true (of_decide_eq_true hreplica).2.2).1
      exact Option.some_ne_none row (hget.symm.trans (s.fresh id hdrawn))
    have hcount := List.nodup_iff_count_le_one.mp hnodup key.1
    have hplaced := hplaces s.drawn key
    rw [hnone, Nat.zero_add] at hplaced
    exact hplaced.trans hcount

private def small : ModelCatalogEntry where
  modelId := "small".toList
  displayName := []
  hfRepo := []
  template := "vllm".toList
  minVramGbPerGpu := 24
  gpuCount := 1
  maxModelLen := none
  visibility := "public".toList

/-- A model and its workload, and two hotkeys with a node of four GPUs each. -/
private def twoNodes : FluxStore where
  workloads := .ofRows [("catalog-small".toList, small.newWorkload 0)] (List.nodup_singleton _)
  deployments := .empty
  catalog := [small]
  capabilities := .ofRows
    [(1, [⟨1, "A100".toList, 4, 4, 80, some 0⟩]), (2, [⟨1, "A100".toList, 4, 4, 80, some 0⟩])]
  fluxStates := .empty
  replicaCooldownUntil := .empty
  now := 0
  drawn := 0
  fresh _ _ := rfl

/-- At least a fifth of the GPUs for inference and a tenth for rentals, and as many replicas of
every model. -/
private def targeting (replicas : ℕ) : FluxInput where
  inferenceFloorPct := 1 / 5
  rentalFloorPct := 1 / 10
  excludedGpuModels := ["a4000".toList]
  nodeInventoryTimeout := 180
  inferenceScore _ := 0
  rentalScore _ := 0
  replicaTarget _ := replicas
  scan := ⟨id, Scan.perm_id⟩
  sets := ⟨List.dedup, SetOrder.perm_dedup⟩
  distributedPlan _ := []

/-- The fleet lacks two replicas, and each of the two hotkeys has room for one. -/
theorem replicas_within_target_two :
    (rebalanceAllMiners (targeting 2) twoNodes).replicas "small".toList single = 2 ∧
      ((rebalanceAllMiners (targeting 2) twoNodes).replicas "small".toList single ≤
          max (twoNodes.replicas "small".toList single)
            (target (targeting 2) twoNodes "small".toList) ∧
        ∀ key, (rebalanceAllMiners (targeting 2) twoNodes).replicas "small".toList
          (newOn twoNodes.drawn key) ≤ 1) := by
  have happortioned : Apportioned (targeting 2) twoNodes :=
    ⟨by unfold Named; decide +kernel, by decide +kernel⟩
  exact ⟨by decide +kernel, replicas_within_target happortioned "small".toList⟩

/-- The fleet lacks one replica, and each of the two hotkeys places one. -/
theorem replicas_beyond_target :
    twoNodes.replicas "small".toList single = 0 ∧
      target (targeting 1) twoNodes "small".toList = 1 ∧
      (rebalanceAllMiners (targeting 1) twoNodes).replicas "small".toList single = 2 := by
  decide +kernel

end FluxStore

end GreenCompute
