import GreenCompute.Foundations.Grouping
import GreenCompute.Foundations.Rounding
import GreenCompute.Foundations.Totals
import GreenCompute.Validator.Audit
import GreenCompute.Validator.Flux

/-!
# The Flux dashboard

One snapshot of the fleet: its figures, added up over the states of all nodes; a row for each model
of the catalog; and a row for each miner. The loop over the miners uses the name of the first figure
for the GPUs of the miner that it is at. `dashboard_consistent_iff` says what that leaves of the
account: the fleet's total is the one that the states add up to exactly where the last miner's
inventory happens to be as large.
-/

namespace GreenCompute

/-- `FluxState`, as far as the dashboard shows it. -/
structure NodeFlux where
  hotkey : Hotkey
  totalGpus : ℤ
  inferenceGpus : ℤ
  rentalGpus : ℤ
  idleGpus : ℤ
  inferenceAssignments : Table ModelId (List ℕ)
  lastRebalancedAt : Option Time

/-- A row of `inference_demand_stats`. -/
structure DemandRow where
  modelId : ModelId
  windowStart : Time
  invocations : ℕ

/-- What the dashboard is built from. The catalog is in the order in which it is listed; when a state
that is only added up was rebalanced is what a new `FluxState` says. -/
structure DashboardInput where
  targetRpmPerReplica : ℚ
  unrebalanced : Option Time
  fluxStates : Table (Hotkey × NodeId) NodeFlux
  replicaTargets : Table ModelId ℕ
  catalog : Table ModelId ModelCatalogEntry
  demand : List DemandRow
  capabilities : Table Hotkey (List FluxCapability)
  scorecards : Table Hotkey ScoreCard
  now : Time

/-- `fleet`, of the dashboard. -/
structure FleetStrip where
  totalGpus : ℤ
  inferenceGpus : ℤ
  rentalGpus : ℤ
  idleGpus : ℤ
  activeCatalogReplicas : ℕ
  minersOnline : ℕ := 0
  minersRegistered : ℕ := 0
  catalogModels : ℕ := 0

inductive Heat where
  | hot
  | warm
  | cold
  deriving DecidableEq

/-- A row of `catalog_pool`. -/
structure ModelPool where
  modelId : ModelId
  displayName : Text
  targetReplicas : ℕ
  runningReplicas : ℕ
  rpm10m : ℚ
  rpm1h : ℚ
  status : Heat
  servingMiners : List Hotkey

/-- A row of `miner_fleet`. -/
structure MinerRow where
  hotkey : Hotkey
  nodeId : NodeId
  gpuModel : Text
  gpuCount : ℤ
  inferenceGpus : ℤ
  rentalGpus : ℤ
  idleGpus : ℤ
  assignedModels : List ModelId
  reliabilityScore : Option ℚ
  finalScore : Option ℚ
  lastRebalancedAt : Option Time

/-- What `build_flux_dashboard` returns. -/
structure FluxDashboard where
  observedAt : Time
  fleet : FleetStrip
  catalogPool : List ModelPool
  minerFleet : List MinerRow

namespace Dashboard

/-! ## The strip -/

/-- The assignments that hold a GPU. -/
def assigned (state : NodeFlux) : List ModelId :=
  (state.inferenceAssignments.rows.filter fun r ↦ r.2 ≠ []).map Prod.fst

/-- Add a node's figures. -/
def addState (fleet : FleetStrip) (state : NodeFlux) : FleetStrip :=
  { fleet with
    totalGpus := fleet.totalGpus + state.totalGpus
    inferenceGpus := fleet.inferenceGpus + state.inferenceGpus
    rentalGpus := fleet.rentalGpus + state.rentalGpus
    idleGpus := fleet.idleGpus + state.idleGpus
    activeCatalogReplicas := state.inferenceAssignments.rows.foldl
      (fun n r ↦ n + if r.2 ≠ [] then 1 else 0) fleet.activeCatalogReplicas }

/-- The figures of the fleet, before the other loops. -/
def fleetStrip (states : List NodeFlux) : FleetStrip :=
  states.foldl addState ⟨0, 0, 0, 0, 0, 0, 0, 0⟩

/-! ## The catalog -/

/-- Count a node's assignments. -/
def countAssigned (running : Table ModelId ℕ) (state : NodeFlux) : Table ModelId ℕ :=
  state.inferenceAssignments.rows.foldl
    (fun running r ↦ if r.2 ≠ [] then running.bump r.1 0 (· + 1) else running) running

/-- `running_by_model` -/
def runningByModel (states : List NodeFlux) : Table ModelId ℕ :=
  states.foldl countAssigned .empty

variable (input : DashboardInput)

/-- The states of all nodes, in the order of the map. -/
def snapshot : List NodeFlux := input.fluxStates.rows.map Prod.snd

/-- `_span_minutes` -/
def spanMinutes (now : Time) (earliest : Option Time) (nominal : ℚ) : ℚ :=
  match earliest with
  | none => nominal
  | some earliest => max 1 (min nominal ((now - earliest) / 60))

/-- One of the figures of `read_demand_windows`: requests a minute, over some minutes. -/
def demandWindow (modelId : ModelId) (nominal : ℚ) : ℚ :=
  let rows := input.demand.filter fun row ↦
    row.modelId = modelId ∧ input.now - nominal * 60 ≤ row.windowStart
  (rows.map fun row ↦ (row.invocations : ℚ)).sum /
    spanMinutes input.now (rows.map DemandRow.windowStart).min? nominal

/-- `round(x, 2)` -/
def roundToCents (x : ℚ) : ℚ := roundHalfEven (x * 100) / 100

/-- A model's row. -/
def modelPool (running : Table ModelId ℕ) (entry : ModelId × ModelCatalogEntry) : ModelPool :=
  let rpm := demandWindow input entry.1 10
  { modelId := entry.1
    displayName := entry.2.displayName
    targetReplicas := (input.replicaTargets.get? entry.1).getD entry.2.minReplicas
    runningReplicas := (running.get? entry.1).getD 0
    rpm10m := roundToCents rpm
    rpm1h := roundToCents (demandWindow input entry.1 60)
    status := if input.targetRpmPerReplica < rpm then .hot else if 0 < rpm then .warm else .cold
    servingMiners := ((snapshot input).filter fun state ↦
      (state.inferenceAssignments.get? entry.1).getD [] ≠ []).map NodeFlux.hotkey }

/-- `list_catalog_entries(visibility="public")` -/
def publicCatalog : List (ModelId × ModelCatalogEntry) :=
  input.catalog.select fun _ entry ↦ entry.visibility = "public".toList

/-! ## The miners -/

/-- `_states_for_hotkey` -/
def statesForHotkey (hotkey : Hotkey) : List NodeFlux :=
  (input.fluxStates.rows.filter fun r ↦ r.1.1 = hotkey).map Prod.snd

/-- What is shown of `_aggregate_flux_state`. -/
def aggregateFluxState (hotkey : Hotkey) : Option NodeFlux :=
  let states := statesForHotkey input hotkey
  if states = [] then none
  else some
    { hotkey
      totalGpus := (states.map NodeFlux.totalGpus).sum
      inferenceGpus := (states.map NodeFlux.inferenceGpus).sum
      rentalGpus := (states.map NodeFlux.rentalGpus).sum
      idleGpus := (states.map NodeFlux.idleGpus).sum
      inferenceAssignments := .empty
      lastRebalancedAt := input.unrebalanced }

/-- `list_capabilities`, sorted: the first node of each miner that has one. -/
def sortedCapabilities : List (Hotkey × FluxCapability) :=
  (input.capabilities.rows.filterMap fun r ↦ r.2.head?.map (r.1, ·)).insertionSort
    fun a b ↦ a.1 ≤ b.1

/-- The GPUs in a miner's inventory. -/
def gpuCount (hotkey : Hotkey) (cap : FluxCapability) : ℤ :=
  let nodes := (input.capabilities.get? hotkey).getD []
  if nodes ≠ [] then (nodes.map fun node ↦ (node.gpuCount : ℤ)).sum else cap.gpuCount

/-- A miner's row, with the GPUs in its inventory. -/
def minerRow (hotkey : Hotkey) (cap : FluxCapability) (totalGpus : ℤ) : MinerRow :=
  let state := aggregateFluxState input hotkey
  let scorecard := input.scorecards.get? hotkey
  { hotkey
    nodeId := cap.nodeId
    gpuModel := cap.gpuModel
    gpuCount := totalGpus
    inferenceGpus := (state.map NodeFlux.inferenceGpus).getD 0
    rentalGpus := (state.map NodeFlux.rentalGpus).getD 0
    idleGpus := (state.map NodeFlux.idleGpus).getD totalGpus
    assignedModels := (((statesForHotkey input hotkey).flatMap fun state ↦
      state.inferenceAssignments.rows.map Prod.fst).dedup).insertionSort (· ≤ ·)
    reliabilityScore := scorecard.map ScoreCard.reliabilityScore
    finalScore := scorecard.map ScoreCard.finalScore
    lastRebalancedAt := state.bind NodeFlux.lastRebalancedAt }

/-- A turn of the loop over the miners, whose GPUs are `total_gpus`. -/
def minerTurn (acc : ℤ × List MinerRow) (miner : Hotkey × FluxCapability) : ℤ × List MinerRow :=
  let totalGpus := gpuCount input miner.1 miner.2
  (totalGpus, acc.2 ++ [minerRow input miner.1 miner.2 totalGpus])

/-- `build_flux_dashboard` -/
def buildFluxDashboard : FluxDashboard :=
  let fleet := fleetStrip (snapshot input)
  let running := runningByModel (snapshot input)
  let catalogPool := (publicCatalog input).map (modelPool input running)
  let miners := sortedCapabilities input
  let (totalGpus, minerFleet) := miners.foldl (minerTurn input) (fleet.totalGpus, [])
  { observedAt := input.now
    fleet := { fleet with
      totalGpus
      minersOnline := (input.fluxStates.rows.map fun r ↦ r.1.1).dedup.length
      minersRegistered := miners.length
      catalogModels := catalogPool.length }
    catalogPool
    minerFleet }

/-! ## The account -/

/-- The account of the dashboard is consistent. -/
structure Consistent (d : FluxDashboard) : Prop where
  total : d.fleet.totalGpus = ((snapshot input).map NodeFlux.totalGpus).sum
  split : d.fleet.totalGpus = d.fleet.inferenceGpus + d.fleet.rentalGpus + d.fleet.idleGpus
  inference : d.fleet.inferenceGpus = (d.minerFleet.map MinerRow.inferenceGpus).sum
  replicas : (∀ state ∈ snapshot input, ∀ modelId ∈ assigned state,
      modelId ∈ (publicCatalog input).map Prod.fst) →
    (d.catalogPool.map ModelPool.runningReplicas).sum = d.fleet.activeCatalogReplicas

/-- A miner with an inventory. -/
def Capable (hotkey : Hotkey) (nodes : List FluxCapability) : Prop :=
  input.capabilities.get? hotkey = some nodes ∧ nodes ≠ []

/-- The inventory of the last miner is as large as the fleet is by its states. -/
def LastFits : Prop :=
  ∀ hotkey nodes, Capable input hotkey nodes →
    (∀ hotkey' nodes', Capable input hotkey' nodes' → hotkey' ≤ hotkey) →
    (nodes.map fun node ↦ (node.gpuCount : ℤ)).sum =
      ((snapshot input).map NodeFlux.totalGpus).sum

/-! ### The strip adds up -/

variable {input}

theorem foldl_replicas (rows : List (ModelId × List ℕ)) (n : ℕ) :
    rows.foldl (fun n r ↦ n + if r.2 ≠ [] then 1 else 0) n =
      n + (rows.filter fun r ↦ r.2 ≠ []).length := by
  induction rows generalizing n with
  | nil => rfl
  | cons r rows ih =>
    rw [List.foldl_cons, ih, List.filter_cons]
    by_cases h : r.2 = []
    · simp [h]
    · simp only [h, ne_eq, not_false_eq_true, if_true, decide_true, List.length_cons]
      omega

theorem foldl_addState (states : List NodeFlux) (fleet : FleetStrip) :
    (states.foldl addState fleet).totalGpus =
        fleet.totalGpus + (states.map NodeFlux.totalGpus).sum ∧
      (states.foldl addState fleet).inferenceGpus =
        fleet.inferenceGpus + (states.map NodeFlux.inferenceGpus).sum ∧
      (states.foldl addState fleet).rentalGpus =
        fleet.rentalGpus + (states.map NodeFlux.rentalGpus).sum ∧
      (states.foldl addState fleet).idleGpus =
        fleet.idleGpus + (states.map NodeFlux.idleGpus).sum ∧
      (states.foldl addState fleet).activeCatalogReplicas =
        fleet.activeCatalogReplicas + (states.map fun state ↦ (assigned state).length).sum := by
  induction states generalizing fleet with
  | nil => simp
  | cons state states ih =>
    have hactive : (addState fleet state).activeCatalogReplicas =
        fleet.activeCatalogReplicas + (assigned state).length := by
      rw [assigned, List.length_map]
      exact foldl_replicas _ _
    obtain ⟨htotal, hinference, hrental, hidle, hreplicas⟩ := ih (addState fleet state)
    simp only [List.foldl_cons, List.map_cons, List.sum_cons]
    rw [htotal, hinference, hrental, hidle, hreplicas, hactive]
    simp only [addState, add_assoc, and_self]

/-- The states' figures add up. -/
theorem sum_of_balanced {states : List NodeFlux}
    (h : ∀ s ∈ states, s.inferenceGpus + s.rentalGpus + s.idleGpus = s.totalGpus) :
    (states.map NodeFlux.totalGpus).sum = (states.map NodeFlux.inferenceGpus).sum +
      (states.map NodeFlux.rentalGpus).sum + (states.map NodeFlux.idleGpus).sum := by
  induction states with
  | nil => rfl
  | cons s states ih =>
    have hs := h s List.mem_cons_self
    have hrest := ih fun s' hs' ↦ h s' (List.mem_cons_of_mem _ hs')
    simp only [List.map_cons, List.sum_cons, hrest, ← hs]
    omega

/-! ### The models' rows -/

theorem total_countAssigned (running : Table ModelId ℕ) (state : NodeFlux) :
    (countAssigned running state).total (fun _ n ↦ n) =
      running.total (fun _ n ↦ n) + (assigned state).length := by
  rw [countAssigned, assigned, List.length_map]
  generalize state.inferenceAssignments.rows = rows
  induction rows generalizing running with
  | nil => rfl
  | cons r rows ih =>
    rw [List.foldl_cons, ih, List.filter_cons]
    by_cases h : r.2 = []
    · simp [h]
    · rw [if_pos h, if_pos (decide_eq_true h), List.length_cons,
        Table.total_bump (v := 1) rfl fun _ ↦ rfl]
      omega

theorem mem_countAssigned {running : Table ModelId ℕ} {state : NodeFlux} {modelId : ModelId}
    (h : ((countAssigned running state).get? modelId).isSome = true) :
    (running.get? modelId).isSome = true ∨ modelId ∈ assigned state := by
  rw [countAssigned] at h
  rw [assigned]
  revert h
  generalize state.inferenceAssignments.rows = rows
  induction rows generalizing running with
  | nil => exact .inl
  | cons r rows ih =>
    intro h
    rw [List.foldl_cons] at h
    rw [List.filter_cons]
    by_cases hr : r.2 = []
    · rw [if_neg (not_not_intro hr)] at h
      rw [if_neg (by simp [hr])]
      exact ih h
    · rw [if_pos hr] at h
      rw [if_pos (decide_eq_true hr), List.map_cons, List.mem_cons]
      rcases ih h with hrunning | hmem
      · rcases (Table.isSome_get?_bump modelId).mp hrunning with rfl | hold
        · exact .inr (.inl rfl)
        · exact .inl hold
      · exact .inr (.inr hmem)

theorem foldl_countAssigned (states : List NodeFlux) (running : Table ModelId ℕ) :
    (states.foldl countAssigned running).total (fun _ n ↦ n) =
        running.total (fun _ n ↦ n) + (states.map fun state ↦ (assigned state).length).sum ∧
      ∀ modelId, ((states.foldl countAssigned running).get? modelId).isSome = true →
        (running.get? modelId).isSome = true ∨ ∃ state ∈ states, modelId ∈ assigned state := by
  induction states generalizing running with
  | nil => exact ⟨rfl, fun _ ↦ .inl⟩
  | cons state states ih =>
    obtain ⟨htotal, hkeys⟩ := ih (countAssigned running state)
    refine ⟨?_, fun modelId h ↦ ?_⟩
    · rw [List.foldl_cons, htotal, total_countAssigned, List.map_cons, List.sum_cons]
      omega
    · rcases hkeys modelId h with hold | ⟨state', hstate', hmem⟩
      · rcases mem_countAssigned hold with hold | hmem
        · exact .inl hold
        · exact .inr ⟨state, List.mem_cons_self, hmem⟩
      · exact .inr ⟨state', List.mem_cons_of_mem _ hstate', hmem⟩

/-- Over rows for every assigned model, the running replicas are all the assignments. -/
theorem sum_runningReplicas {states : List NodeFlux} {models : List ModelId}
    (hnodup : models.Nodup)
    (h : ∀ state ∈ states, ∀ modelId ∈ assigned state, modelId ∈ models) :
    (models.map fun modelId ↦ ((runningByModel states).get? modelId).getD 0).sum =
      (states.map fun state ↦ (assigned state).length).sum := by
  obtain ⟨htotal, hkeys⟩ := foldl_countAssigned states .empty
  have hmem : ∀ modelId, ((runningByModel states).get? modelId).isSome = true →
      modelId ∈ models.toFinset := fun modelId hsome ↦ by
    obtain ⟨state, hstate, hmem⟩ := (hkeys modelId hsome).resolve_left nofun
    exact List.mem_toFinset.mpr (h state hstate modelId hmem)
  rw [← runningByModel, Table.total_empty, zero_add] at htotal
  rw [← htotal, Table.total_eq_sum _ _ hmem, List.sum_toFinset _ hnodup]
  congr 1
  refine List.map_congr_left fun modelId _ ↦ ?_
  rw [Table.valueAt]
  cases (runningByModel states).get? modelId <;> rfl

/-! ### The miners' rows -/

/-- The rows are the miners', one after another. -/
theorem foldl_minerTurn_snd (miners : List (Hotkey × FluxCapability))
    (acc : ℤ × List MinerRow) :
    (miners.foldl (minerTurn input) acc).2 = acc.2 ++ miners.map fun miner ↦
      minerRow input miner.1 miner.2 (gpuCount input miner.1 miner.2) := by
  induction miners generalizing acc with
  | nil => exact (List.append_nil _).symm
  | cons miner miners ih =>
    rw [List.foldl_cons, ih, List.map_cons, minerTurn, List.append_assoc, List.singleton_append]

/-- `total_gpus` is left at the last miner's. -/
theorem foldl_minerTurn_fst (miners : List (Hotkey × FluxCapability))
    (acc : ℤ × List MinerRow) :
    (miners.foldl (minerTurn input) acc).1 =
      miners.getLast?.elim acc.1 fun miner ↦ gpuCount input miner.1 miner.2 := by
  induction miners using List.reverseRecOn with
  | nil => rfl
  | append_singleton miners miner _ =>
    rw [List.foldl_append, List.getLast?_concat]
    rfl

theorem mem_sortedCapabilities {miner : Hotkey × FluxCapability} :
    miner ∈ sortedCapabilities input ↔
      ∃ nodes, Capable input miner.1 nodes ∧ nodes.head? = some miner.2 := by
  rw [sortedCapabilities, List.mem_insertionSort, List.mem_filterMap]
  constructor
  · rintro ⟨⟨hotkey, nodes⟩, hmem, h⟩
    obtain ⟨cap, hcap, rfl⟩ := Option.map_eq_some_iff.mp h
    exact ⟨nodes, ⟨Table.mem_rows_iff.mp hmem, fun hnil ↦ by simp [hnil] at hcap⟩, hcap⟩
  · rintro ⟨nodes, ⟨hget, -⟩, hcap⟩
    exact ⟨(miner.1, nodes), Table.mem_rows_iff.mpr hget, by rw [hcap]; rfl⟩

theorem nodup_sortedCapabilities : ((sortedCapabilities input).map Prod.fst).Nodup := by
  have hperm := (List.perm_insertionSort (fun a b : Hotkey × FluxCapability ↦ a.1 ≤ b.1)
    (input.capabilities.rows.filterMap fun r ↦ r.2.head?.map (r.1, ·))).map Prod.fst
  rw [sortedCapabilities, hperm.nodup_iff]
  have hsublist (rows : List (Hotkey × List FluxCapability)) :
      ((rows.filterMap fun r ↦ r.2.head?.map (r.1, ·)).map Prod.fst).Sublist
        (rows.map Prod.fst) := by
    induction rows with
    | nil => exact List.Sublist.slnil
    | cons r rows ih =>
      obtain ⟨hotkey, nodes⟩ := r
      cases nodes with
      | nil => exact ih.trans (List.sublist_cons_self _ _)
      | cons cap nodes => exact ih.cons_cons hotkey
  exact input.capabilities.nodup.sublist (hsublist _)

/-- The last miner is the greatest one. -/
theorem le_of_getLast? {last miner : Hotkey × FluxCapability}
    (hlast : (sortedCapabilities input).getLast? = some last)
    (hmem : miner ∈ sortedCapabilities input) : miner.1 ≤ last.1 := by
  have hsorted : (sortedCapabilities input).Pairwise fun a b ↦ a.1 ≤ b.1 :=
    List.pairwise_insertionSort _ _
  have hrefl : Std.Refl fun a b : Hotkey × FluxCapability ↦ a.1 ≤ b.1 := ⟨fun a ↦ le_refl a.1⟩
  have hle := hsorted.rel_getLast hmem
  rwa [Option.some.inj ((List.getLast?_eq_some_getLast _).symm.trans hlast)] at hle

/-- What a miner's row has of its states. -/
theorem inferenceGpus_minerRow (hotkey : Hotkey) (cap : FluxCapability) (totalGpus : ℤ) :
    (minerRow input hotkey cap totalGpus).inferenceGpus =
      ((statesForHotkey input hotkey).map NodeFlux.inferenceGpus).sum := by
  rw [minerRow, aggregateFluxState]
  dsimp only
  split
  · next hnil =>
    rw [hnil]
    rfl
  · rfl

/-- Every state is one of some miner's. -/
theorem sum_inferenceGpus {hotkeys : List Hotkey} (hnodup : hotkeys.Nodup)
    (h : ∀ r ∈ input.fluxStates.rows, r.1.1 ∈ hotkeys) :
    (hotkeys.map fun hotkey ↦
        ((statesForHotkey input hotkey).map NodeFlux.inferenceGpus).sum).sum =
      ((snapshot input).map NodeFlux.inferenceGpus).sum := by
  classical
  have hperm := ((perm_flatMap_filter (fun r : (Hotkey × NodeId) × NodeFlux ↦ r.1.1) hnodup
    input.fluxStates.rows h).map fun r ↦ r.2.inferenceGpus).sum_eq
  rw [List.map_flatMap, List.flatMap_def, List.sum_flatten, List.map_map] at hperm
  rw [snapshot, List.map_map]
  refine Eq.trans ?_ hperm
  congr 1
  refine List.map_congr_left fun hotkey _ ↦ ?_
  rw [statesForHotkey, List.map_map]
  rfl

/-- The GPUs of a miner are those of its nodes. -/
theorem gpuCount_eq {hotkey : Hotkey} {nodes : List FluxCapability}
    (h : Capable input hotkey nodes) (cap : FluxCapability) :
    gpuCount input hotkey cap = (nodes.map fun node ↦ (node.gpuCount : ℤ)).sum := by
  rw [gpuCount, h.1]
  exact if_pos h.2

/-- The miner that `total_gpus` is left at is the greatest one, if there is any. -/
theorem totalGpus_eq : (buildFluxDashboard input).fleet.totalGpus =
    (sortedCapabilities input).getLast?.elim ((snapshot input).map NodeFlux.totalGpus).sum
      fun miner ↦ gpuCount input miner.1 miner.2 := by
  have htotal := (foldl_addState (snapshot input) ⟨0, 0, 0, 0, 0, 0, 0, 0⟩).1
  rw [zero_add] at htotal
  rw [← htotal]
  exact foldl_minerTurn_fst (sortedCapabilities input) _

/-- Apart from the total, the account is consistent for every fleet. -/
theorem consistent_of_total
    (hbalanced : ∀ state ∈ snapshot input,
      state.inferenceGpus + state.rentalGpus + state.idleGpus = state.totalGpus)
    (hcovered : ∀ r ∈ input.fluxStates.rows, r.1.1 ∈ (sortedCapabilities input).map Prod.fst)
    (h : (buildFluxDashboard input).fleet.totalGpus =
      ((snapshot input).map NodeFlux.totalGpus).sum) :
    Consistent input (buildFluxDashboard input) := by
  obtain ⟨-, hinference, hrental, hidle, hactive⟩ :=
    foldl_addState (snapshot input) ⟨0, 0, 0, 0, 0, 0, 0, 0⟩
  rw [← fleetStrip] at hinference hrental hidle hactive
  rw [zero_add] at hinference hrental hidle hactive
  refine ⟨h, ?_, ?_, fun hassigned ↦ ?_⟩
  · rw [h, sum_of_balanced hbalanced, ← hinference, ← hrental, ← hidle]
    rfl
  · have hrows : (buildFluxDashboard input).minerFleet.map MinerRow.inferenceGpus =
        (sortedCapabilities input).map fun miner ↦
          ((statesForHotkey input miner.1).map NodeFlux.inferenceGpus).sum := by
      change (((sortedCapabilities input).foldl (minerTurn input) _).2).map _ = _
      rw [foldl_minerTurn_snd, List.nil_append, List.map_map]
      exact List.map_congr_left fun miner _ ↦ inferenceGpus_minerRow miner.1 miner.2 _
    have hsum := sum_inferenceGpus nodup_sortedCapabilities hcovered
    rw [List.map_map] at hsum
    rw [hrows]
    exact hinference.trans hsum.symm
  · have hmodels : ((publicCatalog input).map Prod.fst).Nodup := Table.nodup_select _ _
    have hsum := sum_runningReplicas hmodels hassigned
    rw [← hactive, List.map_map] at hsum
    refine Eq.trans ?_ hsum
    change (((publicCatalog input).map (modelPool input _)).map ModelPool.runningReplicas).sum = _
    rw [List.map_map]
    rfl

/-- The dashboard's account is consistent exactly where the last miner's inventory is as large as
the fleet. -/
theorem dashboard_consistent_iff (input : DashboardInput)
    (hbalanced : ∀ state ∈ snapshot input,
      state.inferenceGpus + state.rentalGpus + state.idleGpus = state.totalGpus)
    (hcapable : ∀ hotkey nodeId state, input.fluxStates.get? (hotkey, nodeId) = some state →
      ∃ nodes, Capable input hotkey nodes) :
    Consistent input (buildFluxDashboard input) ↔ LastFits input := by
  have hlisted {hotkey : Hotkey} {nodes : List FluxCapability} (h : Capable input hotkey nodes) :
      ∃ cap, (hotkey, cap) ∈ sortedCapabilities input :=
    ⟨_, mem_sortedCapabilities.mpr ⟨nodes, h, List.head?_eq_some_head h.2⟩⟩
  have hcovered : ∀ r ∈ input.fluxStates.rows, r.1.1 ∈ (sortedCapabilities input).map Prod.fst := by
    intro r hr
    obtain ⟨nodes, hnodes⟩ := hcapable r.1.1 r.1.2 r.2 (Table.mem_rows_iff.mp hr)
    obtain ⟨cap, hcap⟩ := hlisted hnodes
    exact List.mem_map.mpr ⟨(r.1.1, cap), hcap, rfl⟩
  have hconsistent : Consistent input (buildFluxDashboard input) ↔
      (buildFluxDashboard input).fleet.totalGpus = ((snapshot input).map NodeFlux.totalGpus).sum :=
    ⟨Consistent.total, consistent_of_total hbalanced hcovered⟩
  rw [hconsistent, totalGpus_eq]
  cases hlast : (sortedCapabilities input).getLast? with
  | none =>
    have hempty := List.getLast?_eq_none_iff.mp hlast
    refine iff_of_true rfl fun hotkey nodes hnodes _ ↦ ?_
    obtain ⟨cap, hcap⟩ := hlisted hnodes
    rw [hempty] at hcap
    cases hcap
  | some last =>
    obtain ⟨nodes, hnodes, -⟩ := mem_sortedCapabilities.mp (List.mem_of_getLast? hlast)
    have hgreatest (hotkey : Hotkey) (nodes' : List FluxCapability)
        (h : Capable input hotkey nodes') : hotkey ≤ last.1 := by
      obtain ⟨cap, hcap⟩ := hlisted h
      exact le_of_getLast? hlast hcap
    rw [Option.elim_some, gpuCount_eq hnodes]
    refine ⟨fun h hotkey nodes' hnodes' hle ↦ ?_, fun h ↦ h last.1 nodes hnodes hgreatest⟩
    obtain rfl : hotkey = last.1 := le_antisymm (hgreatest _ _ hnodes') (hle _ _ hnodes)
    obtain rfl := Option.some.inj (hnodes'.1.symm.trans hnodes.1)
    exact h

/-- A node with eight GPUs, one of which runs a model. -/
def eightGpuNode (hotkey : Hotkey) (modelId : ModelId) : NodeFlux :=
  ⟨hotkey, 8, 2, 1, 5, Table.empty.insert modelId [0], none⟩

/-- The inventory of a node with eight GPUs. -/
def eightGpuCapability (nodeId : NodeId) : FluxCapability :=
  ⟨nodeId, "rtx4090".toList, 8, 8, 24, none⟩

/-- Miners with a node each, of eight GPUs. -/
def eightGpuMiners (hotkeys : List Hotkey) (h : hotkeys.Nodup := by decide) : DashboardInput where
  targetRpmPerReplica := 30
  unrebalanced := none
  fluxStates :=
    { rows := hotkeys.map fun hotkey ↦ ((hotkey, 1), eightGpuNode hotkey "llama".toList)
      nodup := by
        rw [List.map_map]
        exact h.map fun a b hab ↦ congrArg Prod.fst hab }
  replicaTargets := .empty
  catalog := .ofRows [("llama".toList, ⟨"llama".toList, "Llama".toList, [], [], 24, 1, none,
    "public".toList, 1, none, [], none, none, none, [], []⟩)]
  demand := []
  capabilities :=
    { rows := hotkeys.map fun hotkey ↦ (hotkey, [eightGpuCapability 1])
      nodup := by
        rw [List.map_map]
        exact h.map fun a b hab ↦ hab }
  scorecards := .empty
  now := 0

theorem capable_eightGpuMiners {hotkeys : List Hotkey} (h : hotkeys.Nodup) (hotkey : Hotkey)
    (nodeId : NodeId) (state : NodeFlux)
    (hget : (eightGpuMiners hotkeys h).fluxStates.get? (hotkey, nodeId) = some state) :
    ∃ nodes, Capable (eightGpuMiners hotkeys h) hotkey nodes := by
  obtain ⟨hotkey', hmem, heq⟩ := List.mem_map.mp (Table.mem_rows_iff.mpr hget)
  obtain rfl : hotkey' = hotkey := congrArg (fun r ↦ r.1.1) heq
  exact ⟨_, Table.mem_rows_iff.mp (List.mem_map_of_mem hmem), List.cons_ne_nil _ _⟩

theorem dashboard_of_one_miner :
    Consistent (eightGpuMiners [1]) (buildFluxDashboard (eightGpuMiners [1])) := by
  refine (dashboard_consistent_iff (eightGpuMiners [1]) (by decide)
    (capable_eightGpuMiners (by decide))).mpr fun hotkey nodes hnodes _ ↦ ?_
  obtain ⟨hotkey', -, heq⟩ := List.mem_map.mp (Table.mem_rows_iff.mpr hnodes.1)
  obtain rfl : [eightGpuCapability 1] = nodes := congrArg Prod.snd heq
  decide

/-- Two miners of eight GPUs: the fleet has sixteen by its states, and eight by the dashboard. -/
theorem dashboard_of_two_miners :
    ¬∀ input : DashboardInput,
      (∀ state ∈ snapshot input,
        state.inferenceGpus + state.rentalGpus + state.idleGpus = state.totalGpus) →
      (∀ hotkey nodeId state, input.fluxStates.get? (hotkey, nodeId) = some state →
        ∃ nodes, Capable input hotkey nodes) →
      Consistent input (buildFluxDashboard input) := by
  intro h
  have hconsistent := h (eightGpuMiners [1, 2]) (by decide) (capable_eightGpuMiners (by decide))
  exact absurd hconsistent.total (by decide)

end Dashboard

end GreenCompute
