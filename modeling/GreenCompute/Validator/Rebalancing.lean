import GreenCompute.Validator.Flux

/-!
# What a rebalance moves

A rebalance moves idle GPUs to inference and to rentals, and tells of each GPU that it moves in an
event. The counts are sound: nothing is lost, nothing that runs is taken away, and the floors are
kept where they can be. The events number the GPUs. The inference GPUs of a node are its first ones,
and the rented ones come after them; but an event about a rental counts from the number of rented
GPUs alone, which is right only where inference has no more GPUs than rentals had
(`rental_events_in_block`).
-/

namespace GreenCompute

/-- `GpuAllocationMode` -/
inductive GpuAllocationMode where
  | inference
  | rental
  | idle
  deriving DecidableEq

/-- `FluxRebalanceEvent`, without its reason and its time. -/
structure FluxRebalanceEvent where
  hotkey : Hotkey
  nodeId : NodeId
  gpuIndex : ℕ
  fromMode : GpuAllocationMode
  toMode : GpuAllocationMode
  modelId : Option ModelId
  deriving DecidableEq

namespace FluxOrchestrator

/-! ## The moves -/

section

variable (input : FluxInput) (hotkey : Hotkey) (nodeId : NodeId) (state : FluxState)

/-- `inference_floor` -/
def inferenceFloor : ℕ := max 1 ⌈state.totalGpus * input.inferenceFloorPct⌉₊

/-- `rental_floor` -/
def rentalFloor : ℕ := max 1 ⌈state.totalGpus * input.rentalFloorPct⌉₊

/-- `flex_pool` -/
def flexPool : ℕ := state.totalGpus - inferenceFloor input state - rentalFloor input state

/-- `flex_to_inference` -/
def flexToInference : ℕ :=
  if 0 < input.inferenceScore hotkey + input.rentalScore hotkey then
    ⌊flexPool input state *
      (input.inferenceScore hotkey / (input.inferenceScore hotkey + input.rentalScore hotkey))⌋₊
  else flexPool input state / 2

/-- `target_inference` -/
def targetInference : ℕ := inferenceFloor input state + flexToInference input hotkey state

/-- `target_rental` -/
def targetRental : ℕ :=
  rentalFloor input state + (flexPool input state - flexToInference input hotkey state)

/-- `inference_add` -/
def inferenceAdd : ℕ :=
  min (targetInference input hotkey state - min state.inferenceGpus state.totalGpus) state.idleGpus

/-- `rental_add` -/
def rentalAdd : ℕ :=
  min (targetRental input hotkey state - min state.rentalGpus state.totalGpus)
    (state.idleGpus - inferenceAdd input hotkey state)

/-- The events of so many GPUs, counted from a first one. -/
def moves (toMode : GpuAllocationMode) (first add : ℕ) : List FluxRebalanceEvent :=
  (List.range add).map fun i ↦ ⟨hotkey, nodeId, first + i, .idle, toMode, none⟩

/-- `index_to_model` -/
def indexToModel (assignments : Table ModelId (List ℕ)) (i : ℕ) : Option ModelId :=
  (assignments.select fun _ gpus ↦ i ∈ gpus).getLast?.map Prod.fst

/-- An event that moves a GPU to inference is given the model that the GPU is to run. -/
def backfill (assignments : Table ModelId (List ℕ)) (event : FluxRebalanceEvent) :
    FluxRebalanceEvent :=
  if event.toMode = .inference then
    match indexToModel assignments event.gpuIndex with
    | none => event
    | some modelId => { event with modelId := some modelId }
  else event

/-- The events of `rebalance`. -/
def rebalanceEvents (catalog : List ModelCatalogEntry) (vramGbPerGpu : Option ℕ)
    (replicaTargets : Table ModelId ℕ) (pinned : List ModelId) : List FluxRebalanceEvent :=
  if state.totalGpus = 0 then []
  else
    (moves hotkey nodeId .inference (min state.inferenceGpus state.totalGpus)
        (inferenceAdd input hotkey state) ++
      moves hotkey nodeId .rental (min state.rentalGpus state.totalGpus)
        (rentalAdd input hotkey state)).map
      (backfill (rebalance input hotkey state catalog vramGbPerGpu replicaTargets
        pinned).inferenceAssignments)

end

variable {input : FluxInput} {hotkey : Hotkey} {nodeId : NodeId} {state : FluxState}
  {catalog : List ModelCatalogEntry} {vram : Option ℕ} {targets : Table ModelId ℕ}
  {pinned : List ModelId}

/-- The counts after a rebalance. -/
theorem rebalance_counts (htotal : state.totalGpus ≠ 0) :
    (rebalance input hotkey state catalog vram targets pinned).totalGpus = state.totalGpus ∧
    (rebalance input hotkey state catalog vram targets pinned).inferenceGpus =
      min state.inferenceGpus state.totalGpus + inferenceAdd input hotkey state ∧
    (rebalance input hotkey state catalog vram targets pinned).rentalGpus =
      min state.rentalGpus state.totalGpus + rentalAdd input hotkey state ∧
    (rebalance input hotkey state catalog vram targets pinned).idleGpus =
      state.idleGpus - inferenceAdd input hotkey state - rentalAdd input hotkey state := by
  rw [rebalance, dif_neg htotal]
  exact ⟨rfl, rfl, rfl, rfl⟩

/-- The share of inference in the flexible GPUs. -/
theorem flexToInference_le (hrental : 0 ≤ input.rentalScore hotkey) :
    flexToInference input hotkey state ≤ flexPool input state := by
  rw [flexToInference]
  split_ifs with hdemand
  · refine Nat.floor_le_of_le ?_
    have hshare : input.inferenceScore hotkey /
        (input.inferenceScore hotkey + input.rentalScore hotkey) ≤ 1 :=
      (div_le_one hdemand).mpr (le_add_of_nonneg_right hrental)
    exact mul_le_of_le_one_right (Nat.cast_nonneg _) hshare
  · exact Nat.div_le_self _ _

/-! ## The events -/

/-- The GPUs that the events move to a mode. -/
def indices (mode : GpuAllocationMode) (events : List FluxRebalanceEvent) : List ℕ :=
  (events.filter fun event ↦ event.toMode = mode).map FluxRebalanceEvent.gpuIndex

theorem backfill_gpuIndex (assignments : Table ModelId (List ℕ)) (event : FluxRebalanceEvent) :
    (backfill assignments event).gpuIndex = event.gpuIndex := by
  rw [backfill]
  split
  · split <;> rfl
  · rfl

theorem backfill_toMode (assignments : Table ModelId (List ℕ)) (event : FluxRebalanceEvent) :
    (backfill assignments event).toMode = event.toMode := by
  rw [backfill]
  split
  · split <;> rfl
  · rfl

theorem indices_backfill (mode : GpuAllocationMode) (assignments : Table ModelId (List ℕ))
    (events : List FluxRebalanceEvent) :
    indices mode (events.map (backfill assignments)) = indices mode events := by
  simp only [indices, List.filter_map, List.map_map, Function.comp_def, backfill_gpuIndex,
    backfill_toMode]

theorem indices_moves (mode toMode : GpuAllocationMode) (first add : ℕ) :
    indices mode (moves hotkey nodeId toMode first add) =
      if toMode = mode then List.range' first add else [] := by
  rw [indices, moves, List.filter_map, List.map_map]
  split_ifs with hmode
  · have hall : (List.range add).filter ((fun event : FluxRebalanceEvent ↦
        decide (event.toMode = mode)) ∘ fun i ↦ ⟨hotkey, nodeId, first + i, .idle, toMode, none⟩) =
        List.range add := List.filter_eq_self.mpr fun _ _ ↦ decide_eq_true hmode
    rw [hall, List.range'_eq_map_range]
    rfl
  · have hnone : (List.range add).filter ((fun event : FluxRebalanceEvent ↦
        decide (event.toMode = mode)) ∘ fun i ↦ ⟨hotkey, nodeId, first + i, .idle, toMode, none⟩) =
        [] := List.filter_eq_nil_iff.mpr fun _ _ h ↦ hmode (of_decide_eq_true h)
    rw [hnone, List.map_nil]

/-- The events about inference count on from the inference GPUs, those about rentals from the rented
ones. -/
theorem indices_rebalanceEvents (htotal : state.totalGpus ≠ 0) :
    indices .inference (rebalanceEvents input hotkey nodeId state catalog vram targets pinned) =
      List.range' (min state.inferenceGpus state.totalGpus) (inferenceAdd input hotkey state) ∧
    indices .rental (rebalanceEvents input hotkey nodeId state catalog vram targets pinned) =
      List.range' (min state.rentalGpus state.totalGpus) (rentalAdd input hotkey state) := by
  have happend (mode : GpuAllocationMode) (l l' : List FluxRebalanceEvent) :
      indices mode (l ++ l') = indices mode l ++ indices mode l' := by
    simp only [indices, List.filter_append, List.map_append]
  rw [rebalanceEvents, if_neg htotal]
  simp only [indices_backfill, happend, indices_moves]
  exact ⟨List.append_nil _, List.nil_append _⟩

/-! ## Conservation -/

/-- What a rebalance keeps. -/
structure Rebalanced (input : FluxInput) (state new : FluxState)
    (events : List FluxRebalanceEvent) : Prop where
  total : new.totalGpus = state.totalGpus
  sum : new.inferenceGpus + new.rentalGpus + new.idleGpus = new.totalGpus
  inference : state.inferenceGpus ≤ new.inferenceGpus
  rental : state.rentalGpus ≤ new.rentalGpus
  moved : events.length + new.idleGpus = state.idleGpus
  distinct : (indices .inference events).Nodup
  block : ∀ i ∈ indices .inference events, i < new.inferenceGpus
  floors : inferenceFloor input state + rentalFloor input state ≤ state.totalGpus →
    state.inferenceGpus ≤ state.totalGpus - rentalFloor input state →
    state.rentalGpus ≤ state.totalGpus - inferenceFloor input state →
    inferenceFloor input state ≤ new.inferenceGpus ∧ rentalFloor input state ≤ new.rentalGpus

/-- The events about rentals carry distinct GPUs of the rented block, which comes after the
inference GPUs. -/
def RentalsInBlock (new : FluxState) (events : List FluxRebalanceEvent) : Prop :=
  (indices .rental events).Nodup ∧ ∀ i ∈ indices .rental events,
    new.inferenceGpus ≤ i ∧ i < new.inferenceGpus + new.rentalGpus

instance (new : FluxState) (events : List FluxRebalanceEvent) :
    Decidable (RentalsInBlock new events) := inferInstanceAs (Decidable (_ ∧ _))

/-- No GPU goes to a rental, or inference will have no more GPUs than rentals have. -/
def RentalsLead (input : FluxInput) (hotkey : Hotkey) (state : FluxState) : Prop :=
  targetRental input hotkey state ≤ state.rentalGpus ∨
    state.idleGpus ≤ targetInference input hotkey state - state.inferenceGpus ∨
      max state.inferenceGpus (targetInference input hotkey state) ≤ state.rentalGpus

instance (input : FluxInput) (hotkey : Hotkey) (state : FluxState) :
    Decidable (RentalsLead input hotkey state) := inferInstanceAs (Decidable (_ ∨ _ ∨ _))

/-- Idle GPUs that go first to one side and then to the other leave neither below its floor. -/
theorem floors_kept {total inference rental idle floorI floorR flexI flexR addI addR : ℕ}
    (hsum : inference + rental + idle = total) (hflex : flexI + flexR = total - floorI - floorR)
    (hfloors : floorI + floorR ≤ total) (hinference : inference ≤ total - floorR)
    (hrental : rental ≤ total - floorI) (haddI : addI = min (floorI + flexI - inference) idle)
    (haddR : addR = min (floorR + flexR - rental) (idle - addI)) :
    floorI ≤ inference + addI ∧ floorR ≤ rental + addR := by
  rcases Nat.le_total (floorI + flexI - inference) idle with hall | hall
  · rw [Nat.min_eq_left hall] at haddI
    omega
  · rw [Nat.min_eq_right hall] at haddI
    omega

/-- The rented GPUs are counted on from where they are, or none is rented. -/
theorem rentals_lead_iff {inference rental idle targetI targetR addI addR : ℕ}
    (haddI : addI = min (targetI - inference) idle)
    (haddR : addR = min (targetR - rental) (idle - addI)) :
    (addR = 0 ∨ inference + addI ≤ rental) ↔
      (targetR ≤ rental ∨ idle ≤ targetI - inference ∨ max inference targetI ≤ rental) := by
  rcases Nat.lt_or_ge (targetI - inference) idle with hsome | hall
  · rw [Nat.min_eq_left hsome.le] at haddI
    have hnew : inference + addI = max inference targetI := by omega
    rw [hnew]
    omega
  · rw [Nat.min_eq_right hall] at haddI
    exact iff_of_true (.inl (by omega)) (.inr (.inl hall))

/-- Indices that are counted on from a first one lie in a block that ends no earlier exactly if the
first one does not lie before it. -/
theorem range'_in_block_iff {first add start stop : ℕ} (hstop : first + add ≤ stop) :
    (∀ i ∈ List.range' first add, start ≤ i ∧ i < stop) ↔ add = 0 ∨ start ≤ first := by
  constructor
  · intro hblock
    by_contra hbefore
    have hfirst := hblock first (List.mem_range'_1.mpr (by omega))
    omega
  · intro hlead i hi
    rw [List.mem_range'_1] at hi
    omega

/-- **A rebalance conserves the GPUs** of a node, takes none away from what runs, tells of each that
it moves, and keeps the floors where they can be kept. The events about rentals name GPUs of the
rented block exactly where rentals lead. -/
theorem rental_events_in_block (nodeId : NodeId) (catalog : List ModelCatalogEntry)
    (vram : Option ℕ) (targets : Table ModelId ℕ) (pinned : List ModelId)
    (hsum : state.inferenceGpus + state.rentalGpus + state.idleGpus = state.totalGpus)
    (hdemand : 0 ≤ input.rentalScore hotkey) :
    Rebalanced input state (rebalance input hotkey state catalog vram targets pinned)
        (rebalanceEvents input hotkey nodeId state catalog vram targets pinned) ∧
      (RentalsInBlock (rebalance input hotkey state catalog vram targets pinned)
        (rebalanceEvents input hotkey nodeId state catalog vram targets pinned) ↔
          RentalsLead input hotkey state) := by
  by_cases htotal : state.totalGpus = 0
  · have hevents : rebalanceEvents input hotkey nodeId state catalog vram targets pinned = [] :=
      if_pos htotal
    have hnew : rebalance input hotkey state catalog vram targets pinned = state := dif_pos htotal
    rw [hevents, hnew]
    have hnone : ∀ i ∈ indices .inference [], i < state.inferenceGpus := fun _ h ↦ nomatch h
    refine ⟨⟨rfl, hsum, le_rfl, le_rfl, Nat.zero_add _, List.nodup_nil, hnone, ?_⟩, ?_⟩
    · intro hfloors
      have hone : 1 ≤ inferenceFloor input state := le_max_left _ _
      omega
    · have hidle : state.idleGpus = 0 := by omega
      exact iff_of_true ⟨List.nodup_nil, fun _ h ↦ nomatch h⟩ (.inr (.inl (hidle ▸ Nat.zero_le _)))
  · obtain ⟨hnew, hnewInference, hnewRental, hnewIdle⟩ :=
      @rebalance_counts input hotkey state catalog vram targets pinned htotal
    obtain ⟨hinferenceEvents, hrentalEvents⟩ :=
      @indices_rebalanceEvents input hotkey nodeId state catalog vram targets pinned htotal
    have hlength : (rebalanceEvents input hotkey nodeId state catalog vram targets pinned).length =
        inferenceAdd input hotkey state + rentalAdd input hotkey state := by
      simp only [rebalanceEvents, if_neg htotal, List.length_map, List.length_append, moves,
        List.length_range]
    have hflex : flexToInference input hotkey state ≤ flexPool input state :=
      flexToInference_le hdemand
    -- Nothing runs beyond the GPUs that the node has.
    have hinference : min state.inferenceGpus state.totalGpus = state.inferenceGpus :=
      Nat.min_eq_left (by omega)
    have hrental : min state.rentalGpus state.totalGpus = state.rentalGpus :=
      Nat.min_eq_left (by omega)
    rw [hinference] at hnewInference hinferenceEvents
    rw [hrental] at hnewRental hrentalEvents
    have hinferenceAdd : inferenceAdd input hotkey state =
        min (targetInference input hotkey state - state.inferenceGpus) state.idleGpus := by
      rw [inferenceAdd, hinference]
    have hrentalAdd : rentalAdd input hotkey state =
        min (targetRental input hotkey state - state.rentalGpus)
          (state.idleGpus - inferenceAdd input hotkey state) := by
      rw [rentalAdd, hrental]
    -- What is moved comes from the idle GPUs.
    have hmovedI : inferenceAdd input hotkey state ≤ state.idleGpus :=
      hinferenceAdd.trans_le (Nat.min_le_right _ _)
    have hmovedR : rentalAdd input hotkey state ≤
        state.idleGpus - inferenceAdd input hotkey state :=
      hrentalAdd.trans_le (Nat.min_le_right _ _)
    have hfloorsKept : inferenceFloor input state + rentalFloor input state ≤ state.totalGpus →
        state.inferenceGpus ≤ state.totalGpus - rentalFloor input state →
        state.rentalGpus ≤ state.totalGpus - inferenceFloor input state →
          inferenceFloor input state ≤ state.inferenceGpus + inferenceAdd input hotkey state ∧
            rentalFloor input state ≤ state.rentalGpus + rentalAdd input hotkey state :=
      fun hfloors hinference hrental ↦ floors_kept hsum (Nat.add_sub_cancel' hflex) hfloors
        hinference hrental hinferenceAdd hrentalAdd
    have hlead := rentals_lead_iff hinferenceAdd hrentalAdd
    rw [RentalsInBlock, RentalsLead, hrentalEvents, hnewInference, hnewRental, ← hlead]
    clear hinferenceAdd hrentalAdd hlead hflex hinference hrental
    refine ⟨⟨hnew, by omega, by omega, by omega, by omega, ?_, ?_, ?_⟩, ?_⟩
    · rw [hinferenceEvents]
      exact List.nodup_range'
    · intro i hi
      rw [hinferenceEvents, List.mem_range'_1] at hi
      omega
    · rw [hnewInference, hnewRental]
      exact hfloorsKept
    · rw [and_iff_right List.nodup_range', range'_in_block_iff (by omega)]

/-- Shares of a fifth and a tenth, and demand for both. -/
def evenDemand : FluxInput where
  inferenceFloorPct := 1 / 5
  rentalFloorPct := 1 / 10
  excludedGpuModels := []
  nodeInventoryTimeout := 180
  inferenceScore _ := 1
  rentalScore _ := 1
  replicaTarget _ := 0
  scan := ⟨id, Scan.perm_id⟩
  sets := ⟨List.dedup, SetOrder.perm_dedup⟩
  distributedPlan _ := []

/-- Eight GPUs. -/
def eightGpus (inference rental idle : ℕ) : FluxState :=
  ⟨8, inference, rental, idle, .empty, fun _ ↦ rfl⟩

/-- Of three idle GPUs, two go to inference and one to a rental. -/
theorem rental_events_in_block_full :
    Rebalanced evenDemand (eightGpus 2 3 3)
        (rebalance evenDemand 1 (eightGpus 2 3 3) [] none .empty [])
        (rebalanceEvents evenDemand 1 1 (eightGpus 2 3 3) [] none .empty []) ∧
      (RentalsInBlock (rebalance evenDemand 1 (eightGpus 2 3 3) [] none .empty [])
        (rebalanceEvents evenDemand 1 1 (eightGpus 2 3 3) [] none .empty []) ↔
          RentalsLead evenDemand 1 (eightGpus 2 3 3)) :=
  rental_events_in_block 1 [] none .empty [] rfl (by decide +kernel)

/-- A node with eight idle GPUs: the events about its rentals name the GPUs of inference. -/
theorem rental_events_name_inference :
    indices .inference (rebalanceEvents evenDemand 1 1 (eightGpus 0 0 8) [] none .empty []) =
        [0, 1, 2, 3] ∧
      indices .rental (rebalanceEvents evenDemand 1 1 (eightGpus 0 0 8) [] none .empty []) =
        [0, 1, 2, 3] ∧
      ¬RentalsInBlock (rebalance evenDemand 1 (eightGpus 0 0 8) [] none .empty [])
        (rebalanceEvents evenDemand 1 1 (eightGpus 0 0 8) [] none .empty []) := by
  decide +kernel

end FluxOrchestrator

end GreenCompute
