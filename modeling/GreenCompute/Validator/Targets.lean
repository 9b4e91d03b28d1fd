import GreenCompute.Foundations.Steps
import GreenCompute.Validator.Catalog
import GreenCompute.Validator.Flux

/-!
# How many replicas a model is to have

Each rebalance derives from the recent demand how many replicas every public model is to have,
within the bounds that the catalog sets, and keeps the numbers for the next time. A model that was
hot a short while ago keeps at least the number it had. The previous number is taken as it is, so
while a model cools down it may be above a bound that was lowered in the meantime, but it is no new
number: it is the one from before (`replica_targets_bounded`).
-/

namespace GreenCompute

/-- The validator's settings for targets. -/
structure TargetSettings where
  targetRpmPerReplica : ℚ := 30
  fluxCooldownSeconds : ℚ := 300
  rpm_pos : 0 < targetRpmPerReplica := by decide

/-- `read_demand_windows`: requests in a minute, over the last ten minutes and the last hour. -/
structure DemandWindows where
  rpm10m : ℚ
  rpm1h : ℚ

/-- `_demand_last_hot_at` and `_replica_targets`. -/
structure TargetMaps where
  demandLastHotAt : Table ModelId Time
  replicaTargets : Table ModelId ℕ

/-- What a call of `compute_replica_targets` finds: the clock, the public models of the catalog and
their demand. -/
structure TargetCall where
  now : Time
  catalog : List ModelCatalogEntry
  readDemandWindows : ModelId → DemandWindows
  nodup : (catalog.map ModelCatalogEntry.modelId).Nodup := by decide

namespace TargetMaps

section

variable (settings : TargetSettings)

/-- `blended` -/
def blended (windows : DemandWindows) : ℚ := 7 / 10 * windows.rpm10m + 3 / 10 * windows.rpm1h

/-- The target that the demand asks for, within the bounds of the catalog. -/
def clamped (windows : DemandWindows) (entry : ModelCatalogEntry) : ℕ :=
  let rawTarget := ⌈blended windows / settings.targetRpmPerReplica⌉₊
  let target := max entry.minReplicas rawTarget
  match entry.maxReplicas with
  | some maxReplicas => min target maxReplicas
  | none => target

/-- `last_hot`, with the model above its scale-up floor now or not. -/
def lastHot (now : Time) (windows : DemandWindows) (before : Option Time) : Option Time :=
  if settings.targetRpmPerReplica < blended windows then some now else before

/-- `in_cooldown` -/
def inCooldown (now : Time) : Option Time → Bool
  | some hot => now - hot < settings.fluxCooldownSeconds
  | none => false

/-- The target of a model that was last hot at some time. -/
def targetOf (now : Time) (windows : DemandWindows) (hot : Option Time) (previous : Option ℕ)
    (entry : ModelCatalogEntry) : ℕ :=
  let target := clamped settings windows entry
  if inCooldown settings now hot then max target (previous.getD target) else target

/-- One pass of the loop of `compute_replica_targets`. -/
def consider (call : TargetCall) (previous : Table ModelId ℕ) (maps : TargetMaps)
    (entry : ModelCatalogEntry) : TargetMaps :=
  let windows := call.readDemandWindows entry.modelId
  let lastHotAt :=
    if settings.targetRpmPerReplica < blended windows then
      maps.demandLastHotAt.insert entry.modelId call.now
    else maps.demandLastHotAt
  { demandLastHotAt := lastHotAt
    replicaTargets := maps.replicaTargets.insert entry.modelId
      (targetOf settings call.now windows (lastHotAt.get? entry.modelId)
        (previous.get? entry.modelId) entry) }

/-- `compute_replica_targets`, whose result `rebalance_all_miners` stores. -/
def compute (call : TargetCall) (maps : TargetMaps) : TargetMaps :=
  call.catalog.foldl (consider settings call maps.replicaTargets)
    { maps with replicaTargets := .empty }

/-- The maps after some calls. -/
def after (calls : List TargetCall) : TargetMaps :=
  Steps.replay (compute settings) ⟨.empty, .empty⟩ calls

end

/-! ## One call -/

section

variable {settings : TargetSettings} {call : TargetCall} {previous : Table ModelId ℕ}
  {maps : TargetMaps} {id : ModelId}

theorem consider_of_ne {entry : ModelCatalogEntry} (h : id ≠ entry.modelId) :
    (consider settings call previous maps entry).demandLastHotAt.get? id =
        maps.demandLastHotAt.get? id ∧
      (consider settings call previous maps entry).replicaTargets.get? id =
        maps.replicaTargets.get? id := by
  constructor
  · rw [consider]
    dsimp only
    split
    · rw [Table.get?_insert_ne _ h]
    · rfl
  · rw [consider, Table.get?_insert_ne _ h]

theorem consider_self (entry : ModelCatalogEntry) :
    (consider settings call previous maps entry).demandLastHotAt.get? entry.modelId =
        lastHot settings call.now (call.readDemandWindows entry.modelId)
          (maps.demandLastHotAt.get? entry.modelId) ∧
      (consider settings call previous maps entry).replicaTargets.get? entry.modelId =
        some (targetOf settings call.now (call.readDemandWindows entry.modelId)
          (lastHot settings call.now (call.readDemandWindows entry.modelId)
            (maps.demandLastHotAt.get? entry.modelId))
          (previous.get? entry.modelId) entry) := by
  have hhot : (consider settings call previous maps entry).demandLastHotAt.get? entry.modelId =
      lastHot settings call.now (call.readDemandWindows entry.modelId)
        (maps.demandLastHotAt.get? entry.modelId) := by
    rw [consider, lastHot]
    dsimp only
    split
    · rw [Table.get?_insert_self]
    · rfl
  refine ⟨hhot, ?_⟩
  rw [← hhot]
  exact Table.get?_insert_self _ _ _

/-- A model that is not in the catalog is not considered. -/
theorem consider_all_of_notMem {entries : List ModelCatalogEntry}
    (h : id ∉ entries.map ModelCatalogEntry.modelId) :
    (entries.foldl (consider settings call previous) maps).demandLastHotAt.get? id =
        maps.demandLastHotAt.get? id ∧
      (entries.foldl (consider settings call previous) maps).replicaTargets.get? id =
        maps.replicaTargets.get? id := by
  induction entries generalizing maps with
  | nil => exact ⟨rfl, rfl⟩
  | cons entry entries ih =>
    rw [List.map_cons, List.mem_cons, not_or] at h
    obtain ⟨hhot, htarget⟩ :=
      @consider_of_ne settings call previous maps id entry h.1
    obtain ⟨hhot', htarget'⟩ := @ih (consider settings call previous maps entry) h.2
    exact ⟨hhot'.trans hhot, htarget'.trans htarget⟩

/-- A model of the catalog is considered once. -/
theorem consider_all_of_mem {entries : List ModelCatalogEntry} {entry : ModelCatalogEntry}
    (hmem : entry ∈ entries) (hnodup : (entries.map ModelCatalogEntry.modelId).Nodup) :
    (entries.foldl (consider settings call previous) maps).demandLastHotAt.get? entry.modelId =
        lastHot settings call.now (call.readDemandWindows entry.modelId)
          (maps.demandLastHotAt.get? entry.modelId) ∧
      (entries.foldl (consider settings call previous) maps).replicaTargets.get? entry.modelId =
        some (targetOf settings call.now (call.readDemandWindows entry.modelId)
          (lastHot settings call.now (call.readDemandWindows entry.modelId)
            (maps.demandLastHotAt.get? entry.modelId))
          (previous.get? entry.modelId) entry) := by
  induction entries generalizing maps with
  | nil => cases hmem
  | cons first entries ih =>
    rw [List.map_cons, List.nodup_cons] at hnodup
    rw [List.foldl_cons]
    rcases List.mem_cons.mp hmem with rfl | hmem
    · obtain ⟨hhot, htarget⟩ := @consider_self settings call previous maps entry
      obtain ⟨hhot', htarget'⟩ := @consider_all_of_notMem settings call previous
        (consider settings call previous maps entry) entry.modelId entries hnodup.1
      exact ⟨hhot'.trans hhot, htarget'.trans htarget⟩
    · have hne : entry.modelId ≠ first.modelId := by
        intro h
        exact hnodup.1 (h ▸ List.mem_map_of_mem hmem)
      obtain ⟨hhot, -⟩ := @consider_of_ne settings call previous maps entry.modelId first hne
      rw [← hhot]
      exact ih hmem hnodup.2

end

/-! ## A history of calls -/

section

variable (settings : TargetSettings)

/-- A call at which a model of the catalog is above its scale-up floor. -/
def isHot (id : ModelId) (call : TargetCall) : Bool :=
  call.catalog.any (fun entry ↦ entry.modelId = id) &&
    settings.targetRpmPerReplica < blended (call.readDemandWindows id)

/-- When a model was last above its scale-up floor. -/
def lastAbove (id : ModelId) (calls : List TargetCall) : Option Time :=
  (calls.reverse.find? (isHot settings id)).map TargetCall.now

/-- Less than the cooldown has passed since a model was last above its scale-up floor. -/
def Cooling (id : ModelId) (calls : List TargetCall) (now : Time) : Prop :=
  ∃ hot, lastAbove settings id calls = some hot ∧ now - hot < settings.fluxCooldownSeconds

end

variable {settings : TargetSettings} {id : ModelId}

theorem after_concat (calls : List TargetCall) (call : TargetCall) :
    after settings (calls ++ [call]) = compute settings call (after settings calls) :=
  List.foldl_append

theorem lastAbove_concat (calls : List TargetCall) (call : TargetCall) :
    lastAbove settings id (calls ++ [call]) =
      if isHot settings id call then some call.now else lastAbove settings id calls := by
  rw [lastAbove, List.reverse_append, List.reverse_singleton, List.singleton_append,
    List.find?_cons]
  split
  · next h => rw [h, if_pos rfl, Option.map_some]
  · next h => rw [h, if_neg Bool.false_ne_true, lastAbove]

/-- Of a model in the catalog. -/
theorem lastHot_eq {call : TargetCall} {entry : ModelCatalogEntry} (h : entry ∈ call.catalog)
    (before : Option Time) :
    lastHot settings call.now (call.readDemandWindows entry.modelId) before =
      if isHot settings entry.modelId call then some call.now else before := by
  have hany : call.catalog.any (fun e ↦ e.modelId = entry.modelId) = true :=
    List.any_eq_true.mpr ⟨entry, h, decide_eq_true rfl⟩
  rw [lastHot, isHot, hany, Bool.true_and]
  simp only [decide_eq_true_eq]

/-- What is kept of a model is when it was last hot. -/
theorem demandLastHotAt_after (calls : List TargetCall) :
    (after settings calls).demandLastHotAt.get? id = lastAbove settings id calls := by
  induction calls using List.reverseRec with
  | nil => rfl
  | append_singleton calls call ih =>
    rw [after_concat, lastAbove_concat, compute]
    by_cases hmem : id ∈ call.catalog.map ModelCatalogEntry.modelId
    · obtain ⟨entry, hentry, rfl⟩ := List.mem_map.mp hmem
      rw [(consider_all_of_mem hentry call.nodup).1, ih, lastHot_eq hentry]
    · have hcold : isHot settings id call = false := by
        rw [isHot, Bool.and_eq_false_iff]
        left
        rw [List.any_eq_false]
        intro entry hentry hid
        exact hmem (of_decide_eq_true hid ▸ List.mem_map_of_mem hentry)
      rw [(consider_all_of_notMem hmem).1, ih, hcold, if_neg Bool.false_ne_true]

/-- The target of a model after a history. -/
theorem replicaTargets_after (calls : List TargetCall) (call : TargetCall)
    {entry : ModelCatalogEntry} (h : entry ∈ call.catalog) :
    (after settings (calls ++ [call])).replicaTargets.get? entry.modelId =
      some (targetOf settings call.now (call.readDemandWindows entry.modelId)
        (lastAbove settings entry.modelId (calls ++ [call]))
        ((after settings calls).replicaTargets.get? entry.modelId) entry) := by
  rw [after_concat, compute, (consider_all_of_mem h call.nodup).2, lastHot_eq h,
    demandLastHotAt_after, lastAbove_concat]

/-- A model that a call does not find in the catalog has no target after it. -/
theorem replicaTargets_of_notMem (calls : List TargetCall) (call : TargetCall)
    (h : id ∉ call.catalog.map ModelCatalogEntry.modelId) :
    (after settings (calls ++ [call])).replicaTargets.get? id = none := by
  rw [after_concat, compute, (consider_all_of_notMem h).2]
  rfl

/-! ## Bounds -/

variable {now : Time} {windows : DemandWindows} {hot : Option Time} {previous : Option ℕ}
  {entry : ModelCatalogEntry} {maxReplicas : ℕ}

theorem clamped_le (h : entry.maxReplicas = some maxReplicas) :
    clamped settings windows entry ≤ maxReplicas := by
  rw [clamped, h]
  exact min_le_right _ _

theorem le_clamped (h : entry.maxReplicas = some maxReplicas) :
    min entry.minReplicas maxReplicas ≤ clamped settings windows entry := by
  rw [clamped, h]
  exact min_le_min_right _ (le_max_left _ _)

theorem clamped_le_targetOf :
    clamped settings windows entry ≤ targetOf settings now windows hot previous entry := by
  rw [targetOf]
  split
  · exact le_max_left _ _
  · exact le_rfl

/-- A model that cools down keeps the target that it had. -/
theorem previous_le_targetOf {before : ℕ} (h : inCooldown settings now hot = true) :
    before ≤ targetOf settings now windows hot (some before) entry := by
  rw [targetOf, if_pos h]
  exact le_max_right _ _

/-- A target is the one that the demand asks for, or the one from before, of a model that cools
down. -/
theorem targetOf_cases :
    targetOf settings now windows hot previous entry = clamped settings windows entry ∨
      inCooldown settings now hot = true ∧
        previous = some (targetOf settings now windows hot previous entry) := by
  by_cases h : inCooldown settings now hot = true
  · rw [targetOf, if_pos h]
    cases previous with
    | none => exact .inl (max_self _)
    | some before =>
      rcases max_choice (clamped settings windows entry) before with hmax | hmax
      · exact .inl hmax
      · exact .inr ⟨h, congrArg some hmax.symm⟩
  · left
    rw [targetOf, if_neg h]

theorem inCooldown_iff {calls : List TargetCall} :
    inCooldown settings now (lastAbove settings id calls) = true ↔
      Cooling settings id calls now := by
  rw [Cooling]
  cases lastAbove settings id calls with
  | none => simp [inCooldown]
  | some hot => simp [inCooldown]

/-- No target is above every bound that a model has had. -/
theorem replicaTargets_le {calls : List TargetCall} {bound target : ℕ}
    (h : ∀ call ∈ calls, ∀ entry ∈ call.catalog, entry.modelId = id →
      ∃ maxReplicas ≤ bound, entry.maxReplicas = some maxReplicas)
    (htarget : (after settings calls).replicaTargets.get? id = some target) : target ≤ bound := by
  induction calls using List.reverseRec generalizing target with
  | nil => cases htarget
  | append_singleton calls call ih =>
    have hearlier : ∀ {target : ℕ},
        (after settings calls).replicaTargets.get? id = some target → target ≤ bound :=
      ih fun c hc ↦ h c (List.mem_append_left _ hc)
    by_cases hmem : id ∈ call.catalog.map ModelCatalogEntry.modelId
    · obtain ⟨entry, hentry, rfl⟩ := List.mem_map.mp hmem
      obtain ⟨maxReplicas, hle, hmax⟩ :=
        h call (List.mem_append_right _ (List.mem_singleton_self _)) entry hentry rfl
      rw [replicaTargets_after calls call hentry] at htarget
      obtain rfl := Option.some.inj htarget
      rcases targetOf_cases with hclamped | ⟨-, hprevious⟩
      · rw [hclamped]
        exact (clamped_le hmax).trans hle
      · exact hearlier hprevious
    · rw [replicaTargets_of_notMem calls call hmem] at htarget
      cases htarget

end TargetMaps

open TargetMaps

/-- A public model with as many replicas as its demand asks for. -/
def chatModel (maxReplicas : ℕ) : ModelCatalogEntry where
  modelId := "chat".toList
  displayName := "Chat".toList
  hfRepo := "org/chat".toList
  template := "vllm".toList
  minVramGbPerGpu := 24
  gpuCount := 1
  maxModelLen := none
  visibility := "public".toList
  maxReplicas := some maxReplicas

/-- It is asked for 300 times in a minute. -/
def busyCall (now : Time) (maxReplicas : ℕ) : TargetCall where
  now := now
  catalog := [chatModel maxReplicas]
  readDemandWindows := fun _ ↦ ⟨300, 300⟩
  nodup := List.nodup_singleton _

end GreenCompute
