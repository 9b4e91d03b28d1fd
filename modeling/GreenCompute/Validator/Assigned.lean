import GreenCompute.Foundations.Grouping
import GreenCompute.Validator.Replicas
import Mathlib.Algebra.Order.Group.Multiset
import Mathlib.Data.Multiset.Range

/-!
# The blocks that models are assigned

The inference GPUs of a node are handed out from the first one on, a block for each replica. The
models that the node already serves have their blocks first; then come the models that lack
replicas, or, without targets, all of them in turn. Every round moves the cursor, and what has been
handed out is never taken back, so that one invariant carries all three loops: the lists together
are the GPUs below the cursor (`Packed`).
-/

namespace GreenCompute

namespace FluxOrchestrator

variable {gpus vram : ℕ} {catalog eligible : List ModelCatalogEntry} {targets : Table ModelId ℕ}
  {pinned : List ModelId} {a b : Assignment} {e : ModelCatalogEntry} {m : ModelId}

/-! ## The passes -/

/-- The models that fit on the node. -/
def fitting (gpus vram : ℕ) (catalog : List ModelCatalogEntry) : List ModelCatalogEntry :=
  catalog.filter fun e ↦ e.minVramGbPerGpu ≤ vram ∧ e.gpuCount ≤ gpus

/-- The first pass: what the models already served have been given. -/
def keepPinned (gpus vram : ℕ) (catalog : List ModelCatalogEntry) (pinned : List ModelId) :
    Assignment :=
  pinned.foldl
    (pin gpus ((fitting gpus vram catalog).foldl (fun t e ↦ t.insert e.modelId e) .empty))
    ((fitting gpus vram catalog).foldl (fun t e ↦ t.insert e.modelId []) .empty, 0)

/-- The assignment after some rounds of the second pass. -/
def assignWithin (rounds gpus vram : ℕ) (catalog : List ModelCatalogEntry)
    (targets : Table ModelId ℕ) (pinned : List ModelId) : Assignment :=
  if targets.rows = [] then
    fillRotating gpus (fitting gpus vram catalog) rounds 0 (keepPinned gpus vram catalog pinned)
  else fillTargets gpus (fitting gpus vram catalog) targets rounds
    (keepPinned gpus vram catalog pinned)

theorem assignCatalogModels_eq :
    assignCatalogModels gpus vram catalog targets pinned =
      (assignWithin gpus gpus vram catalog targets pinned).1.filter fun _ l ↦ l ≠ [] := rfl

theorem mem_fitting :
    e ∈ fitting gpus vram catalog ↔
      e ∈ catalog ∧ e.minVramGbPerGpu ≤ vram ∧ e.gpuCount ≤ gpus := by
  rw [fitting, List.mem_filter, decide_eq_true_iff]

/-! ## Blocks -/

/-- A list of GPUs is so many blocks of a size. -/
def InBlocks (size : ℕ) (l : List ℕ) (n : ℕ) : Prop :=
  ∃ starts : List ℕ, starts.length = n ∧ l = starts.flatMap fun s ↦ List.range' s size

theorem inBlocks_nil (size : ℕ) : InBlocks size [] 0 := ⟨[], rfl, rfl⟩

theorem InBlocks.append {size n : ℕ} {l : List ℕ} (h : InBlocks size l n) (start : ℕ) :
    InBlocks size (l ++ List.range' start size) (n + 1) := by
  obtain ⟨starts, hlength, rfl⟩ := h
  refine ⟨starts ++ [start], by rw [List.length_append, hlength]; rfl, ?_⟩
  rw [List.flatMap_append, List.flatMap_singleton]

theorem InBlocks.length {size n : ℕ} {l : List ℕ} (h : InBlocks size l n) :
    l.length = n * size := by
  obtain ⟨starts, hlength, rfl⟩ := h
  rw [List.length_flatMap]
  simp [hlength]

/-- The GPUs below the cursor have been handed out, each once, in blocks of their models; the
number of blocks of a model meets a condition. -/
structure Packed (gpus : ℕ) (eligible : List ModelCatalogEntry) (P : ModelId → ℕ → Prop)
    (a : Assignment) : Prop where
  within : a.2 ≤ gpus
  handed : (a.1.total fun _ l ↦ (l : Multiset ℕ)) = Multiset.range a.2
  blocks : ∀ e ∈ eligible, ∃ l n,
    a.1.get? e.modelId = some l ∧ InBlocks e.gpuCount l n ∧ P e.modelId n
  listed : ∀ m l, a.1.get? m = some l → ∃ e ∈ eligible, e.modelId = m

/-- A pinned model keeps one block at most, and no other any. -/
def Held (pinned : List ModelId) (m : ModelId) (n : ℕ) : Prop := n ≤ if m ∈ pinned then 1 else 0

/-- With targets, a model has no more blocks than its target, or than the one that it keeps. -/
def Allowed (targets : Table ModelId ℕ) (pinned : List ModelId) (m : ModelId) (n : ℕ) : Prop :=
  targets.rows ≠ [] → n ≤ max ((targets.get? m).getD 0) (if m ∈ pinned then 1 else 0)

/-- What was handed out before still is. -/
def Grown (a b : Assignment) : Prop :=
  ∀ m l, a.1.get? m = some l → ∃ rest, b.1.get? m = some (l ++ rest)

theorem Grown.refl (a : Assignment) : Grown a a :=
  fun _ _ h ↦ ⟨[], by rw [List.append_nil]; exact h⟩

theorem Grown.trans {c : Assignment} (h : Grown a b) (h' : Grown b c) : Grown a c := by
  intro m l hget
  obtain ⟨rest, hrest⟩ := h m l hget
  obtain ⟨rest', hrest'⟩ := h' m _ hrest
  exact ⟨rest ++ rest', by rw [hrest', List.append_assoc]⟩

theorem grown_extend (a : Assignment) (e : ModelCatalogEntry) : Grown a (extend a e) := by
  intro m l hget
  rw [extend, Table.get?_insert]
  split
  · next hm =>
    refine ⟨block a e, ?_⟩
    rw [← hm, hget, Option.getD_some]
  · exact ⟨[], by rw [List.append_nil]; exact hget⟩

/-- A round: the next block goes to a model. -/
theorem Packed.extend {P Q : ModelId → ℕ → Prop} (h : Packed gpus eligible P a)
    (hids : (eligible.map ModelCatalogEntry.modelId).Nodup) (he : e ∈ eligible)
    (hroom : a.2 + e.gpuCount ≤ gpus) (hother : ∀ m n, m ≠ e.modelId → P m n → Q m n)
    (hown : ∀ l n, a.1.get? e.modelId = some l → InBlocks e.gpuCount l n → P e.modelId n →
      Q e.modelId (n + 1)) :
    Packed gpus eligible Q (extend a e) := by
  obtain ⟨l, n, hget, hblocks, hmeets⟩ := h.blocks e he
  refine ⟨hroom, ?_, fun e' he' ↦ ?_, fun m l' hget' ↦ ?_⟩
  · have hbefore := h.handed
    rw [Table.total_of_get? hget] at hbefore
    rw [FluxOrchestrator.extend, Table.total_insert, hget, Option.getD_some, ← Multiset.coe_add,
      ← add_assoc, hbefore, block]
    have hrange : Multiset.range (a.2 + e.gpuCount) =
        Multiset.range a.2 + (List.range' a.2 e.gpuCount : Multiset ℕ) := by
      rw [Multiset.range, Multiset.range, Multiset.coe_add, List.range_eq_range',
        List.range_eq_range', ← List.range'_append_1, Nat.zero_add]
    exact hrange.symm
  · by_cases hsame : e' = e
    · subst hsame
      refine ⟨l ++ block a e', n + 1, ?_, hblocks.append a.2, hown l n hget hblocks hmeets⟩
      rw [FluxOrchestrator.extend, hget]
      exact Table.get?_insert_self _ _ _
    · have hne : e'.modelId ≠ e.modelId := fun hid ↦
        hsame (List.inj_on_of_nodup_map hids he' he hid)
      obtain ⟨l', n', hget', hblocks', hmeets'⟩ := h.blocks e' he'
      refine ⟨l', n', ?_, hblocks', hother _ _ hne hmeets'⟩
      rw [FluxOrchestrator.extend]
      exact (Table.get?_insert_ne _ hne _).trans hget'
  · rw [FluxOrchestrator.extend, Table.get?_insert] at hget'
    split at hget'
    · next hm => exact ⟨e, he, hm.symm⟩
    · exact h.listed m l' hget'

theorem Packed.mono {P Q : ModelId → ℕ → Prop} (h : Packed gpus eligible P a)
    (hweaker : ∀ m n, P m n → Q m n) : Packed gpus eligible Q a where
  within := h.within
  handed := h.handed
  blocks e he := by
    obtain ⟨l, n, hget, hblocks, hmeets⟩ := h.blocks e he
    exact ⟨l, n, hget, hblocks, hweaker _ _ hmeets⟩
  listed := h.listed

/-! ## The loops -/

/-- What every block that goes to a model with a deficit keeps, the loop keeps. -/
theorem fillTargets_keeps {P : Assignment → Prop} (rounds : ℕ)
    (step : ∀ a e, P a → e ∈ eligible → a.2 + e.gpuCount ≤ gpus → 0 < deficit targets a e →
      P (extend a e))
    (h : P a) : P (fillTargets gpus eligible targets rounds a) := by
  induction rounds generalizing a with
  | zero => exact h
  | succ rounds ih =>
    rw [fillTargets]
    split_ifs with hroom
    · cases hcandidate : candidate gpus eligible targets a with
      | none => exact h
      | some e =>
        rw [candidate] at hcandidate
        have hfound := List.find?_some hcandidate
        rw [decide_eq_true_eq] at hfound
        have he := (List.mem_insertionSort _).mp (List.mem_of_find?_eq_some hcandidate)
        exact ih (step a e h he (by omega) hfound.2)
    · exact h

/-- What every block keeps, the loop over the models in turn keeps. -/
theorem fillRotating_keeps {P : Assignment → Prop} (rounds rotation : ℕ)
    (step : ∀ a e, P a → e ∈ eligible → a.2 + e.gpuCount ≤ gpus → P (extend a e))
    (h : P a) : P (fillRotating gpus eligible rounds rotation a) := by
  induction rounds generalizing rotation a with
  | zero => exact h
  | succ rounds ih =>
    rw [fillRotating]
    split_ifs with hroom
    · cases hskipped : (eligible.rotate rotation).findIdx? fun e ↦ e.gpuCount ≤ gpus - a.2 with
      | none => exact h
      | some skipped =>
        obtain ⟨hlt, hfits, -⟩ := List.findIdx?_eq_some_iff_getElem.mp hskipped
        have hfits := of_decide_eq_true hfits
        dsimp only
        rw [List.getElem?_eq_getElem hlt]
        exact ih _ (step a _ h (List.mem_rotate.mp (List.getElem_mem hlt)) (by omega))
    · exact h

/-! ## The pinned models -/

/-- No GPU has been handed out. -/
theorem packed_start {P : ModelId → ℕ → Prop} (hP : ∀ m, P m 0) :
    Packed gpus eligible P (eligible.foldl (fun t e ↦ t.insert e.modelId []) .empty, 0) := by
  have hrow (m : ModelId) (l : List ℕ)
      (hget : (eligible.foldl (fun t e ↦ t.insert e.modelId [])
        (.empty : Table ModelId (List ℕ))).get? m = some l) :
      ∃ e ∈ eligible, e.modelId = m ∧ [] = l :=
    (Table.of_get?_foldl_insert hget).resolve_right fun hnone ↦ nomatch hnone
  refine ⟨Nat.zero_le _, ?_, fun e he ↦ ⟨[], 0, ?_, inBlocks_nil _, hP _⟩, fun m l hget ↦ ?_⟩
  · refine List.sum_eq_zero fun x hx ↦ ?_
    obtain ⟨⟨m, l⟩, hmem, rfl⟩ := List.mem_map.mp hx
    obtain ⟨-, -, -, rfl⟩ := hrow m l (Table.mem_rows_iff.mp hmem)
    rfl
  · exact Table.get?_foldl_insert he fun _ _ _ ↦ rfl
  · obtain ⟨e, he, hid, -⟩ := hrow m l hget
    exact ⟨e, he, hid⟩

section

variable (hids : (catalog.map ModelCatalogEntry.modelId).Nodup)

include hids

/-- One model more: it has its block where it fits, and otherwise nothing changes. -/
theorem keepPinned_concat {before : List ModelId}
    (hempty : ∀ l, (keepPinned gpus vram catalog before).1.get? m = some l → l = []) :
    (∃ e ∈ fitting gpus vram catalog, e.modelId = m ∧
      (keepPinned gpus vram catalog before).2 + e.gpuCount ≤ gpus ∧
      keepPinned gpus vram catalog (before ++ [m]) =
        extend (keepPinned gpus vram catalog before) e) ∨
    (∀ e ∈ fitting gpus vram catalog, e.modelId = m →
      gpus < (keepPinned gpus vram catalog before).2 + e.gpuCount) ∧
      keepPinned gpus vram catalog (before ++ [m]) = keepPinned gpus vram catalog before := by
  have hnodup : ((fitting gpus vram catalog).map ModelCatalogEntry.modelId).Nodup :=
    hids.sublist (List.filter_sublist.map _)
  have hfound {e : ModelCatalogEntry} (he : e ∈ fitting gpus vram catalog) :
      ((fitting gpus vram catalog).foldl (fun t e ↦ t.insert e.modelId e)
        (.empty : Table ModelId ModelCatalogEntry)).get? e.modelId = some e :=
    Table.get?_foldl_insert he fun e' he' hid ↦ List.inj_on_of_nodup_map hnodup he' he hid
  have hstep : keepPinned gpus vram catalog (before ++ [m]) = pin gpus
      ((fitting gpus vram catalog).foldl (fun t e ↦ t.insert e.modelId e) .empty)
        (keepPinned gpus vram catalog before) m := by
    rw [keepPinned, List.foldl_append]
    rfl
  rw [hstep, pin]
  cases hentry : ((fitting gpus vram catalog).foldl (fun t e ↦ t.insert e.modelId e)
      (.empty : Table ModelId ModelCatalogEntry)).get? m with
  | none =>
    refine .inr ⟨fun e he hid ↦ ?_, rfl⟩
    rw [← hid, hfound he] at hentry
    exact nomatch hentry
  | some e =>
    obtain ⟨e', he', hid, rfl⟩ := (Table.of_get?_foldl_insert hentry).resolve_right fun hnone ↦
      nomatch hnone
    dsimp only
    split_ifs with hfull
    · refine .inr ⟨fun e he hid' ↦ ?_, rfl⟩
      rwa [List.inj_on_of_nodup_map hnodup he he' (hid'.trans hid.symm)]
    · refine .inl ⟨e', he', hid, Nat.not_lt.mp hfull, ?_⟩
      rw [extend, hid]
      cases hlist : (keepPinned gpus vram catalog before).1.get? m with
      | none => rfl
      | some l => rw [hempty l hlist]; rfl

omit hids in
private theorem empty_of_not_pinned {before : List ModelId}
    (h : Packed gpus (fitting gpus vram catalog) (Held before) a)
    (hm : m ∉ before) {l : List ℕ} (hget : a.1.get? m = some l) : l = [] := by
  obtain ⟨e, he, rfl⟩ := h.listed m l hget
  obtain ⟨l', n, hget', hblocks, hnone⟩ := h.blocks e he
  obtain rfl := Option.some.inj (hget.symm.trans hget')
  rw [Held, if_neg hm, Nat.le_zero] at hnone
  refine List.length_eq_zero_iff.mp ?_
  rw [hblocks.length, hnone, Nat.zero_mul]

/-- After the first pass every pinned model has at most one block, and no other has any. -/
theorem packed_keepPinned (hpinned : pinned.Nodup) :
    Packed gpus (fitting gpus vram catalog) (Held pinned)
      (keepPinned gpus vram catalog pinned) := by
  have hnodup : ((fitting gpus vram catalog).map ModelCatalogEntry.modelId).Nodup :=
    hids.sublist (List.filter_sublist.map _)
  induction pinned using List.reverseRecOn with
  | nil => exact packed_start fun m ↦ Nat.zero_le _
  | append_singleton before m ih =>
    obtain ⟨hbefore, -, hnew⟩ := List.nodup_append.mp hpinned
    have hm : m ∉ before := fun hmem ↦ hnew m hmem m List.mem_cons_self rfl
    have hpacked := ih hbefore
    have hempty : ∀ l, (keepPinned gpus vram catalog before).1.get? m = some l → l = [] :=
      fun l ↦ empty_of_not_pinned hpacked hm
    have hweaker (m' : ModelId) (n : ℕ) (h : Held before m' n) : Held (before ++ [m]) m' n := by
      rw [Held] at h ⊢
      split at h
      · next hmem => rwa [if_pos (List.mem_append_left _ hmem)]
      · exact h.trans (Nat.zero_le _)
    rcases keepPinned_concat hids hempty with ⟨e, he, rfl, hroom, heq⟩ | ⟨-, heq⟩
    · rw [heq]
      refine hpacked.extend hnodup he hroom (fun m' n _ ↦ hweaker m' n) fun l n _ _ hn ↦ ?_
      rw [Held, if_neg hm, Nat.le_zero] at hn
      rw [Held, hn, if_pos (List.mem_append_right _ List.mem_cons_self)]
    · rw [heq]
      exact hpacked.mono hweaker

/-- The later pinned models leave the earlier ones what they have. -/
theorem grown_keepPinned (before after : List ModelId) (hpinned : (before ++ after).Nodup) :
    Grown (keepPinned gpus vram catalog before)
      (keepPinned gpus vram catalog (before ++ after)) := by
  induction after using List.reverseRecOn with
  | nil => rw [List.append_nil]; exact .refl _
  | append_singleton after m ih =>
    rw [← List.append_assoc] at hpinned ⊢
    obtain ⟨hbefore, -, hnew⟩ := List.nodup_append.mp hpinned
    have hm : m ∉ before ++ after := fun hmem ↦ hnew m hmem m List.mem_cons_self rfl
    refine (ih hbefore).trans ?_
    rcases keepPinned_concat hids fun l ↦ empty_of_not_pinned (packed_keepPinned hids hbefore) hm
      with ⟨e, -, -, -, heq⟩ | ⟨-, heq⟩
    · rw [heq]
      exact grown_extend _ _
    · rw [heq]
      exact .refl _

/-- The second pass keeps what is packed, and with targets it gives no model more than it lacks. -/
theorem packed_assignWithin (hpos : ∀ e ∈ catalog, 0 < e.gpuCount) (hpinned : pinned.Nodup)
    (rounds : ℕ) :
    Packed gpus (fitting gpus vram catalog) (Allowed targets pinned)
      (assignWithin rounds gpus vram catalog targets pinned) := by
  have hnodup : ((fitting gpus vram catalog).map ModelCatalogEntry.modelId).Nodup :=
    hids.sublist (List.filter_sublist.map _)
  have hkept : Packed gpus (fitting gpus vram catalog) (Allowed targets pinned)
      (keepPinned gpus vram catalog pinned) :=
    (packed_keepPinned hids hpinned).mono fun m n hn _ ↦ hn.trans (le_max_right _ _)
  rw [assignWithin]
  split_ifs with htargets
  · refine fillRotating_keeps rounds 0 (fun a e ha he hroom ↦ ?_) hkept
    exact ha.extend hnodup he hroom (fun _ _ _ h ↦ h) fun _ _ _ _ _ h ↦ absurd htargets h
  · refine fillTargets_keeps rounds (fun a e ha he hroom hdeficit ↦ ?_) hkept
    refine ha.extend hnodup he hroom (fun _ _ _ h ↦ h) fun l n hget hblocks _ _ ↦ ?_
    have hsize := hpos e (mem_fitting.mp he).1
    have hhave : ((a.1.get? e.modelId).getD []).length / max 1 e.gpuCount = n := by
      rw [hget, Option.getD_some, hblocks.length, Nat.max_eq_right hsize, Nat.mul_div_left n hsize]
    rw [deficit, hhave, sub_pos, Int.ofNat_lt] at hdeficit
    exact (Nat.succ_le_of_lt hdeficit).trans (le_max_left _ _)

omit hids in
theorem grown_assignWithin (rounds : ℕ) :
    Grown (keepPinned gpus vram catalog pinned)
      (assignWithin rounds gpus vram catalog targets pinned) := by
  rw [assignWithin]
  split_ifs
  · exact fillRotating_keeps rounds 0 (fun a e h _ _ ↦ h.trans (grown_extend a e)) (.refl _)
  · exact fillTargets_keeps rounds (fun a e h _ _ _ ↦ h.trans (grown_extend a e)) (.refl _)

omit hids in
/-- There are no more rounds than GPUs: further ones change nothing. -/
theorem assignWithin_of_le (hpos : ∀ e ∈ catalog, 0 < e.gpuCount) {rounds : ℕ}
    (h : gpus ≤ rounds) :
    assignWithin rounds gpus vram catalog targets pinned =
      assignWithin gpus gpus vram catalog targets pinned := by
  have hfits : ∀ e ∈ fitting gpus vram catalog, 0 < e.gpuCount := fun e he ↦
    hpos e (mem_fitting.mp he).1
  induction rounds, h using Nat.le_induction with
  | base => rfl
  | succ rounds hle ih =>
    rw [← ih, assignWithin, assignWithin]
    split_ifs
    · exact fillRotating_succ hfits rounds 0 (hle.trans (Nat.le_add_left _ _))
    · exact fillTargets_succ hfits targets rounds (hle.trans (Nat.le_add_left _ _))

omit hids in
private theorem coe_flatMap_filter (t : Table ModelId (List ℕ)) :
    (((t.filter fun _ l ↦ l ≠ []).rows.flatMap Prod.snd : List ℕ) : Multiset ℕ) =
      t.total fun _ l ↦ (l : Multiset ℕ) := by
  change (((t.rows.filter fun r ↦ r.2 ≠ []).flatMap Prod.snd : List ℕ) : Multiset ℕ) =
    (t.rows.map fun r ↦ (r.2 : Multiset ℕ)).sum
  induction t.rows with
  | nil => rfl
  | cons row rows ih =>
    rw [List.map_cons, List.sum_cons, ← ih]
    by_cases hempty : row.2 = []
    · rw [List.filter_cons_of_neg (by simpa using hempty), hempty, Multiset.coe_nil, zero_add]
    · rw [List.filter_cons_of_pos (by simpa using hempty), List.flatMap_cons, Multiset.coe_add]

/-- **The inference GPUs are packed soundly.** The passes come to an end; what the models are given
is, together, an initial stretch of the GPUs, each once; every model that is given any fits on the
node and has them in blocks of its own size, with targets no more than its target or the one that it
keeps; and a pinned model whose block fits when its turn comes keeps that block. -/
theorem catalog_models_packed (hpos : ∀ e ∈ catalog, 0 < e.gpuCount) (hpinned : pinned.Nodup) :
    (∀ rounds, gpus ≤ rounds → assignWithin rounds gpus vram catalog targets pinned =
      assignWithin gpus gpus vram catalog targets pinned) ∧
    (∃ used ≤ gpus, ((assignCatalogModels gpus vram catalog targets pinned).rows.flatMap
      Prod.snd).Perm (List.range used)) ∧
    (∀ m l, (assignCatalogModels gpus vram catalog targets pinned).get? m = some l →
      ∃ e ∈ catalog, e.modelId = m ∧ e.minVramGbPerGpu ≤ vram ∧
        ∃ n, InBlocks e.gpuCount l n ∧ Allowed targets pinned m n) ∧
    ∀ before m after, pinned = before ++ m :: after → ∀ e ∈ catalog, e.modelId = m →
      e.minVramGbPerGpu ≤ vram → (keepPinned gpus vram catalog before).2 + e.gpuCount ≤ gpus →
      ∃ rest, (assignCatalogModels gpus vram catalog targets pinned).get? m =
        some (block (keepPinned gpus vram catalog before) e ++ rest) := by
  have hpacked : Packed gpus (fitting gpus vram catalog) (Allowed targets pinned)
      (assignWithin gpus gpus vram catalog targets pinned) :=
    packed_assignWithin hids hpos hpinned gpus
  rw [assignCatalogModels_eq]
  refine ⟨fun rounds ↦ assignWithin_of_le hpos, ?_, fun m l hget ↦ ?_, ?_⟩
  · refine ⟨_, hpacked.within, Multiset.coe_eq_coe.mp ?_⟩
    rw [coe_flatMap_filter]
    exact hpacked.handed
  · rw [Table.get?_filter, Option.filter_eq_some_iff] at hget
    obtain ⟨e, he, rfl⟩ := hpacked.listed m l hget.1
    obtain ⟨l', n, hget', hblocks, hmeets⟩ := hpacked.blocks e he
    obtain rfl := Option.some.inj (hget.1.symm.trans hget')
    obtain ⟨hcatalog, hvram, -⟩ := mem_fitting.mp he
    exact ⟨e, hcatalog, rfl, hvram, n, hblocks, hmeets⟩
  · rintro before m after rfl e he rfl hvram hroom
    have hfits : e ∈ fitting gpus vram catalog :=
      mem_fitting.mpr ⟨he, hvram, (Nat.le_add_left _ _).trans hroom⟩
    obtain ⟨hbefore, hlater, hnew⟩ := List.nodup_append.mp hpinned
    have hm : e.modelId ∉ before := fun hmem ↦ hnew _ hmem _ List.mem_cons_self rfl
    have hkept : Packed gpus (fitting gpus vram catalog) (Held before)
        (keepPinned gpus vram catalog before) := packed_keepPinned hids hbefore
    have hempty : ∀ l, (keepPinned gpus vram catalog before).1.get? e.modelId = some l → l = [] :=
      fun l ↦ empty_of_not_pinned hkept hm
    -- The block that it is given when its turn comes is the first of its list ever after.
    have hturn : (keepPinned gpus vram catalog (before ++ [e.modelId])).1.get? e.modelId =
        some (block (keepPinned gpus vram catalog before) e) := by
      rcases keepPinned_concat hids hempty with ⟨e', he', hid, -, heq⟩ | ⟨hfull, -⟩
      · obtain rfl : e' = e := List.inj_on_of_nodup_map hids (mem_fitting.mp he').1 he hid
        obtain ⟨l, -, hget, -⟩ := hkept.blocks e' he'
        rw [heq, extend, hget, hempty l hget]
        exact Table.get?_insert_self _ _ _
      · exact absurd hroom (hfull e hfits rfl).not_ge
    have hsplit : before ++ e.modelId :: after = (before ++ [e.modelId]) ++ after := by simp
    rw [hsplit] at hpinned ⊢
    obtain ⟨rest, hrest⟩ := (grown_keepPinned hids _ after hpinned).trans
      (grown_assignWithin gpus) _ _ hturn
    refine ⟨rest, ?_⟩
    rw [Table.get?_filter, hrest, Option.filter_some, if_pos]
    refine decide_eq_true fun hnil ↦ ?_
    have hlength := congrArg List.length hnil
    rw [List.length_append, block, List.length_range'] at hlength
    have hsize := hpos e he
    simp only [List.length_nil] at hlength
    omega

end

/-- A model that takes one GPU and one that takes two. -/
def oneAndTwo : List ModelCatalogEntry :=
  [⟨"one".toList, [], [], [], 24, 1, none, "public".toList, 1, none, [], none, none, none, [], []⟩,
    ⟨"two".toList, [], [], [], 24, 2, none, "public".toList, 1, none, [], none, none, none, [], []⟩]

/-- On six GPUs the larger model keeps its block, and the smaller one has the two it lacks. -/
theorem catalog_models_packed_two :
    (assignCatalogModels 6 80 oneAndTwo (.ofRows [("one".toList, 2), ("two".toList, 1)])
      ["two".toList]).rows = [("one".toList, [2, 3]), ("two".toList, [0, 1])] ∧
    (∃ used ≤ 6, ((assignCatalogModels 6 80 oneAndTwo
      (.ofRows [("one".toList, 2), ("two".toList, 1)]) ["two".toList]).rows.flatMap
        Prod.snd).Perm (List.range used)) := by
  have hids : (oneAndTwo.map ModelCatalogEntry.modelId).Nodup := by decide
  have hpos : ∀ e ∈ oneAndTwo, 0 < e.gpuCount := by decide
  exact ⟨by decide +kernel, (catalog_models_packed hids hpos (List.nodup_singleton _)).2.1⟩

end FluxOrchestrator

end GreenCompute
