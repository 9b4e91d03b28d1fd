import Mathlib.Algebra.Order.BigOperators.Group.List
import Mathlib.Algebra.Order.Ring.Nat
import Mathlib.Data.List.Nodup
import Mathlib.Data.List.Lookmap
import Mathlib.Data.List.Perm.Subperm

/-!
# Keyed tables

A database table as the list of its rows in insertion order, each under its primary key. The
structure carries the proof that no key occurs twice, so a row found by a scan is the row a
lookup returns, and an update in place touches exactly one row.

Two updates are enough: `insert` appends a row under a new key, and `map` rewrites rows in place.
Everything a transaction does to a table is one of them, and `get?_insert` and `get?_map` say what
a later lookup sees.
-/

namespace GreenCompute

/-- A table: rows in insertion order, no primary key twice. -/
structure Table (κ ρ : Type) where
  rows : List (κ × ρ)
  nodup : (rows.map Prod.fst).Nodup

namespace Table

variable {κ ρ : Type} [DecidableEq κ]

/-- The empty table. -/
def empty : Table κ ρ := ⟨[], by simp⟩

/-- The table of some rows; a repeated key keeps its first row. -/
def ofRows (rows : List (κ × ρ)) (h : (rows.map Prod.fst).Nodup := by decide) : Table κ ρ :=
  ⟨rows, h⟩

/-- The row under a key. -/
def get? (t : Table κ ρ) (k : κ) : Option ρ :=
  (t.rows.find? fun r ↦ r.1 = k).map Prod.snd

/-- Rewrite rows in place. -/
def map (t : Table κ ρ) (f : κ → ρ → ρ) : Table κ ρ where
  rows := t.rows.map fun r ↦ (r.1, f r.1 r.2)
  nodup := by
    have h : (t.rows.map fun r ↦ (r.1, f r.1 r.2)).map Prod.fst = t.rows.map Prod.fst := by
      rw [List.map_map]
      rfl
    rw [h]
    exact t.nodup

/-- Rewrite the row under one key. -/
def modify (t : Table κ ρ) (k : κ) (f : ρ → ρ) : Table κ ρ :=
  t.map fun k' r ↦ if k' = k then f r else r

/-- Put a row under a key: in place of the one there, or after the last row. -/
def insert (t : Table κ ρ) (k : κ) (r : ρ) : Table κ ρ :=
  if h : k ∈ t.rows.map Prod.fst then t.modify k fun _ ↦ r
  else ⟨t.rows ++ [(k, r)], by
    rw [List.map_append]
    refine List.nodup_append.mpr ⟨t.nodup, by simp, ?_⟩
    rintro a ha b hb rfl
    obtain rfl : a = k := List.mem_singleton.mp hb
    exact h ha⟩

/-- Drop the rows that do not meet a condition. -/
def filter (t : Table κ ρ) (p : κ → ρ → Bool) : Table κ ρ where
  rows := t.rows.filter fun r ↦ p r.1 r.2
  nodup := t.nodup.sublist (List.Sublist.map _ List.filter_sublist)

/-- The sum of a figure over the rows. -/
def total {M : Type} [AddCommMonoid M] (t : Table κ ρ) (f : κ → ρ → M) : M :=
  (t.rows.map fun r ↦ f r.1 r.2).sum

/-- The rows that meet a condition, in insertion order. -/
def select (t : Table κ ρ) (p : κ → ρ → Bool) : List (κ × ρ) :=
  t.rows.filter fun r ↦ p r.1 r.2

/-! ## Lookups and scans agree -/

theorem mem_rows_iff {t : Table κ ρ} {k : κ} {r : ρ} :
    (k, r) ∈ t.rows ↔ t.get? k = some r := by
  obtain ⟨rows, hnodup⟩ := t
  simp only [get?]
  induction rows with
  | nil => simp
  | cons a rows ih =>
    obtain ⟨a, b⟩ := a
    simp only [List.map_cons, List.nodup_cons] at hnodup
    by_cases hak : a = k
    · subst hak
      simp only [List.mem_cons, Prod.mk.injEq, true_and, List.find?_cons, decide_true,
        Option.map_some, Option.some.injEq]
      constructor
      · rintro (rfl | hmem)
        · rfl
        · exact absurd (List.mem_map_of_mem (f := Prod.fst) hmem) hnodup.1
      · exact fun h ↦ Or.inl h.symm
    · simp only [List.mem_cons, Prod.mk.injEq, Ne.symm hak, false_and, false_or, List.find?_cons,
        hak, decide_false]
      exact ih hnodup.2

theorem mem_select {t : Table κ ρ} {p : κ → ρ → Bool} {k : κ} {r : ρ} :
    (k, r) ∈ t.select p ↔ t.get? k = some r ∧ p k r = true := by
  rw [select, List.mem_filter, mem_rows_iff]

omit [DecidableEq κ] in
theorem nodup_select (t : Table κ ρ) (p : κ → ρ → Bool) :
    ((t.select p).map Prod.fst).Nodup :=
  t.nodup.sublist (List.filter_sublist.map _)

theorem mem_keys_iff {t : Table κ ρ} {k : κ} :
    k ∈ t.rows.map Prod.fst ↔ (t.get? k).isSome := by
  rw [List.mem_map, Option.isSome_iff_exists]
  constructor
  · rintro ⟨⟨k', r⟩, hmem, rfl⟩
    exact ⟨r, mem_rows_iff.mp hmem⟩
  · rintro ⟨r, hr⟩
    exact ⟨(k, r), mem_rows_iff.mpr hr, rfl⟩

/-! ## What a lookup sees after an update -/

@[simp] theorem get?_empty (k : κ) : (empty : Table κ ρ).get? k = none := rfl

@[simp] theorem get?_map (t : Table κ ρ) (f : κ → ρ → ρ) (k : κ) :
    (t.map f).get? k = (t.get? k).map (f k) := by
  obtain ⟨rows, hnodup⟩ := t
  simp only [get?, map]
  clear hnodup
  induction rows with
  | nil => rfl
  | cons a rows ih =>
    by_cases hak : a.1 = k
    · simp [hak]
    · simpa [List.find?_cons, hak] using ih

omit [DecidableEq κ] in
theorem map_map (t : Table κ ρ) (f g : κ → ρ → ρ) :
    (t.map f).map g = t.map fun k r ↦ g k (f k r) := by
  simp only [map, List.map_map]
  rfl

theorem map_congr {t : Table κ ρ} {f g : κ → ρ → ρ}
    (h : ∀ k r, t.get? k = some r → f k r = g k r) : t.map f = t.map g := by
  simp only [map, Table.mk.injEq]
  exact List.map_congr_left fun r hr ↦ by rw [h r.1 r.2 (mem_rows_iff.mp hr)]

theorem get?_modify (t : Table κ ρ) (k k' : κ) (f : ρ → ρ) :
    (t.modify k f).get? k' = if k' = k then (t.get? k').map f else t.get? k' := by
  rw [modify, get?_map]
  split
  · rfl
  · exact Option.map_id'

@[simp] theorem get?_modify_self (t : Table κ ρ) (k : κ) (f : ρ → ρ) :
    (t.modify k f).get? k = (t.get? k).map f := by
  rw [get?_modify, if_pos rfl]

theorem get?_modify_ne (t : Table κ ρ) {k k' : κ} (h : k' ≠ k) (f : ρ → ρ) :
    (t.modify k f).get? k' = t.get? k' := by
  rw [get?_modify, if_neg h]

theorem get?_insert (t : Table κ ρ) (k k' : κ) (r : ρ) :
    (t.insert k r).get? k' = if k' = k then some r else t.get? k' := by
  unfold insert
  split
  · next h =>
    obtain ⟨r', hr'⟩ := Option.isSome_iff_exists.mp (mem_keys_iff.mp h)
    rw [get?_modify]
    split
    · next hk => rw [hk, hr', Option.map_some]
    · rfl
  · next h =>
    have hnone : t.get? k = none := by
      by_contra hne
      exact h (mem_keys_iff.mpr (Option.isSome_iff_ne_none.mpr hne))
    simp only [get?, List.find?_append] at hnone ⊢
    split
    · next hk =>
      subst hk
      rw [Option.map_eq_none_iff] at hnone
      simp [hnone]
    · next hk => simp [Ne.symm hk]

@[simp] theorem get?_insert_self (t : Table κ ρ) (k : κ) (r : ρ) :
    (t.insert k r).get? k = some r := by
  rw [get?_insert, if_pos rfl]

theorem get?_insert_ne (t : Table κ ρ) {k k' : κ} (h : k' ≠ k) (r : ρ) :
    (t.insert k r).get? k' = t.get? k' := by
  rw [get?_insert, if_neg h]

theorem get?_filter (t : Table κ ρ) (p : κ → ρ → Bool) (k : κ) :
    (t.filter p).get? k = (t.get? k).filter (p k) := by
  cases h : (t.filter p).get? k with
  | some r =>
    obtain ⟨hmem, hp⟩ := List.mem_filter.mp (mem_rows_iff.mpr h)
    rw [mem_rows_iff.mp hmem, Option.filter_some, if_pos hp]
  | none =>
    cases h' : t.get? k with
    | none => rfl
    | some r =>
      by_cases hp : p k r = true
      · have : (k, r) ∈ (t.filter p).rows := List.mem_filter.mpr ⟨mem_rows_iff.mpr h', hp⟩
        rw [mem_rows_iff.mp this] at h
        cases h
      · simp [Option.filter_some, hp]

theorem lookup_rows (t : Table κ ρ) (k : κ) : t.rows.lookup k = t.get? k := by
  obtain ⟨rows, hnodup⟩ := t
  simp only [get?]
  clear hnodup
  induction rows with
  | nil => rfl
  | cons a rows ih =>
    obtain ⟨a, b⟩ := a
    by_cases hak : a = k
    · simp [hak]
    · have hka : (k == a) = false := beq_false_of_ne (Ne.symm hak)
      simp [List.lookup_cons, hka, hak, ih]

/-- A lookup among the rows that meet a condition. -/
theorem lookup_select (t : Table κ ρ) (p : κ → ρ → Bool) (k : κ) :
    (t.select p).lookup k = (t.get? k).filter (p k) :=
  (lookup_rows (t.filter p) k).trans (get?_filter t p k)

theorem rows_insert_ne_nil (t : Table κ ρ) (k : κ) (r : ρ) : (t.insert k r).rows ≠ [] := by
  have hmem : (k, r) ∈ (t.insert k r).rows := mem_rows_iff.mpr (get?_insert_self t k r)
  exact List.ne_nil_of_mem hmem

/-- A scan that passes over a key does not see what is put under it. -/
theorem select_insert_of_not (t : Table κ ρ) {p : κ → ρ → Bool} {k : κ} (h : ∀ r, p k r = false)
    (r : ρ) : (t.insert k r).select p = t.select p := by
  have hmodify : ∀ rows : List (κ × ρ),
      (rows.map fun x ↦ (x.1, if x.1 = k then r else x.2)).filter (fun x ↦ p x.1 x.2) =
        rows.filter fun x ↦ p x.1 x.2 := by
    intro rows
    induction rows with
    | nil => rfl
    | cons a rows ih =>
      by_cases hk : a.1 = k
      · simp [hk, h, ih]
      · simp [List.filter_cons, hk, ih]
  unfold insert select
  split
  · exact hmodify t.rows
  · simp [h]

/-! ## Sums over the rows -/

section total

variable {M : Type} [AddCommMonoid M]

omit [DecidableEq κ] in
@[simp] theorem total_empty (f : κ → ρ → M) : (empty : Table κ ρ).total f = 0 := rfl

omit [DecidableEq κ] in
@[simp] theorem total_map (t : Table κ ρ) (g : κ → ρ → ρ) (f : κ → ρ → M) :
    (t.map g).total f = t.total fun k r ↦ f k (g k r) := by
  rw [total, map, List.map_map]
  rfl

omit [DecidableEq κ] in
private theorem sum_map_of_forall_ne {rows : List (κ × ρ)} {k : κ}
    (h : k ∉ rows.map Prod.fst) (f g : κ → ρ → M) (hfg : ∀ k' r, k' ≠ k → f k' r = g k' r) :
    (rows.map fun r ↦ f r.1 r.2).sum = (rows.map fun r ↦ g r.1 r.2).sum := by
  congr 1
  refine List.map_congr_left fun r hr ↦ hfg _ _ ?_
  rintro rfl
  exact h (List.mem_map_of_mem hr)

private theorem sum_map_split {rows : List (κ × ρ)}
    (nodup : (rows.map Prod.fst).Nodup) {k : κ} {r : ρ} (hmem : (k, r) ∈ rows) (f : κ → ρ → M) :
    (rows.map fun r ↦ f r.1 r.2).sum =
      (rows.map fun r ↦ if r.1 = k then 0 else f r.1 r.2).sum + f k r := by
  induction rows with
  | nil => exact absurd hmem List.not_mem_nil
  | cons a rows ih =>
    rw [List.map_cons, List.nodup_cons] at nodup
    simp only [List.map_cons, List.sum_cons]
    rcases List.mem_cons.mp hmem with rfl | hmem
    · have hrest := sum_map_of_forall_ne nodup.1 f (fun k' r' ↦ if k' = k then 0 else f k' r')
        fun k' r' hk ↦ (if_neg hk).symm
      rw [if_pos rfl, zero_add, hrest, add_comm]
    · have hne : a.1 ≠ k := by
        rintro rfl
        exact nodup.1 (List.mem_map.mpr ⟨_, hmem, rfl⟩)
      rw [if_neg hne, ih nodup.2 hmem, add_assoc]

/-- The sum as the figure of one row and those of the other rows. -/
theorem total_of_get? {t : Table κ ρ} {k : κ} {r : ρ} (h : t.get? k = some r) (f : κ → ρ → M) :
    t.total f = (t.total fun k' r' ↦ if k' = k then 0 else f k' r') + f k r :=
  sum_map_split t.nodup (mem_rows_iff.mpr h) f

/-- Where there is no such row, the other rows are all rows. -/
theorem total_of_get?_none {t : Table κ ρ} {k : κ} (h : t.get? k = none) (f : κ → ρ → M) :
    (t.total fun k' r' ↦ if k' = k then 0 else f k' r') = t.total f := by
  have hmem : k ∉ t.rows.map Prod.fst := by
    rw [mem_keys_iff, h]
    exact Bool.noConfusion
  exact sum_map_of_forall_ne hmem _ _ fun k' r' hk ↦ if_neg hk

/-- The sum after a row is put in: its own figure and those of the other rows. -/
theorem total_insert (t : Table κ ρ) (k : κ) (r : ρ) (f : κ → ρ → M) :
    (t.insert k r).total f = (t.total fun k' r' ↦ if k' = k then 0 else f k' r') + f k r := by
  unfold insert
  split
  · next hmem =>
    obtain ⟨rows, hnodup⟩ := t
    simp only [total, modify, map, List.map_map]
    -- The key occurs once: split the rows there.
    obtain ⟨⟨k', r'⟩, hr', rfl⟩ := List.mem_map.mp hmem
    obtain ⟨pre, post, rfl⟩ := List.append_of_mem hr'
    rw [List.map_append, List.map_cons] at hnodup
    obtain ⟨hpre, hpost⟩ : k' ∉ pre.map Prod.fst ∧ k' ∉ post.map Prod.fst := by
      rw [List.nodup_append] at hnodup
      obtain ⟨-, hcons, hdisjoint⟩ := hnodup
      refine ⟨fun hk ↦ ?_, (List.nodup_cons.mp hcons).1⟩
      exact hdisjoint _ hk _ List.mem_cons_self rfl
    have hne : ∀ k'' (r'' : ρ), k'' ≠ k' →
        f k'' (if k'' = k' then r else r'') = if k'' = k' then 0 else f k'' r'' := by
      intro k'' r'' hk
      rw [if_neg hk, if_neg hk]
    have hsum : ∀ rows : List (κ × ρ), k' ∉ rows.map Prod.fst →
        (rows.map fun x ↦ f x.1 (if x.1 = k' then r else x.2)).sum =
          (rows.map fun x ↦ if x.1 = k' then 0 else f x.1 x.2).sum := fun rows hrows ↦
      sum_map_of_forall_ne hrows (fun k'' r'' ↦ f k'' (if k'' = k' then r else r''))
        (fun k'' r'' ↦ if k'' = k' then 0 else f k'' r'') hne
    simp only [List.map_append, List.map_cons, List.sum_append, List.sum_cons, Function.comp_def,
      if_true, hsum pre hpre, hsum post hpost, zero_add]
    rw [add_comm (f k' r), add_assoc]
  · next hmem =>
    have hsum := sum_map_of_forall_ne hmem f (fun k' r' ↦ if k' = k then 0 else f k' r')
      fun k' r' hk ↦ (if_neg hk).symm
    simp only [total, List.map_append, List.map_cons, List.map_nil, List.sum_append,
      List.sum_cons, List.sum_nil, add_zero, hsum]

omit [DecidableEq κ] in
/-- A count over the rows is the sum of an indicator. -/
theorem total_ite_eq_countP (t : Table κ ρ) (p : κ → ρ → Bool) :
    (t.total fun k r ↦ if p k r then 1 else 0) = t.rows.countP fun r ↦ p r.1 r.2 := by
  rw [total]
  induction t.rows with
  | nil => rfl
  | cons a rows ih => rw [List.map_cons, List.sum_cons, List.countP_cons, ih, Nat.add_comm]

theorem total_pos_iff {t : Table κ ρ} {p : κ → ρ → Bool} :
    0 < (t.total fun k r ↦ if p k r then 1 else 0) ↔ ∃ k r, t.get? k = some r ∧ p k r := by
  rw [total_ite_eq_countP, List.countP_pos_iff]
  constructor
  · rintro ⟨⟨k, r⟩, hmem, hp⟩
    exact ⟨k, r, mem_rows_iff.mp hmem, hp⟩
  · rintro ⟨k, r, hget, hp⟩
    exact ⟨(k, r), mem_rows_iff.mpr hget, hp⟩

theorem total_le_total {t : Table κ ρ} {f g : κ → ρ → ℕ}
    (h : ∀ k r, t.get? k = some r → f k r ≤ g k r) : t.total f ≤ t.total g :=
  List.sum_le_sum fun r hr ↦ h r.1 r.2 (mem_rows_iff.mp hr)

/-- Where every row that counts in one table is in another and counts no less there, so does the
sum. -/
theorem total_le_of_rows {t u : Table κ ρ} {f g : κ → ρ → ℕ}
    (h : ∀ k r, t.get? k = some r → f k r ≠ 0 → u.get? k = some r ∧ f k r ≤ g k r) :
    t.total f ≤ u.total g := by
  -- Only the rows that count are summed over; they are distinct rows of the other table.
  have hcount : ∀ rows : List (κ × ρ), (rows.map fun r ↦ f r.1 r.2).sum =
      ((rows.filter fun r ↦ f r.1 r.2 ≠ 0).map fun r ↦ f r.1 r.2).sum := by
    intro rows
    induction rows with
    | nil => rfl
    | cons a rows ih =>
      by_cases ha : f a.1 a.2 = 0
      · rw [List.filter_cons_of_neg (by simpa using ha), List.map_cons, List.sum_cons, ha, zero_add,
          ih]
      · rw [List.filter_cons_of_pos (by simpa using ha), List.map_cons, List.sum_cons, List.map_cons,
          List.sum_cons, ih]
  have hnodup : (t.rows.filter fun r ↦ f r.1 r.2 ≠ 0).Nodup := t.nodup.of_map.filter _
  have hrow : ∀ r ∈ t.rows.filter fun r ↦ f r.1 r.2 ≠ 0,
      r ∈ u.rows ∧ f r.1 r.2 ≤ g r.1 r.2 := by
    intro r hr
    obtain ⟨hmem, hne⟩ := List.mem_filter.mp hr
    obtain ⟨hget, hle⟩ := h r.1 r.2 (mem_rows_iff.mp hmem) (of_decide_eq_true hne)
    exact ⟨mem_rows_iff.mpr hget, hle⟩
  obtain ⟨rows, hperm, hsub⟩ := List.Nodup.subperm hnodup fun r hr ↦ (hrow r hr).1
  calc t.total f = ((t.rows.filter fun r ↦ f r.1 r.2 ≠ 0).map fun r ↦ f r.1 r.2).sum :=
        hcount t.rows
    _ ≤ ((t.rows.filter fun r ↦ f r.1 r.2 ≠ 0).map fun r ↦ g r.1 r.2).sum :=
        List.sum_le_sum fun r hr ↦ (hrow r hr).2
    _ = (rows.map fun r ↦ g r.1 r.2).sum := (hperm.map _).symm.sum_eq
    _ ≤ u.total g := (hsub.map _).sum_le_sum fun _ _ ↦ Nat.zero_le _

end total

end Table

end GreenCompute
