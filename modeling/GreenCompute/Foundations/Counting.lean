import GreenCompute.Foundations.Table

/-!
# Counting the rows of a table

How many rows meet a condition, and what an update of the table does to that number.
-/

namespace GreenCompute

namespace Table

variable {κ ρ : Type} [DecidableEq κ] {t : Table κ ρ} {p q : κ → ρ → Bool}

/-- How many rows meet a condition. -/
def count (t : Table κ ρ) (p : κ → ρ → Bool) : ℕ := (t.select p).length

omit [DecidableEq κ] in
theorem count_eq_countP (t : Table κ ρ) (p : κ → ρ → Bool) :
    t.count p = t.rows.countP fun r ↦ p r.1 r.2 :=
  List.countP_eq_length_filter.symm

omit [DecidableEq κ] in
theorem count_eq_total (t : Table κ ρ) (p : κ → ρ → Bool) :
    t.count p = t.total fun k r ↦ if p k r then 1 else 0 := by
  rw [total_ite_eq_countP, count_eq_countP]

omit [DecidableEq κ] in
@[simp] theorem count_empty (p : κ → ρ → Bool) : (empty : Table κ ρ).count p = 0 := rfl

theorem count_congr (h : ∀ k r, t.get? k = some r → p k r = q k r) : t.count p = t.count q := by
  rw [count_eq_countP, count_eq_countP]
  exact List.countP_congr fun r hr ↦ by rw [h r.1 r.2 (mem_rows_iff.mp hr)]

theorem count_le_count (h : ∀ k r, t.get? k = some r → p k r = true → q k r = true) :
    t.count p ≤ t.count q := by
  rw [count_eq_countP, count_eq_countP]
  exact List.countP_mono_left fun r hr hp ↦ h r.1 r.2 (mem_rows_iff.mp hr) hp

omit [DecidableEq κ] in
/-- The rows that meet a condition, split by another one. -/
theorem count_split (t : Table κ ρ) (p q : κ → ρ → Bool) :
    t.count p = (t.count fun k r ↦ p k r && q k r) + t.count fun k r ↦ p k r && !q k r := by
  simp only [count_eq_countP]
  induction t.rows with
  | nil => rfl
  | cons a rows ih =>
    rw [List.countP_cons, List.countP_cons, List.countP_cons, ih]
    by_cases hp : p a.1 a.2 <;> by_cases hq : q a.1 a.2 <;> simp [hp, hq] <;> omega

theorem count_eq_zero_iff : t.count p = 0 ↔ ∀ k r, t.get? k = some r → p k r = false := by
  rw [count_eq_countP, List.countP_eq_zero]
  constructor
  · intro h k r hget
    exact Bool.eq_false_of_not_eq_true (h (k, r) (mem_rows_iff.mpr hget))
  · intro h r hr
    rw [h r.1 r.2 (mem_rows_iff.mp hr)]
    exact Bool.false_ne_true

/-- A stronger condition leaves as many rows if it leaves every row. -/
theorem count_eq_count_iff (h : ∀ k r, t.get? k = some r → q k r = true → p k r = true) :
    t.count q = t.count p ↔ ∀ k r, t.get? k = some r → p k r = true → q k r = true := by
  have hsame : (t.count fun k r ↦ p k r && q k r) = t.count q := by
    refine count_congr fun k r hget ↦ ?_
    cases hq : q k r with
    | false => rw [Bool.and_false]
    | true => rw [h k r hget hq]; rfl
  have hsplit := t.count_split p q
  rw [hsame] at hsplit
  have hzero : t.count q = t.count p ↔ (t.count fun k r ↦ p k r && !q k r) = 0 := by omega
  rw [hzero, count_eq_zero_iff]
  refine forall_congr' fun k ↦ forall_congr' fun r ↦ forall_congr' fun _ ↦ ?_
  cases p k r <;> cases q k r <;> decide

/-- No more rows meet a condition than a list has keys, if it has those of all of them. -/
theorem count_le_length {ks : List κ}
    (h : ∀ k r, t.get? k = some r → p k r = true → k ∈ ks) : t.count p ≤ ks.length := by
  have hkeys : (t.select p).map Prod.fst ⊆ ks := by
    intro k hk
    obtain ⟨⟨k, r⟩, hr, rfl⟩ := List.mem_map.mp hk
    obtain ⟨hget, hp⟩ := mem_select.mp hr
    exact h k r hget hp
  have hle := (List.subperm_of_subset (t.nodup_select p) hkeys).length_le
  rwa [List.length_map] at hle

/-- As many rows meet a condition as a list has keys, if it has theirs and no others. -/
theorem count_eq_length {ks : List κ} (hnodup : ks.Nodup)
    (h : ∀ k, k ∈ ks ↔ ∃ r, t.get? k = some r ∧ p k r = true) : t.count p = ks.length := by
  refine Nat.le_antisymm (count_le_length fun k r hr hp ↦ (h k).mpr ⟨r, hr, hp⟩) ?_
  have hkeys : ks ⊆ (t.select p).map Prod.fst := by
    intro k hk
    obtain ⟨r, hr, hp⟩ := (h k).mp hk
    exact List.mem_map.mpr ⟨(k, r), mem_select.mpr ⟨hr, hp⟩, rfl⟩
  have hle := (List.subperm_of_subset hnodup hkeys).length_le
  rwa [List.length_map] at hle

/-- Rows but one meet a weaker condition. -/
theorem count_le_count_add_one {k : κ}
    (h : ∀ k' r, t.get? k' = some r → k' ≠ k → p k' r = true → q k' r = true) :
    t.count p ≤ t.count q + 1 := by
  cases hget : t.get? k with
  | none =>
    refine (count_le_count fun k' r hr ↦ h k' r hr ?_).trans (Nat.le_succ _)
    rintro rfl
    exact nomatch hr.symm.trans hget
  | some r =>
    have hp := total_of_get? hget fun k r ↦ if p k r = true then 1 else 0
    have hq := total_of_get? hget fun k r ↦ if q k r = true then 1 else 0
    have hrest : (t.total fun k' r' ↦ if k' = k then 0 else if p k' r' then 1 else 0) ≤
        t.total fun k' r' ↦ if k' = k then 0 else if q k' r' then 1 else 0 := by
      refine total_le_total fun k' r' hr' ↦ ?_
      by_cases hk : k' = k
      · rw [if_pos hk, if_pos hk]
      · rw [if_neg hk, if_neg hk]
        by_cases hp : p k' r' = true
        · rw [if_pos hp, if_pos (h k' r' hr' hk hp)]
        · rw [if_neg hp]
          exact Nat.zero_le _
    have hone : (if p k r = true then 1 else 0) ≤ 1 := by split <;> decide
    rw [count_eq_total, count_eq_total, hp, hq]
    omega

omit [DecidableEq κ] in
@[simp] theorem count_map (t : Table κ ρ) (g : κ → ρ → ρ) (p : κ → ρ → Bool) :
    (t.map g).count p = t.count fun k r ↦ p k (g k r) := by
  rw [count_eq_total, total_map, count_eq_total]

theorem count_insert_new (h : t.get? k = none) (r : ρ) (p : κ → ρ → Bool) :
    (t.insert k r).count p = t.count p + if p k r then 1 else 0 := by
  rw [count_eq_total, total_insert, total_of_get?_none h, count_eq_total]

end Table

/-! ## The end of a sorted list -/

/-- Where what meets a condition comes after what does not, it is what the list ends with. -/
theorem takeWhile_reverse_eq_filter {α : Type} {p : α → Bool} {l : List α}
    (h : l.Pairwise fun a b ↦ p a = true → p b = true) :
    l.reverse.takeWhile p = (l.filter p).reverse := by
  induction l with
  | nil => rfl
  | cons a l ih =>
    obtain ⟨ha, hl⟩ := List.pairwise_cons.mp h
    rw [List.reverse_cons, List.takeWhile_append, ih hl]
    by_cases hp : p a = true
    · -- Everything after it meets the condition as well.
      have hall : l.filter p = l := List.filter_eq_self.mpr fun b hb ↦ ha b hb hp
      rw [hall, if_pos rfl, List.filter_cons_of_pos hp, hall, List.reverse_cons,
        List.takeWhile_cons_of_pos hp]
      rfl
    · rw [List.filter_cons_of_neg hp, List.takeWhile_cons_of_neg hp]
      split
      · next hlen =>
        have hall : l.filter p = l := by
          refine List.filter_sublist.eq_of_length ?_
          rwa [List.length_reverse, List.length_reverse] at hlen
        rw [hall, List.append_nil]
      · rfl

end GreenCompute
