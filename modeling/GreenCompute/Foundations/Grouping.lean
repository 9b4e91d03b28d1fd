import GreenCompute.Foundations.Table
import Mathlib.Algebra.BigOperators.Group.List.Lemmas

/-!
# Accumulating into a table

A grouped scan keeps one row for each key and adds every element to the row of its key. `bump` is
one such addition. A figure that starts at nothing and grows by what each element is worth sums to
the worth of all of them, whatever the keys are (`total_foldl_bump`); and the elements of each key,
taken key by key, are all the elements (`perm_flatMap_filter`).
-/

namespace GreenCompute

namespace Table

variable {α κ ρ M : Type} [DecidableEq κ] [AddCommMonoid M]

/-- Add to the row under a key; a new row begins as `start`. -/
def bump (t : Table κ ρ) (k : κ) (start : ρ) (add : ρ → ρ) : Table κ ρ :=
  t.insert k (add ((t.get? k).getD start))

/-- Accumulate a list. -/
def accumulate (key : α → κ) (start : α → ρ) (add : α → ρ → ρ) (t : Table κ ρ) (l : List α) :
    Table κ ρ :=
  l.foldl (fun t a ↦ t.bump (key a) (start a) (add a)) t

variable {t : Table κ ρ} {k : κ} {start : ρ} {add : ρ → ρ}

theorem total_bump {f : κ → ρ → M} {v : M} (hstart : f k start = 0)
    (hadd : ∀ r, f k (add r) = f k r + v) : (t.bump k start add).total f = t.total f + v := by
  rw [bump, total_insert, hadd, ← add_assoc]
  cases hget : t.get? k with
  | none => rw [total_of_get?_none hget, Option.getD_none, hstart, add_zero]
  | some r => rw [total_of_get? hget f, Option.getD_some]

/-- What holds of a new row and is kept by an addition holds of every row. -/
theorem forall_bump {P : κ → ρ → Prop} (h : ∀ k r, t.get? k = some r → P k r) (hstart : P k start)
    (hadd : ∀ r, P k r → P k (add r)) : ∀ k' r, (t.bump k start add).get? k' = some r → P k' r := by
  intro k' r hget
  by_cases hk : k' = k
  · subst hk
    rw [bump, get?_insert_self] at hget
    obtain rfl := Option.some.inj hget
    refine hadd _ ?_
    cases hold : t.get? k' with
    | none => exact hstart
    | some r => exact h k' r hold
  · rw [bump, get?_insert_ne _ hk] at hget
    exact h k' r hget

theorem isSome_get?_bump (k' : κ) :
    ((t.bump k start add).get? k').isSome = true ↔ k' = k ∨ (t.get? k').isSome = true := by
  by_cases hk : k' = k
  · subst hk
    rw [bump, get?_insert_self]
    simp
  · rw [bump, get?_insert_ne _ hk]
    simp [hk]

section accumulate

variable {key : α → κ} {start : α → ρ} {add : α → ρ → ρ}

/-- A figure that grows by what each element is worth. -/
theorem total_accumulate {f : κ → ρ → M} {v : α → M} (hstart : ∀ a, f (key a) (start a) = 0)
    (hadd : ∀ a r, f (key a) (add a r) = f (key a) r + v a) (t : Table κ ρ) (l : List α) :
    (accumulate key start add t l).total f = t.total f + (l.map v).sum := by
  induction l generalizing t with
  | nil => rw [accumulate, List.foldl_nil, List.map_nil, List.sum_nil, add_zero]
  | cons a l ih =>
    rw [accumulate, List.foldl_cons, ← accumulate, ih, List.map_cons, List.sum_cons, ← add_assoc]
    rw [total_bump (hstart a) (hadd a)]

theorem forall_accumulate {P : κ → ρ → Prop} (hstart : ∀ a, P (key a) (start a))
    (hadd : ∀ a r, P (key a) r → P (key a) (add a r)) {t : Table κ ρ} (l : List α)
    (h : ∀ k r, t.get? k = some r → P k r) :
    ∀ k r, (accumulate key start add t l).get? k = some r → P k r := by
  induction l generalizing t with
  | nil => exact h
  | cons a l ih => exact ih (forall_bump h (hstart a) (hadd a))

omit [AddCommMonoid M] in
/-- The row of a key is what its own elements make of a new row, one after another. -/
theorem getD_accumulate (start : ρ) (add : α → ρ → ρ) (t : Table κ ρ) (l : List α) (k : κ) :
    ((accumulate key (fun _ ↦ start) add t l).get? k).getD start =
      (l.filter fun a ↦ key a = k).foldl (fun r a ↦ add a r) ((t.get? k).getD start) := by
  induction l generalizing t with
  | nil => rfl
  | cons a l ih =>
    rw [accumulate, List.foldl_cons, ← accumulate, ih, bump, List.filter_cons]
    by_cases hk : key a = k
    · rw [if_pos (decide_eq_true hk), List.foldl_cons, hk, get?_insert_self, Option.getD_some]
    · rw [if_neg (by simpa using hk), get?_insert_ne _ (Ne.symm hk)]

/-- The keys are those that were there and those of the elements. -/
theorem isSome_get?_accumulate (t : Table κ ρ) (l : List α) (k : κ) :
    ((accumulate key start add t l).get? k).isSome = true ↔
      (t.get? k).isSome = true ∨ ∃ a ∈ l, key a = k := by
  induction l generalizing t with
  | nil => simp [accumulate]
  | cons a l ih =>
    rw [accumulate, List.foldl_cons, ← accumulate, ih, isSome_get?_bump]
    constructor
    · rintro ((hk | hold) | ⟨b, hb, hk⟩)
      · exact .inr ⟨a, List.mem_cons_self, hk.symm⟩
      · exact .inl hold
      · exact .inr ⟨b, List.mem_cons_of_mem _ hb, hk⟩
    · rintro (hold | ⟨b, hb, hk⟩)
      · exact .inl (.inr hold)
      · rcases List.mem_cons.mp hb with rfl | hb
        · exact .inl (.inl hk.symm)
        · exact .inr ⟨b, hb, hk⟩

end accumulate

omit [AddCommMonoid M] in
/-- Rows put in one after another: each is found where those under its key agree. -/
theorem get?_foldl_insert {key : α → κ} {val : α → ρ} {l : List α} {a : α} (ha : a ∈ l)
    (hagree : ∀ b ∈ l, key b = key a → val b = val a) :
    (l.foldl (fun t a ↦ t.insert (key a) (val a)) t).get? (key a) = some (val a) := by
  induction l using List.reverseRecOn with
  | nil => exact absurd ha List.not_mem_nil
  | append_singleton l b ih =>
    rw [List.foldl_append, List.foldl_cons, List.foldl_nil, get?_insert]
    split
    · next hk => rw [hagree b (List.mem_append_right _ List.mem_cons_self) hk.symm]
    · next hk =>
      refine ih ?_ fun c hc ↦ hagree c (List.mem_append_left _ hc)
      rcases List.mem_append.mp ha with hal | hab
      · exact hal
      · exact absurd (congrArg key (List.mem_singleton.mp hab)) hk

omit [AddCommMonoid M] in
theorem of_get?_foldl_insert {key : α → κ} {val : α → ρ} {l : List α} {r : ρ}
    (h : (l.foldl (fun t a ↦ t.insert (key a) (val a)) t).get? k = some r) :
    (∃ a ∈ l, key a = k ∧ val a = r) ∨ t.get? k = some r := by
  induction l using List.reverseRecOn with
  | nil => exact .inr h
  | append_singleton l b ih =>
    rw [List.foldl_append, List.foldl_cons, List.foldl_nil, get?_insert] at h
    split at h
    · next hk =>
      exact .inl ⟨b, List.mem_append_right _ List.mem_cons_self, hk.symm, Option.some.inj h⟩
    · rcases ih h with ⟨a, ha, hkey, hval⟩ | hbefore
      · exact .inl ⟨a, List.mem_append_left _ ha, hkey, hval⟩
      · exact .inr hbefore

omit [AddCommMonoid M] in
/-- Rows put in one after another: under a key is the last one of that key. -/
theorem get?_foldl_insert_eq_find? (key : α → κ) (val : α → ρ) (l : List α) (t : Table κ ρ)
    (k : κ) :
    (l.foldl (fun t a ↦ t.insert (key a) (val a)) t).get? k =
      ((l.reverse.find? fun a ↦ key a = k).map val).or (t.get? k) := by
  induction l using List.reverseRecOn with
  | nil => rfl
  | append_singleton l b ih =>
    rw [List.foldl_append, List.foldl_cons, List.foldl_nil, get?_insert, List.reverse_append,
      List.reverse_singleton, List.singleton_append]
    by_cases hk : k = key b
    · rw [if_pos hk, List.find?_cons, decide_eq_true hk.symm]
      rfl
    · rw [if_neg hk, List.find?_cons, decide_eq_false (Ne.symm hk), ih]

/-- A figure of one row, as a sum over all of them. -/
theorem total_ite_eq {f : ρ → M} {r : ρ} (h : t.get? k = some r) :
    (t.total fun k' r' ↦ if k' = k then f r' else 0) = f r := by
  rw [total_of_get? h, if_pos rfl]
  have hzero : (t.total fun k' r' ↦ if k' = k then (0 : M) else if k' = k then f r' else 0) =
      0 := by
    refine List.sum_eq_zero fun x hx ↦ ?_
    obtain ⟨row, -, rfl⟩ := List.mem_map.mp hx
    dsimp only
    split <;> rfl
  rw [hzero, zero_add]

end Table

/-- A sum over the elements that meet a condition, as one over all of them. -/
theorem sum_filter_map {α M : Type} [AddCommMonoid M] (p : α → Bool) (f : α → M) (l : List α) :
    ((l.filter p).map f).sum = (l.map fun a ↦ if p a then f a else 0).sum := by
  induction l with
  | nil => rfl
  | cons a l ih =>
    rw [List.map_cons, List.sum_cons, ← ih]
    by_cases h : p a
    · rw [List.filter_cons_of_pos h, List.map_cons, List.sum_cons, if_pos h]
    · rw [List.filter_cons_of_neg h, if_neg h, zero_add]

/-- The elements of each key, key by key, are all the elements. -/
theorem perm_flatMap_filter {α κ : Type} [DecidableEq α] [DecidableEq κ] (key : α → κ)
    {keys : List κ} (hkeys : keys.Nodup) (l : List α) (h : ∀ a ∈ l, key a ∈ keys) :
    (keys.flatMap fun k ↦ l.filter fun a ↦ key a = k).Perm l := by
  refine List.perm_iff_count.mpr fun a ↦ ?_
  rw [List.count_flatMap]
  by_cases ha : a ∈ l
  · have hcount (k : κ) : (l.filter fun a ↦ key a = k).count a =
        if k = key a then l.count a else 0 := by
      by_cases hk : k = key a
      · rw [if_pos hk, List.count_filter (by simp [hk])]
      · rw [if_neg hk, List.count_eq_zero]
        intro hmem
        exact hk (of_decide_eq_true (List.mem_filter.mp hmem).2).symm
    simp only [Function.comp_def, hcount]
    rw [List.sum_map_eq_nsmul_single (key a) _ fun k hk _ ↦ if_neg hk, if_pos rfl,
      List.count_eq_one_of_mem hkeys (h a ha), one_nsmul]
  · rw [List.count_eq_zero.mpr ha]
    refine List.sum_eq_zero fun x hx ↦ ?_
    obtain ⟨k, -, rfl⟩ := List.mem_map.mp hx
    exact List.count_eq_zero.mpr fun hmem ↦ ha (List.mem_filter.mp hmem).1

end GreenCompute
