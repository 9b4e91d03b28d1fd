import Mathlib.Data.List.Find
import Mathlib.Data.List.MinMax
import Mathlib.Data.List.Sort

/-!
# Queries through a filter

A query over a list, asked again of the elements that a filter keeps: the first match, a stable
sort, the first least element. The answers agree as soon as what the filter drops would not have
been answered. A lookup in stages asks one query after another until one is answered; there what
the filter drops makes a difference exactly where it answers a stage that is reached
(`Shadowed`).
-/

namespace GreenCompute

variable {α β : Type}

/-- A column without repetitions names at most one row. -/
theorem eq_of_nodup_filterMap {f : α → Option β} {l : List α} (h : (l.filterMap f).Nodup)
    {a a' : α} (ha : a ∈ l) (ha' : a' ∈ l) {b : β} (hb : f a = some b) (hb' : f a' = some b) :
    a = a' := by
  induction l with
  | nil => exact absurd ha List.not_mem_nil
  | cons x l ih =>
    have hmem : ∀ {y}, y ∈ l → f y = some b → b ∈ l.filterMap f := fun hy hf ↦
      List.mem_filterMap.mpr ⟨_, hy, hf⟩
    rcases List.mem_cons.mp ha with rfl | hal
    · rcases List.mem_cons.mp ha' with rfl | hal'
      · rfl
      · rw [List.filterMap_cons_some hb, List.nodup_cons] at h
        exact absurd (hmem hal' hb') h.1
    · rcases List.mem_cons.mp ha' with rfl | hal'
      · rw [List.filterMap_cons_some hb', List.nodup_cons] at h
        exact absurd (hmem hal hb) h.1
      · have htail : (l.filterMap f).Nodup := by
          cases hx : f x with
          | none => rwa [List.filterMap_cons_none hx] at h
          | some y =>
            rw [List.filterMap_cons_some hx, List.nodup_cons] at h
            exact h.2
        exact ih htail hal hal'

/-! ## Lookups in stages -/

section staged

variable {τ : Type}

/-- The first match of the first query that has one, with the query's mark. -/
def staged (rows : List α) : List (τ × (α → Bool)) → Option (α × τ)
  | [] => none
  | q :: qs => ((rows.find? q.2).map fun a ↦ (a, q.1)).or (staged rows qs)

/-- A query that is reached by what the filter keeps is answered by something that it drops. -/
def Shadowed (p : α → Bool) (rows : List α) : List (τ × (α → Bool)) → Prop
  | [] => False
  | q :: qs => (∃ a ∈ rows, p a = false ∧ q.2 a = true) ∨
      (∀ a ∈ rows, p a = true → q.2 a = false) ∧ Shadowed p rows qs

instance (p : α → Bool) (rows : List α) :
    (qs : List (τ × (α → Bool))) → Decidable (Shadowed p rows qs)
  | [] => inferInstanceAs (Decidable False)
  | _ :: qs =>
    have := instDecidableShadowed p rows qs
    inferInstanceAs (Decidable ((∃ a ∈ rows, _) ∨ (∀ a ∈ rows, _) ∧ Shadowed p rows qs))

variable {p : α → Bool} {rows : List α} {qs : List (τ × (α → Bool))}

theorem staged_filter_of_not_shadowed (h : ¬Shadowed p rows qs) :
    staged rows qs = staged (rows.filter p) qs := by
  induction qs with
  | nil => rfl
  | cons q qs ih =>
    obtain ⟨hkept, hrest⟩ := not_or.mp h
    have hfind : rows.find? q.2 = (rows.filter p).find? q.2 := by
      rw [List.find?_filter]
      refine List.find?_congr fun a ha ↦ ?_
      cases hp : p a with
      | true => simp
      | false =>
        have hq : q.2 a = false := Bool.eq_false_iff.mpr fun hq ↦ hkept ⟨a, ha, hp, hq⟩
        simp [hq]
    rw [staged, staged, ← hfind]
    cases hf : rows.find? q.2 with
    | some a => rfl
    | none =>
      have hnone : ∀ a ∈ rows, p a = true → q.2 a = false := fun a ha _ ↦
        Bool.eq_false_iff.mpr (List.find?_eq_none.mp hf a ha)
      rw [ih fun hsh ↦ hrest ⟨hnone, hsh⟩]

/-- A shadowed lookup comes upon something that the filter drops. -/
theorem exists_staged_of_shadowed
    (hunique : ∀ q ∈ qs, ∀ a ∈ rows, ∀ a' ∈ rows, q.2 a = true → q.2 a' = true → a = a')
    (h : Shadowed p rows qs) : ∃ a m, staged rows qs = some (a, m) ∧ p a = false := by
  induction qs with
  | nil => exact h.elim
  | cons q qs ih =>
    rcases hf : rows.find? q.2 with _ | b
    · have hnone := List.find?_eq_none.mp hf
      have hrest : Shadowed p rows qs := by
        rcases h with ⟨a, ha, -, hq⟩ | ⟨-, h⟩
        · exact absurd hq (hnone a ha)
        · exact h
      obtain ⟨a, m, hstaged, hp⟩ := ih (fun q' hq' ↦ hunique q' (List.mem_cons_of_mem _ hq')) hrest
      exact ⟨a, m, by rw [staged, hf]; exact hstaged, hp⟩
    · have hb := List.mem_of_find?_eq_some hf
      have hqb := List.find?_some hf
      refine ⟨b, q.1, by rw [staged, hf]; rfl, ?_⟩
      rcases h with ⟨a, ha, hp, hq⟩ | ⟨hnone, -⟩
      · rw [hunique q List.mem_cons_self b hb a ha hqb hq]
        exact hp
      · by_contra hp
        exact absurd hqb (Bool.eq_false_iff.mp (hnone b hb (Bool.eq_true_of_not_eq_false hp)))

theorem mem_of_staged {a : α} {m : τ} (h : staged rows qs = some (a, m)) : a ∈ rows := by
  induction qs with
  | nil => exact nomatch h
  | cons q qs ih =>
    rw [staged, Option.or_eq_some_iff] at h
    rcases h with h | ⟨-, h⟩
    · obtain ⟨b, hb, heq⟩ := Option.map_eq_some_iff.mp h
      exact (Prod.mk.inj heq).1 ▸ List.mem_of_find?_eq_some hb
    · exact ih h

theorem staged_eq_none_iff : staged rows qs = none ↔ ∀ q ∈ qs, ∀ a ∈ rows, q.2 a = false := by
  induction qs with
  | nil => simp [staged]
  | cons q qs ih =>
    rw [staged, Option.or_eq_none_iff, Option.map_eq_none_iff, ih, List.forall_mem_cons,
      List.find?_eq_none]
    simp only [Bool.not_eq_true]

end staged

/-! ## Stable sorts -/

section sort

variable {r : α → α → Prop} [DecidableRel r]

private theorem orderedInsert_eq_cons {a : α} {l : List α} (h : ∀ b ∈ l, r a b) :
    l.orderedInsert r a = a :: l := by
  cases l with
  | nil => rfl
  | cons b l => rw [List.orderedInsert_cons, if_pos (h b List.mem_cons_self)]

private theorem filter_orderedInsert [IsTrans α r] (p : α → Bool) (a : α) {l : List α}
    (hl : l.Pairwise r) :
    (l.orderedInsert r a).filter p =
      if p a then (l.filter p).orderedInsert r a else l.filter p := by
  induction l with
  | nil => by_cases ha : p a <;> simp [ha]
  | cons b l ih =>
    obtain ⟨hb, hl⟩ := List.pairwise_cons.mp hl
    by_cases hab : r a b
    · have hall : ∀ c ∈ (b :: l).filter p, r a c := by
        intro c hc
        rcases List.mem_cons.mp (List.mem_filter.mp hc).1 with rfl | hcl
        · exact hab
        · exact IsTrans.trans _ _ _ hab (hb c hcl)
      rw [List.orderedInsert_cons, if_pos hab, orderedInsert_eq_cons hall, List.filter_cons]
    · rw [List.orderedInsert_cons, if_neg hab, List.filter_cons, ih hl, List.filter_cons]
      by_cases hpa : p a <;> by_cases hpb : p b <;> simp [hpa, hpb, hab]

/-- Sorting what a filter keeps is filtering what was sorted. -/
theorem filter_insertionSort [IsTrans α r] [Std.Total r] (p : α → Bool) (l : List α) :
    (l.insertionSort r).filter p = (l.filter p).insertionSort r := by
  induction l with
  | nil => rfl
  | cons a l ih =>
    rw [List.insertionSort_cons, filter_orderedInsert p a (List.pairwise_insertionSort r l), ih,
      List.filter_cons]
    by_cases ha : p a
    · rw [if_pos ha, if_pos ha, List.insertionSort_cons]
    · rw [if_neg ha, if_neg ha]

end sort

/-! ## Least elements -/

section least

variable [LinearOrder β]

theorem argmin_congr {f g : α → β} {l : List α} (h : ∀ a ∈ l, f a = g a) :
    l.argmin f = l.argmin g := by
  induction l using List.reverseRecOn with
  | nil => rfl
  | append_singleton l a ih =>
    rw [List.argmin_concat, List.argmin_concat, ih fun b hb ↦ h b (List.mem_append_left _ hb)]
    cases hc : l.argmin g with
    | none => rfl
    | some c =>
      have hcl : c ∈ l ++ [a] := List.mem_append_left _ (List.argmin_mem hc)
      simp only [h c hcl, h a (List.mem_append_right _ (List.mem_singleton_self a))]

/-- Where all that the filter keeps ranks before all that it drops, the first least element is the
first least of those kept. -/
theorem argmin_eq_argmin_filter {f : α → β} {p : α → Bool} {l : List α}
    (h : ∀ a ∈ l, ∀ b ∈ l, p a = true → p b = false → f a < f b) (hex : ∃ a ∈ l, p a = true) :
    l.argmin f = (l.filter p).argmin f := by
  induction l using List.reverseRecOn with
  | nil =>
    obtain ⟨a, ha, -⟩ := hex
    exact absurd ha List.not_mem_nil
  | append_singleton l a ih =>
    have hlast : a ∈ l ++ [a] := List.mem_append_right _ (List.mem_singleton_self a)
    have hinit : ∀ b ∈ l, b ∈ l ++ [a] := fun b hb ↦ List.mem_append_left _ hb
    have hsub : ∀ b ∈ l, ∀ c ∈ l, p b = true → p c = false → f b < f c := fun b hb c hc ↦
      h b (hinit b hb) c (hinit c hc)
    rw [List.argmin_concat, List.filter_append]
    by_cases hl : ∃ b ∈ l, p b = true
    · rw [ih hsub hl]
      by_cases hpa : p a
      · rw [List.filter_singleton, hpa, cond_true, List.argmin_concat]
      · -- The least of those kept stays ahead of the one dropped.
        obtain ⟨c, hc⟩ : ∃ c, (l.filter p).argmin f = some c := by
          obtain ⟨b, hb, hpb⟩ := hl
          have hne : l.filter p ≠ [] := List.ne_nil_of_mem (List.mem_filter.mpr ⟨hb, hpb⟩)
          exact Option.ne_none_iff_exists'.mp (List.argmin_eq_none.not.mpr hne)
        obtain ⟨hcl, hpc⟩ := List.mem_filter.mp (List.argmin_mem hc)
        have hlt : f c < f a := h c (hinit c hcl) a hlast hpc (Bool.eq_false_iff.mpr hpa)
        rw [List.filter_singleton, Bool.eq_false_iff.mpr hpa, cond_false, List.append_nil, hc]
        exact if_neg hlt.not_gt
    · have hnone : l.filter p = [] := List.filter_eq_nil_iff.mpr fun b hb hpb ↦ hl ⟨b, hb, hpb⟩
      have hpa : p a = true := by
        obtain ⟨b, hb, hpb⟩ := hex
        rcases List.mem_append.mp hb with hb | hb
        · exact absurd ⟨b, hb, hpb⟩ hl
        · rwa [List.mem_singleton.mp hb] at hpb
      rw [hnone, List.nil_append, List.filter_singleton, hpa, cond_true, List.argmin_singleton]
      cases hc : l.argmin f with
      | none => rfl
      | some c =>
        have hpc : p c = false := Bool.eq_false_iff.mpr fun hpc ↦
          hl ⟨c, List.argmin_mem hc, hpc⟩
        exact if_pos (h a hlast c (hinit c (List.argmin_mem hc)) hpa hpc)

end least

end GreenCompute
