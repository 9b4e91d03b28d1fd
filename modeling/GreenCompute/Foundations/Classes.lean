import GreenCompute.Foundations.Grouping
import Mathlib.Data.List.MinMax

/-!
# The best class of a list

A list is split into classes by a key, in the order in which the keys first occur, and the class of
least rank among those that qualify is taken. Rank and qualification look at a class as a multiset,
so they do not depend on the order of the list; which of two classes of equal rank comes first does.
The class that is taken is the same for every order exactly when none ties with it: without ties
it is (`Untied.perm`), and of two that tie either can be brought to the front (`exists_bestClass`).
-/

namespace GreenCompute

variable {α κ β : Type} [DecidableEq κ] {key : α → κ} {l l' c : List α}

/-- The elements of one key. -/
def classOf (key : α → κ) (l : List α) (k : κ) : List α := l.filter fun a ↦ key a = k

/-- One row for each key, with its elements. -/
def classTable (key : α → κ) (l : List α) : Table κ (List α) :=
  Table.accumulate key (fun _ ↦ []) (fun a r ↦ r ++ [a]) .empty l

/-- The classes, in the order in which their keys first occur. -/
def classes (key : α → κ) (l : List α) : List (List α) := (classTable key l).rows.map Prod.snd

theorem mem_classOf {k : κ} {a : α} : a ∈ classOf key l k ↔ a ∈ l ∧ key a = k := by
  rw [classOf, List.mem_filter, decide_eq_true_iff]

theorem classOf_perm (h : l.Perm l') (k : κ) : (classOf key l k).Perm (classOf key l' k) :=
  h.filter _

theorem eq_classOf_of_get? {k : κ} (h : (classTable key l).get? k = some c) :
    c = classOf key l k := by
  have hrow : ((classTable key l).get? k).getD [] = classOf key l k := by
    rw [classTable, Table.getD_accumulate, Table.get?_empty, Option.getD_none, classOf]
    generalize l.filter (fun a ↦ key a = k) = members
    induction members using List.reverseRecOn with
    | nil => rfl
    | append_singleton members a ih => rw [List.foldl_append, ih, List.foldl_cons, List.foldl_nil]
  rwa [h, Option.getD_some] at hrow

theorem mem_classes_iff : c ∈ classes key l ↔ ∃ a ∈ l, c = classOf key l (key a) := by
  have hkeys (k : κ) : ((classTable key l).get? k).isSome = true ↔ ∃ a ∈ l, key a = k := by
    rw [classTable, Table.isSome_get?_accumulate]
    exact or_iff_right Bool.noConfusion
  rw [classes, List.mem_map]
  constructor
  · rintro ⟨⟨k, r⟩, hmem, rfl⟩
    have hget := Table.mem_rows_iff.mp hmem
    obtain ⟨a, ha, rfl⟩ := (hkeys k).mp (Option.isSome_iff_exists.mpr ⟨r, hget⟩)
    exact ⟨a, ha, eq_classOf_of_get? hget⟩
  · rintro ⟨a, ha, rfl⟩
    obtain ⟨r, hget⟩ := Option.isSome_iff_exists.mp ((hkeys (key a)).mpr ⟨a, ha, rfl⟩)
    exact ⟨(key a, r), Table.mem_rows_iff.mpr hget, eq_classOf_of_get? hget⟩

/-- Classes do not overlap. -/
theorem eq_of_mem_classes {c' : List α} (hc : c ∈ classes key l) (hc' : c' ∈ classes key l)
    {a a' : α} (ha : a ∈ c) (ha' : a' ∈ c') (h : key a = key a') : c = c' := by
  obtain ⟨b, -, rfl⟩ := mem_classes_iff.mp hc
  obtain ⟨b', -, rfl⟩ := mem_classes_iff.mp hc'
  rw [← (mem_classOf.mp ha).2, ← (mem_classOf.mp ha').2, h]

theorem exists_mem_of_mem_classes (hc : c ∈ classes key l) :
    ∃ a ∈ c, a ∈ l ∧ c = classOf key l (key a) := by
  obtain ⟨a, ha, rfl⟩ := mem_classes_iff.mp hc
  exact ⟨a, mem_classOf.mpr ⟨ha, rfl⟩, ha, rfl⟩

/-- In another order the classes are the same, each in another order. -/
theorem exists_perm_of_mem_classes (h : l.Perm l') (hc : c ∈ classes key l) :
    ∃ c' ∈ classes key l', c.Perm c' := by
  obtain ⟨a, ha, rfl⟩ := mem_classes_iff.mp hc
  exact ⟨_, mem_classes_iff.mpr ⟨a, h.mem_iff.mp ha, rfl⟩, classOf_perm h _⟩

/-- The class of the first element comes first. -/
theorem head?_classes (a : α) (l : List α) :
    (classes key (a :: l)).head? = some (classOf key (a :: l) (key a)) := by
  have hinsert (t : Table κ (List α)) (k : κ) (r : List α)
      (ht : t.rows.head?.map Prod.fst = some (key a)) :
      (t.insert k r).rows.head?.map Prod.fst = some (key a) := by
    obtain ⟨row, hrow, hk⟩ := Option.map_eq_some_iff.mp ht
    rw [Table.insert]
    split
    · simp only [Table.modify, Table.map, List.head?_map, hrow, Option.map_some, hk]
    · simp only [List.head?_append, hrow, Option.some_or, Option.map_some, hk]
  have hfirst (members : List α) (t : Table κ (List α))
      (ht : t.rows.head?.map Prod.fst = some (key a)) :
      (Table.accumulate key (fun _ ↦ []) (fun a r ↦ r ++ [a]) t members).rows.head?.map Prod.fst =
        some (key a) := by
    induction members generalizing t with
    | nil => exact ht
    | cons b members ih => exact ih _ (hinsert t _ _ ht)
  have hone : (Table.empty.bump (key a) [] fun r ↦ r ++ [a]).rows.head?.map Prod.fst =
      some (key a) := rfl
  obtain ⟨⟨k, r⟩, hrow, rfl⟩ := Option.map_eq_some_iff.mp (hfirst l _ hone)
  have hget := Table.mem_rows_iff.mp (List.mem_of_mem_head? hrow)
  rw [classes, List.head?_map]
  refine Option.map_eq_some_iff.mpr ⟨(key a, r), hrow, ?_⟩
  exact eq_classOf_of_get? hget

/-! ## Choosing a class -/

theorem argmin_cons_of_le [LinearOrder β] {f : α → β} {a : α} (h : ∀ b ∈ l, f a ≤ f b) :
    (a :: l).argmin f = some a := by
  rw [List.argmin_cons]
  cases hleast : l.argmin f with
  | none => rfl
  | some b => exact if_neg (h b (List.argmin_mem hleast)).not_gt

section

variable [LinearOrder β] {p : List α → Bool} {rank : List α → β}

/-- The first class of least rank among those that qualify. -/
def bestClass (key : α → κ) (p : List α → Bool) (rank : List α → β) (l : List α) :
    Option (List α) :=
  ((classes key l).filter p).argmin rank

/-- The class qualifies, and no class that does ranks before it. -/
structure Leads (key : α → κ) (p : List α → Bool) (rank : List α → β) (l c : List α) : Prop where
  mem : c ∈ classes key l
  fit : p c = true
  least : ∀ d ∈ classes key l, p d = true → rank c ≤ rank d

/-- Only one class leads. -/
def Untied (key : α → κ) (p : List α → Bool) (rank : List α → β) (l : List α) : Prop :=
  ∀ c c', Leads key p rank l c → Leads key p rank l c' → c = c'

/-- Rank and qualification of a class do not depend on its order. -/
structure OrderFree (key : α → κ) (p : List α → Bool) (rank : List α → β) : Prop where
  fit : ∀ c c' : List α, c.Perm c' → p c = p c'
  rank : ∀ c c' : List α, c.Perm c' → (∀ a ∈ c, ∀ b ∈ c, key a = key b) → rank c = rank c'

theorem leads_of_bestClass (h : bestClass key p rank l = some c) : Leads key p rank l c := by
  have hmem := List.mem_filter.mp (List.argmin_mem h)
  exact ⟨hmem.1, hmem.2, fun d hd hfit ↦
    List.le_of_mem_argmin (List.mem_filter.mpr ⟨hd, hfit⟩) h⟩

theorem isSome_bestClass_iff :
    (bestClass key p rank l).isSome = true ↔ ∃ c ∈ classes key l, p c = true := by
  rw [bestClass, Option.isSome_iff_ne_none, Ne, List.argmin_eq_none, List.filter_eq_nil_iff]
  simp only [not_forall, not_not, exists_prop]

section

variable (free : OrderFree key p rank)

include free

omit [LinearOrder β] in
/-- All of a class is of one key. -/
theorem OrderFree.rank_of_mem {d : List α} (hc : c ∈ classes key l) (h : c.Perm d) :
    rank c = rank d := by
  refine free.rank c d h fun a ha b hb ↦ ?_
  obtain ⟨k, -, rfl⟩ := mem_classes_iff.mp hc
  rw [(mem_classOf.mp ha).2, (mem_classOf.mp hb).2]

/-- In another order the class, reordered, leads as well. -/
theorem Leads.perm (h : Leads key p rank l c) (hl : l.Perm l') :
    ∃ c', Leads key p rank l' c' ∧ c.Perm c' := by
  obtain ⟨c', hc', hperm⟩ := exists_perm_of_mem_classes hl h.mem
  refine ⟨c', ⟨hc', free.fit c c' hperm ▸ h.fit, fun d hd hfit ↦ ?_⟩, hperm⟩
  obtain ⟨d', hd', hperm'⟩ := exists_perm_of_mem_classes hl.symm hd
  rw [← free.rank_of_mem h.mem hperm, free.rank_of_mem hd hperm']
  exact h.least d' hd' (free.fit d d' hperm' ▸ hfit)

/-- Without ties the same class is taken whatever the order. -/
theorem Untied.perm {c' : List α} (h : Untied key p rank l) (hl : l'.Perm l)
    (hc : bestClass key p rank l = some c) (hc' : bestClass key p rank l' = some c') :
    c'.Perm c := by
  obtain ⟨d, hd, hperm⟩ := (leads_of_bestClass hc').perm free hl
  rwa [h d c hd (leads_of_bestClass hc)] at hperm

/-- A class that leads is taken in some order. -/
theorem exists_bestClass (h : Leads key p rank l c) :
    ∃ l' : List α, l'.Perm l ∧ bestClass key p rank l' = some c := by
  obtain ⟨a, ha, -, hclass⟩ := exists_mem_of_mem_classes h.mem
  -- Its own elements are moved to the front.
  let others := l.filter fun b ↦ ¬key b = key a
  have hl : (c ++ others).Perm l := by
    have hsplit := List.filter_append_perm (fun b ↦ decide (key b = key a)) l
    simpa only [hclass, classOf, others, decide_not] using hsplit
  have hfront : classOf key (c ++ others) (key a) = c := by
    have hkept : c.filter (fun b ↦ key b = key a) = c := by
      refine List.filter_eq_self.mpr fun b hb ↦ decide_eq_true ?_
      rw [hclass] at hb
      exact (mem_classOf.mp hb).2
    have hdropped : others.filter (fun b ↦ key b = key a) = [] := by
      refine List.filter_eq_nil_iff.mpr fun b hb hkey ↦ ?_
      have hother := of_decide_eq_true (List.mem_filter.mp hb).2
      exact hother (of_decide_eq_true hkey)
    rw [classOf, List.filter_append, hkept, hdropped, List.append_nil]
  have hhead : (classes key (c ++ others)).head? = some c := by
    obtain ⟨first, rest, hcons⟩ := List.exists_cons_of_ne_nil (List.ne_nil_of_mem ha)
    have hfirst : key first = key a := by
      have hmem : first ∈ c := hcons ▸ List.mem_cons_self
      rw [hclass] at hmem
      exact (mem_classOf.mp hmem).2
    have hclasses : (classes key (first :: (rest ++ others))).head? =
        some (classOf key (first :: (rest ++ others)) (key first)) := head?_classes first _
    rwa [← List.cons_append, ← hcons, hfirst, hfront] at hclasses
  refine ⟨c ++ others, hl, ?_⟩
  obtain ⟨rest, hrest⟩ : ∃ rest, classes key (c ++ others) = c :: rest := by
    cases hclasses : classes key (c ++ others) with
    | nil => rw [hclasses] at hhead; exact nomatch hhead
    | cons d rest =>
      rw [hclasses] at hhead
      exact ⟨rest, congrArg (· :: rest) (Option.some.inj hhead)⟩
  obtain ⟨c', hleads, hperm⟩ := h.perm free hl.symm
  have hleast (d : List α) (hd : d ∈ classes key (c ++ others)) (hfit : p d = true) :
      rank c ≤ rank d := by
    obtain ⟨d', hd', hperm'⟩ := exists_perm_of_mem_classes hl hd
    rw [free.rank_of_mem hd hperm']
    exact h.least d' hd' (free.fit d d' hperm' ▸ hfit)
  rw [bestClass, hrest, List.filter_cons_of_pos h.fit]
  refine argmin_cons_of_le fun d hd ↦ ?_
  obtain ⟨hd, hfit⟩ := List.mem_filter.mp hd
  exact hleast d (hrest ▸ List.mem_cons_of_mem c hd) hfit

end

end

end GreenCompute
