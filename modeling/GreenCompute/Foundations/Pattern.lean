import Mathlib.Data.List.TakeWhile
import Mathlib.Data.List.Infix

/-!
# Patterns in texts

Regular expressions without choice or repetition but for runs of a class of characters, as a
backtracking matcher reads them: the ways in which a pattern matches a beginning of a text come in
the order in which they are tried, longest runs first. A search takes the first way at the first
place that has one.

Two kinds of facts are used with them. Where the parts of a text are known, the first way is read
off part by part (`first_seq` and its neighbours). And a match that begins in one part of a text
stays inside that part, if no rest of a literal can go on with what follows (`Inside`), so a search
goes through the parts one after the other (`search_append`).
-/

namespace GreenCompute

variable {α : Type}

/-- A pattern: a literal, a run of one or more characters of a class, an optional pattern, one
pattern after another, and a pattern whose text is captured. -/
inductive Pattern (α : Type) where
  | lit (t : List α)
  | run
  | opt (p : Pattern α)
  | seq (p q : Pattern α)
  | group (p : Pattern α)

namespace Pattern

variable [DecidableEq α] (inClass : α → Bool)

/-- The ways in which a pattern matches a beginning of a text, in order: the texts captured, and
what is left. -/
def ways : Pattern α → List α → List (List (List α) × List α)
  | lit t, s => if t <+: s then [([], s.drop t.length)] else []
  | run, s => ((List.range (s.takeWhile inClass).length).reverse).map fun k ↦ ([], s.drop (k + 1))
  | opt p, s => ways p s ++ [([], s)]
  | seq p q, s => (ways p s).flatMap fun m ↦ (ways q m.2).map fun n ↦ (m.1 ++ n.1, n.2)
  | group p, s => (ways p s).map fun m ↦ (m.1 ++ [s.take (s.length - m.2.length)], m.2)

/-- The first way in which a pattern matches a beginning of a text. -/
def first (p : Pattern α) (s : List α) : Option (List (List α) × List α) := (p.ways inClass s).head?

/-- What is captured at the first place where a pattern matches. -/
def search (p : Pattern α) : List α → Option (List (List α))
  | [] => (p.first inClass []).map Prod.fst
  | c :: s => ((p.first inClass (c :: s)).map Prod.fst).or (search p s)

variable {inClass} {p q : Pattern α} {s tail : List α}

theorem ways_lit (t s : List α) :
    (lit t).ways inClass s = if t <+: s then [([], s.drop t.length)] else [] := rfl

theorem ways_run (s : List α) :
    run.ways inClass s = ((List.range (s.takeWhile inClass).length).reverse).map fun k ↦
      ([], s.drop (k + 1)) := rfl

theorem ways_opt (p : Pattern α) (s : List α) :
    (opt p).ways inClass s = p.ways inClass s ++ [([], s)] := rfl

theorem ways_seq (p q : Pattern α) (s : List α) :
    (seq p q).ways inClass s = (p.ways inClass s).flatMap fun m ↦
      (q.ways inClass m.2).map fun n ↦ (m.1 ++ n.1, n.2) := rfl

theorem ways_group (p : Pattern α) (s : List α) :
    (group p).ways inClass s = (p.ways inClass s).map fun m ↦
      (m.1 ++ [s.take (s.length - m.2.length)], m.2) := rfl

theorem first_eq (p : Pattern α) (s : List α) :
    p.first inClass s = (p.ways inClass s).head? := rfl

theorem search_nil (p : Pattern α) : p.search inClass [] = (p.first inClass []).map Prod.fst := rfl

theorem search_cons (p : Pattern α) (c : α) (s : List α) :
    p.search inClass (c :: s) =
      ((p.first inClass (c :: s)).map Prod.fst).or (p.search inClass s) := rfl

/-! ## Reading the parts of a text -/

theorem first_lit (t s : List α) : (lit t).first inClass (t ++ s) = some ([], s) := by
  rw [first_eq, ways_lit, if_pos (List.prefix_append t s), List.drop_left]
  rfl

theorem first_run (hne : s ≠ []) (hs : ∀ c ∈ s, inClass c = true)
    (htail : ∀ c, tail.head? = some c → inClass c = false) :
    run.first inClass (s ++ tail) = some ([], tail) := by
  have hstop : tail.takeWhile inClass = [] := by
    cases tail with
    | nil => rfl
    | cons c tail =>
      refine List.takeWhile_cons_of_neg ?_
      rw [htail c rfl]
      exact Bool.false_ne_true
  have hrun : (s ++ tail).takeWhile inClass = s := by
    rw [List.takeWhile_append_of_pos hs, hstop, List.append_nil]
  obtain ⟨n, hn⟩ := Nat.exists_eq_succ_of_ne_zero (List.length_pos_iff.mpr hne).ne'
  rw [first_eq, ways_run, hrun, hn, List.range_succ, List.reverse_append, List.reverse_singleton,
    List.singleton_append, List.map_cons, List.head?_cons, ← Nat.succ_eq_add_one, ← hn,
    List.drop_left]

theorem first_opt_of_some {m : List (List α) × List α} (h : p.first inClass s = some m) :
    (opt p).first inClass s = some m := by
  rw [first_eq, ways_opt, List.head?_append]
  rw [first_eq] at h
  rw [h]
  rfl

theorem first_opt_of_none (h : p.ways inClass s = []) :
    (opt p).first inClass s = some ([], s) := by
  rw [first_eq, ways_opt, h]
  rfl

theorem first_seq {m n : List (List α) × List α} (hp : p.first inClass s = some m)
    (hq : q.first inClass m.2 = some n) :
    (seq p q).first inClass s = some (m.1 ++ n.1, n.2) := by
  rw [first_eq] at hp hq
  obtain ⟨ps, hps⟩ := List.head?_eq_some_iff.mp hp
  obtain ⟨qs, hqs⟩ := List.head?_eq_some_iff.mp hq
  rw [first_eq, ways_seq, hps, List.flatMap_cons, hqs]
  rfl

theorem first_group {m : List (List α) × List α} (h : p.first inClass (s ++ tail) = some m)
    (hrest : m.2 = tail) : (group p).first inClass (s ++ tail) = some (m.1 ++ [s], tail) := by
  rw [first_eq] at h
  rw [first_eq, ways_group, List.head?_map, h, Option.map_some, hrest, List.length_append,
    Nat.add_sub_cancel_right, List.take_left]

/-! ## What a match needs -/

theorem suffix_of_mem_ways {m : List (List α) × List α} (h : m ∈ p.ways inClass s) :
    m.2 <:+ s := by
  induction p generalizing s m with
  | lit t =>
    rw [ways_lit] at h
    split at h
    · obtain rfl := List.mem_singleton.mp h
      exact List.drop_suffix _ _
    · cases h
  | run =>
    obtain ⟨k, -, rfl⟩ := List.mem_map.mp h
    exact List.drop_suffix _ _
  | opt p ih =>
    rcases List.mem_append.mp h with h | h
    · exact ih h
    · obtain rfl := List.mem_singleton.mp h
      exact List.suffix_rfl
  | seq p q ihp ihq =>
    obtain ⟨m', hm', h⟩ := List.mem_flatMap.mp h
    obtain ⟨n, hn, rfl⟩ := List.mem_map.mp h
    exact (ihq hn).trans (ihp hm')
  | group p ih =>
    obtain ⟨m', hm', rfl⟩ := List.mem_map.mp h
    have hsuffix : m'.2 <:+ s := ih hm'
    exact hsuffix

/-- A text in which a pattern matches contains a character. -/
def Needs (inClass : α → Bool) (p : Pattern α) (c : α) : Prop := ∀ s, c ∉ s → p.ways inClass s = []

theorem needs_lit {t : List α} {c : α} (h : c ∈ t) : (lit t).Needs inClass c := by
  intro s hs
  rw [ways_lit, if_neg]
  exact fun hfront ↦ hs (hfront.subset h)

theorem Needs.seq_left {c : α} (h : p.Needs inClass c) (q : Pattern α) :
    (seq p q).Needs inClass c := by
  intro s hs
  rw [ways_seq, h s hs]
  rfl

theorem Needs.seq_right {c : α} (h : q.Needs inClass c) (p : Pattern α) :
    (seq p q).Needs inClass c := by
  intro s hs
  rw [ways_seq, List.flatMap_eq_nil_iff]
  intro m hm
  rw [h m.2 fun hc ↦ hs ((suffix_of_mem_ways hm).subset hc)]
  rfl

theorem Needs.search_eq_none {c : α} (h : p.Needs inClass c) (hs : c ∉ s) :
    p.search inClass s = none := by
  induction s with
  | nil =>
    rw [search_nil, first_eq, h [] hs]
    rfl
  | cons a s ih =>
    rw [search_cons, first_eq, h (a :: s) hs, ih fun hc ↦ hs (List.mem_cons_of_mem _ hc)]
    rfl

/-! ## Matches that stay inside a part of the text -/

/-- A match that begins before some tail is one without the tail. -/
def Inside (inClass : α → Bool) (p : Pattern α) (tail : List α) : Prop :=
  ∀ s, p.ways inClass (s ++ tail) = (p.ways inClass s).map fun m ↦ (m.1, m.2 ++ tail)

/-- A literal of which no rest begins the tail. -/
theorem inside_lit {t : List α} (h : ∀ r, r <:+ t → r ≠ [] → ¬r <+: tail) :
    (lit t).Inside inClass tail := by
  intro s
  by_cases hs : t <+: s
  · rw [ways_lit, ways_lit, if_pos hs, if_pos (hs.trans (List.prefix_append s tail)),
      List.drop_append_of_le_length hs.length_le]
    rfl
  · have hlong : ¬t <+: s ++ tail := by
      rintro ⟨u, hu⟩
      rcases List.append_eq_append_iff.mp hu with ⟨r, rfl, -⟩ | ⟨r, rfl, hr⟩
      · exact hs (List.prefix_append t r)
      · by_cases hnil : r = []
        · exact hs (by rw [hnil, List.append_nil])
        · exact h r (List.suffix_append s r) hnil ⟨u, hr.symm⟩
    rw [ways_lit, ways_lit, if_neg hs, if_neg hlong]
    rfl

/-- A run, when the tail does not begin with a character of the class. -/
theorem inside_run (htail : ∀ c, tail.head? = some c → inClass c = false) :
    run.Inside inClass tail := by
  intro s
  have hstop : tail.takeWhile inClass = [] := by
    cases tail with
    | nil => rfl
    | cons c tail =>
      refine List.takeWhile_cons_of_neg ?_
      rw [htail c rfl]
      exact Bool.false_ne_true
  have hrun : (s ++ tail).takeWhile inClass = s.takeWhile inClass := by
    rw [List.takeWhile_append]
    split
    · next hall =>
      rw [hstop, List.append_nil]
      exact ((List.takeWhile_prefix inClass).eq_of_length hall).symm
    · rfl
  rw [ways_run, ways_run, hrun, List.map_map]
  refine List.map_congr_left fun k hk ↦ ?_
  have hlt : k < (s.takeWhile inClass).length := List.mem_range.mp (List.mem_reverse.mp hk)
  have hle : k + 1 ≤ s.length := hlt.trans_le (List.takeWhile_prefix inClass).length_le
  rw [List.drop_append_of_le_length hle]
  rfl

theorem Inside.opt (h : p.Inside inClass tail) : (opt p).Inside inClass tail := by
  intro s
  rw [ways_opt, ways_opt, h s, List.map_append]
  rfl

theorem Inside.seq (hp : p.Inside inClass tail) (hq : q.Inside inClass tail) :
    (seq p q).Inside inClass tail := by
  intro s
  rw [ways_seq, ways_seq, hp s, List.flatMap_map, List.map_flatMap]
  refine List.flatMap_congr fun m _ ↦ ?_
  rw [hq m.2, List.map_map, List.map_map]
  rfl

theorem Inside.group (h : p.Inside inClass tail) : (group p).Inside inClass tail := by
  intro s
  rw [ways_group, ways_group, h s, List.map_map, List.map_map]
  refine List.map_congr_left fun m _ ↦ ?_
  simp only [Function.comp_apply, List.length_append, Nat.add_sub_add_right,
    List.take_append_of_le_length (Nat.sub_le s.length m.2.length)]

theorem Inside.first (h : p.Inside inClass tail) (s : List α) :
    (p.first inClass (s ++ tail)).map Prod.fst = (p.first inClass s).map Prod.fst := by
  rw [first_eq, first_eq, h s, List.head?_map, Option.map_map]
  rfl

/-- A search goes through the parts of a text one after the other. -/
theorem search_append (h : p.Inside inClass tail) (s : List α) :
    p.search inClass (s ++ tail) = (p.search inClass s).or (p.search inClass tail) := by
  induction s with
  | nil =>
    rw [List.nil_append, search_nil, ← h.first]
    rw [List.nil_append]
    cases hfirst : (p.first inClass tail).map Prod.fst with
    | none => rfl
    | some groups =>
      cases tail with
      | nil => rw [search_nil, hfirst]; rfl
      | cons c tail => rw [search_cons, hfirst]; rfl
  | cons c s ih =>
    rw [List.cons_append, search_cons, search_cons, ih, ← List.cons_append, h.first, Option.or_assoc]

/-- A search passes over characters that no match begins with. -/
theorem search_append_of_no_start {pre : List α}
    (h : ∀ c ∈ pre, ∀ s, p.ways inClass (c :: s) = []) (s : List α) :
    p.search inClass (pre ++ s) = p.search inClass s := by
  induction pre with
  | nil => rfl
  | cons c pre ih =>
    rw [List.cons_append, search_cons, first_eq, h c List.mem_cons_self,
      ih fun c' hc' ↦ h c' (List.mem_cons_of_mem _ hc')]
    rfl

/-- The first place is where a pattern matches at once. -/
theorem search_of_first {m : List (List α) × List α} (h : p.first inClass s = some m) :
    p.search inClass s = some m.1 := by
  cases s with
  | nil => rw [search_nil, h, Option.map_some]
  | cons c s => rw [search_cons, h, Option.map_some, Option.some_or]

/-- A run does not begin with a character outside the class. -/
theorem ways_seq_run_of_not {c : α} (h : inClass c = false) (q : Pattern α) (s : List α) :
    (seq (group run) q).ways inClass (c :: s) = [] := by
  have hrun : run.ways inClass (c :: s) = [] := by
    rw [ways_run, List.takeWhile_cons_of_neg (by rw [h]; exact Bool.false_ne_true)]
    rfl
  rw [ways_seq, ways_group, hrun]
  rfl

end Pattern

end GreenCompute
