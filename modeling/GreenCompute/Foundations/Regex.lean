import GreenCompute.Foundations.Text

/-!
# Regular expressions

Regular expressions over classes of characters, with the edges of words, alternatives, and one text
that is captured, as a backtracking matcher reads them: the ways in which an expression matches at a
place come in the order in which they are tried, and a search takes the first way at the first place
that has one. A place is what is left of the text, and the character before it.

What is captured can be told from the expression alone: it has the property of every text that the
captured part matches (`captured_of_search`).
-/

namespace GreenCompute

/-- A regular expression: the empty one, a character of a class, a run of characters of a class, the
edge of a word, alternatives, one after another, and one whose text is captured. -/
inductive Regex where
  | empty
  | char (p : Char → Bool)
  | many (p : Char → Bool)
  | boundary
  | alt (r s : Regex)
  | seq (r s : Regex)
  | group (r : Regex)

namespace Regex

/-- A place in a text. -/
structure Place where
  before : Option Char
  rest : Text

/-- The characters one after another. -/
def lit (t : Text) : Regex := t.foldr (fun c r ↦ seq (char (· = c)) r) empty

def opt (r : Regex) : Regex := alt r empty

/-- Alternatives, the first of which are tried first. -/
def choice (r : Regex) (rs : List Regex) : Regex := rs.foldl alt r

section

variable (isWord : Char → Bool)

/-- The character on one side of a place is one of a word. -/
def inWord (c : Option Char) : Bool := c.any isWord

/-- The places that a run of characters leads to, the farthest first. -/
def run (p : Char → Bool) : Option Char → Text → List Place
  | b, [] => [⟨b, []⟩]
  | b, c :: s => if p c then run p (some c) s ++ [⟨b, c :: s⟩] else [⟨b, c :: s⟩]

/-- The ways in which an expression matches at a place: what is captured, and the place after. -/
def ways : Regex → Place → List (Option Text × Place)
  | empty, m => [(none, m)]
  | char p, m =>
    match m.rest with
    | [] => []
    | c :: s => if p c then [(none, ⟨some c, s⟩)] else []
  | many p, m => (run p m.before m.rest).map fun n ↦ (none, n)
  | boundary, m =>
    if inWord isWord m.before ≠ inWord isWord m.rest.head? then [(none, m)] else []
  | alt r s, m => ways r m ++ ways s m
  | seq r s, m => (ways r m).flatMap fun a ↦ (ways s a.2).map fun b ↦ (a.1.or b.1, b.2)
  | group r, m =>
    (ways r m).map fun a ↦ (some (m.rest.take (m.rest.length - a.2.rest.length)), a.2)

/-- The first way at the first place that has one. -/
def searchFrom (r : Regex) : Option Char → Text → Option (Option Text × Place)
  | b, [] => (r.ways isWord ⟨b, []⟩).head?
  | b, c :: s => (r.ways isWord ⟨b, c :: s⟩).head?.or (searchFrom r (some c) s)

/-- `re.search`, of which all that is asked is whether there is a match. -/
def found (r : Regex) (t : Text) : Bool := (r.searchFrom isWord none t).isSome

/-- `re.search(…).group(1)`, where there is a match. -/
def captured (r : Regex) (t : Text) : Option Text := (r.searchFrom isWord none t).bind Prod.fst

/-- `re.sub`, after some characters that are part of a match. -/
def subFrom (r : Regex) (new : Text) : ℕ → Option Char → Text → Text
  | _, _, [] => []
  | n + 1, _, c :: s => subFrom r new n (some c) s
  | 0, b, c :: s =>
    match (r.ways isWord ⟨b, c :: s⟩).head? with
    | some (_, m) => new ++ subFrom r new (s.length - m.rest.length) (some c) s
    | none => c :: subFrom r new 0 (some c) s

/-- `re.sub`, of an expression that no empty text matches. -/
def sub (r : Regex) (new t : Text) : Text := r.subFrom isWord new 0 none t

end

variable {isWord : Char → Bool} {p : Char → Bool} {r s : Regex} {m : Place}

/-! ## What is matched -/

/-- Every text that the expression matches has its characters in a class. -/
def Only (p : Char → Bool) : Regex → Prop
  | empty | boundary => True
  | char q | many q => ∀ c, q c = true → p c = true
  | alt r s | seq r s => Only p r ∧ Only p s
  | group r => Only p r

theorem exists_of_mem_run {b : Option Char} {t : Text} {n : Place} {q : Char → Bool}
    (h : n ∈ run q b t) : ∃ u, t = u ++ n.rest ∧ ∀ c ∈ u, q c = true := by
  induction t generalizing b with
  | nil =>
    obtain rfl := List.mem_singleton.mp h
    exact ⟨[], rfl, nofun⟩
  | cons c t ih =>
    rw [run] at h
    split at h
    · next hc =>
      rcases List.mem_append.mp h with h | h
      · obtain ⟨u, rfl, hu⟩ := ih h
        refine ⟨c :: u, rfl, fun d hd ↦ ?_⟩
        rcases List.mem_cons.mp hd with rfl | hd
        · exact hc
        · exact hu d hd
      · obtain rfl := List.mem_singleton.mp h
        exact ⟨[], rfl, nofun⟩
    · obtain rfl := List.mem_singleton.mp h
      exact ⟨[], rfl, nofun⟩

/-- A match takes a beginning of what is left, of characters of the class. -/
theorem exists_of_mem_ways {a : Option Text × Place} (honly : r.Only p)
    (h : a ∈ r.ways isWord m) : ∃ u, m.rest = u ++ a.2.rest ∧ ∀ c ∈ u, p c = true := by
  induction r generalizing m a with
  | empty =>
    obtain rfl := List.mem_singleton.mp h
    exact ⟨[], rfl, nofun⟩
  | char q =>
    obtain ⟨b, t⟩ := m
    cases t with
    | nil => cases h
    | cons c t =>
      rw [ways] at h
      dsimp only at h
      split at h
      · next hc =>
        obtain rfl := List.mem_singleton.mp h
        exact ⟨[c], rfl, fun d hd ↦ List.mem_singleton.mp hd ▸ honly c hc⟩
      · cases h
  | many q =>
    obtain ⟨n, hn, rfl⟩ := List.mem_map.mp h
    obtain ⟨u, hu, hclass⟩ := exists_of_mem_run hn
    exact ⟨u, hu, fun c hc ↦ honly c (hclass c hc)⟩
  | boundary =>
    rw [ways] at h
    split at h
    · obtain rfl := List.mem_singleton.mp h
      exact ⟨[], rfl, nofun⟩
    · cases h
  | alt r s ihr ihs =>
    rcases List.mem_append.mp h with h | h
    · exact ihr honly.1 h
    · exact ihs honly.2 h
  | seq r s ihr ihs =>
    obtain ⟨a', ha', h⟩ := List.mem_flatMap.mp h
    obtain ⟨b, hb, rfl⟩ := List.mem_map.mp h
    obtain ⟨u, hu, hclass⟩ := ihr honly.1 ha'
    obtain ⟨v, hv, hclass'⟩ := ihs honly.2 hb
    refine ⟨u ++ v, by rw [hu, hv, List.append_assoc], fun c hc ↦ ?_⟩
    rcases List.mem_append.mp hc with hc | hc
    · exact hclass c hc
    · exact hclass' c hc
  | group r ih =>
    obtain ⟨a', ha', rfl⟩ := List.mem_map.mp h
    obtain ⟨u, hu, hclass⟩ := ih honly ha'
    exact ⟨u, hu, hclass⟩

theorem only_any (r : Regex) : r.Only fun _ ↦ true := by
  induction r with
  | empty | boundary => trivial
  | char q | many q => exact fun _ _ ↦ rfl
  | alt r s ihr ihs | seq r s ihr ihs => exact ⟨ihr, ihs⟩
  | group r ih => exact ih

/-! ## What is captured -/

/-- Every text that is captured has a property. -/
def Captures (isWord : Char → Bool) (P : Text → Prop) : Regex → Prop
  | empty | boundary | char _ | many _ => True
  | alt r s | seq r s => Captures isWord P r ∧ Captures isWord P s
  | group r => ∀ m u, ∀ a ∈ ways isWord r m, m.rest = u ++ a.2.rest → P u

variable {P : Text → Prop}

theorem captures_lit (t : Text) : (lit t).Captures isWord P := by
  induction t with
  | nil => trivial
  | cons c t ih => exact ⟨trivial, ih⟩

theorem captured_of_mem_ways {a : Option Text × Place} {t : Text} (hcaptures : r.Captures isWord P)
    (h : a ∈ r.ways isWord m) (ht : a.1 = some t) : P t := by
  induction r generalizing m a with
  | empty =>
    obtain rfl := List.mem_singleton.mp h
    cases ht
  | char q =>
    rw [ways] at h
    split at h
    · cases h
    · split at h
      · obtain rfl := List.mem_singleton.mp h
        cases ht
      · cases h
  | many q =>
    obtain ⟨n, -, rfl⟩ := List.mem_map.mp h
    cases ht
  | boundary =>
    rw [ways] at h
    split at h
    · obtain rfl := List.mem_singleton.mp h
      cases ht
    · cases h
  | alt r s ihr ihs =>
    rcases List.mem_append.mp h with h | h
    · exact ihr hcaptures.1 h ht
    · exact ihs hcaptures.2 h ht
  | seq r s ihr ihs =>
    obtain ⟨a', ha', h⟩ := List.mem_flatMap.mp h
    obtain ⟨b, hb, rfl⟩ := List.mem_map.mp h
    dsimp only at ht
    rcases Option.or_eq_some_iff.mp ht with ht | ⟨-, ht⟩
    · exact ihr hcaptures.1 ha' ht
    · exact ihs hcaptures.2 hb ht
  | group r ih =>
    obtain ⟨a', ha', rfl⟩ := List.mem_map.mp h
    obtain ⟨u, hu, -⟩ := exists_of_mem_ways (only_any r) ha'
    obtain rfl := Option.some.inj ht
    refine hcaptures m _ a' ha' ?_
    rw [hu, List.length_append, Nat.add_sub_cancel_right, List.take_left]

/-- What a search captures has the property. -/
theorem captured_of_search {t u : Text} (hcaptures : r.Captures isWord P)
    (h : r.captured isWord t = some u) : P u := by
  obtain ⟨a, ha, hu⟩ := Option.bind_eq_some_iff.mp h
  clear h
  generalize none = b at ha
  induction t generalizing b with
  | nil => exact captured_of_mem_ways hcaptures (List.mem_of_head? ha) hu
  | cons c t ih =>
    rcases Option.or_eq_some_iff.mp ha with ha | ⟨-, ha⟩
    · exact captured_of_mem_ways hcaptures (List.mem_of_head? ha) hu
    · exact ih _ ha

/-- A group that begins with a character captures some, and nothing outside the class. -/
theorem captures_group {q : Char → Bool} (hq : ∀ c, q c = true → p c = true) (hr : r.Only p) :
    (group (seq (char q) r)).Captures isWord fun t ↦ t ≠ [] ∧ ∀ c ∈ t, p c = true := by
  intro m u a ha hu
  have honly : (seq (char q) r).Only p := ⟨hq, hr⟩
  obtain ⟨v, hv, hclass⟩ := exists_of_mem_ways honly ha
  obtain rfl : u = v := List.append_cancel_right (hu.symm.trans hv)
  refine ⟨?_, hclass⟩
  rintro rfl
  obtain ⟨a', ha', h⟩ := List.mem_flatMap.mp ha
  obtain ⟨b, hb, rfl⟩ := List.mem_map.mp h
  obtain ⟨w, hw, -⟩ := exists_of_mem_ways (only_any r) hb
  have hlength := congrArg List.length hu
  obtain ⟨before, t⟩ := m
  cases t with
  | nil => cases ha'
  | cons c t =>
    rw [ways] at ha'
    dsimp only at ha'
    split at ha'
    · obtain rfl := List.mem_singleton.mp ha'
      dsimp only at hw hlength
      rw [hw] at hlength
      simp only [List.length_cons, List.length_append, List.nil_append] at hlength
      omega
    · cases ha'

end Regex

end GreenCompute
