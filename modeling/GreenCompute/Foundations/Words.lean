import GreenCompute.Foundations.Text

/-!
# Words

A text is split into words at some characters, which are blanks, or whatever a word cannot have.
Split at the blanks, words that are joined by blanks are the words again; and the words one after
the other are what is left of a text when the characters between them are dropped.
-/

namespace GreenCompute

namespace Text

/-- The words of a text, between characters that separate words. -/
def words (separates : Char → Bool) (t : Text) : List Text :=
  (t.splitOnP separates).filter fun w ↦ !w.isEmpty

/-- `" ".join` -/
def unwords (ws : List Text) : Text := List.intercalate [' '] ws

variable {separates : Char → Bool} {t w : Text} {ws : List Text}

@[simp] theorem words_nil : words separates [] = [] := rfl

/-- A text is split at a separator. -/
theorem words_append_separator {c : Char} (h : separates c = true) (t u : Text) :
    words separates (t ++ c :: u) = words separates t ++ words separates u := by
  rw [words, List.splitOnP_append_cons t u h, List.filter_append, words, words]

theorem words_of_unseparated (hw : ∀ c ∈ w, separates c = false) :
    words separates w = if w.isEmpty then [] else [w] := by
  rw [words, List.splitOnP_eq_singleton hw]
  cases w <;> rfl

/-- Every text begins with a word, possibly empty, that ends it or that a separator follows. -/
theorem exists_word (separates : Char → Bool) (t : Text) : ∃ w, (∀ d ∈ w, separates d = false) ∧
    (t = w ∨ ∃ c rest, separates c = true ∧ t = w ++ c :: rest) := by
  induction t with
  | nil => exact ⟨[], nofun, .inl rfl⟩
  | cons c t ih =>
    by_cases hc : separates c = true
    · exact ⟨[], nofun, .inr ⟨c, t, hc, rfl⟩⟩
    · obtain ⟨w, hw, hrest⟩ := ih
      refine ⟨c :: w, fun d hd ↦ ?_, ?_⟩
      · rcases List.mem_cons.mp hd with rfl | hd
        · exact Bool.eq_false_iff.mpr hc
        · exact hw d hd
      · rcases hrest with rfl | ⟨e, rest, he, rfl⟩
        · exact .inl rfl
        · exact .inr ⟨e, rest, he, rfl⟩

/-- The words one after the other are the text without the characters between them. -/
theorem flatten_words (separates : Char → Bool) (t : Text) :
    (words separates t).flatten = t.filter fun c ↦ !separates c := by
  induction hn : t.length using Nat.strong_induction_on generalizing t with
  | _ n ih =>
    obtain ⟨w, hw, hrest⟩ := exists_word separates t
    have hkept : w.filter (fun c ↦ !separates c) = w :=
      List.filter_eq_self.mpr fun c hc ↦ by rw [hw c hc]; rfl
    have hflat : (if w.isEmpty then ([] : List Text) else [w]).flatten = w := by
      cases w <;> simp
    rcases hrest with rfl | ⟨c, rest, hc, rfl⟩
    · rw [words_of_unseparated hw, hkept, hflat]
    · have hlength : rest.length < n := by
        rw [← hn, List.length_append, List.length_cons]
        omega
      rw [words_append_separator hc, words_of_unseparated hw, List.flatten_append, hflat,
        ih _ hlength rest rfl, List.filter_append, hkept, List.filter_cons_of_neg (by simp [hc])]

/-- A word has no separator in it, and is not empty. -/
theorem word_of_mem_words (h : w ∈ words separates t) :
    w ≠ [] ∧ ∀ c ∈ w, separates c = false := by
  refine ⟨?_, fun c hc ↦ ?_⟩
  · have hne := (List.mem_filter.mp h).2
    rintro rfl
    simp at hne
  · have hmem : c ∈ t.filter fun c ↦ !separates c := by
      rw [← flatten_words]
      exact List.mem_flatten.mpr ⟨w, h, hc⟩
    simpa using (List.mem_filter.mp hmem).2

/-- The characters that separate words have none. -/
theorem words_of_separated (h : ∀ c ∈ t, separates c = true) : words separates t = [] := by
  induction t with
  | nil => rfl
  | cons c t ih =>
    have hsplit := words_append_separator (h c List.mem_cons_self) [] t
    rw [List.nil_append] at hsplit
    rw [hsplit, ih fun d hd ↦ h d (List.mem_cons_of_mem _ hd)]
    rfl

theorem words_append_separated {u : Text} (h : ∀ c ∈ u, separates c = true) (t : Text) :
    words separates (t ++ u) = words separates t := by
  cases u with
  | nil => rw [List.append_nil]
  | cons c u =>
    rw [words_append_separator (h c List.mem_cons_self),
      words_of_separated fun d hd ↦ h d (List.mem_cons_of_mem _ hd), List.append_nil]

theorem words_separated_append {u : Text} (h : ∀ c ∈ u, separates c = true) (t : Text) :
    words separates (u ++ t) = words separates t := by
  induction u with
  | nil => rfl
  | cons c u ih =>
    have hsplit := words_append_separator (h c List.mem_cons_self) [] (u ++ t)
    rw [List.nil_append] at hsplit
    rw [List.cons_append, hsplit, ih fun d hd ↦ h d (List.mem_cons_of_mem _ hd)]
    rfl

/-- The blanks at the ends of a text are in no word. -/
theorem words_strip (t : Text) : words isBlank (strip t) = words isBlank t := by
  let u := t.dropWhile isBlank
  have hu : t = t.takeWhile isBlank ++ u := List.takeWhile_append_dropWhile.symm
  have hstrip : strip t ++ u.rtakeWhile isBlank = u := List.rdropWhile_append_rtakeWhile ..
  calc words isBlank (strip t) = words isBlank (strip t ++ u.rtakeWhile isBlank) :=
        (words_append_separated (fun _ ↦ List.mem_rtakeWhile_imp) _).symm
    _ = words isBlank (t.takeWhile isBlank ++ u) := by
        rw [hstrip, words_separated_append fun _ ↦ List.mem_takeWhile_imp]
    _ = words isBlank t := by rw [← hu]

/-- Words that are joined by blanks are the words of the text that they make. -/
theorem words_unwords (hblank : separates ' ' = true)
    (hws : ∀ w ∈ ws, w ≠ [] ∧ ∀ c ∈ w, separates c = false) :
    words separates (unwords ws) = ws := by
  induction ws with
  | nil => rfl
  | cons w ws ih =>
    have hw := hws w List.mem_cons_self
    have hrest := ih fun w' hw' ↦ hws w' (List.mem_cons_of_mem _ hw')
    have hword : words separates w = [w] := by
      rw [words_of_unseparated hw.2, if_neg (by simp [hw.1])]
    cases ws with
    | nil =>
      have hjoin : unwords [w] = w := by simp [unwords, List.intercalate]
      rw [hjoin, hword]
    | cons v ws =>
      have hjoin : unwords (w :: v :: ws) = w ++ ' ' :: unwords (v :: ws) := by
        simp [unwords, List.intercalate]
      rw [hjoin, words_append_separator hblank, hword, hrest]
      rfl

end Text

end GreenCompute
