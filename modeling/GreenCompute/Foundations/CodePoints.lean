import GreenCompute.Foundations.Text

/-!
# Strings as code points

A string of Python may hold any code points, those of halves of surrogate pairs included, so it is
a list of numbers here. Bytes are decoded as UTF-8, strictly. A part of a string between two of its
characters is found by the index of the first one and of the last one.
-/

namespace GreenCompute

/-- A string, character by character. -/
abbrev CodePoints := List ℕ

namespace CodePoints

/-- A string of the source. -/
def of (s : String) : CodePoints := s.toList.map Char.toNat

/-! ## UTF-8 -/

/-- What a byte after the first one of a character adds. -/
def continuation (b : UInt8) : Option ℕ :=
  if 0x80 ≤ b.toNat ∧ b.toNat < 0xc0 then some (b.toNat - 0x80) else none

/-- `bytes.decode()`: none where the bytes are not UTF-8. -/
def decodeUtf8 : List UInt8 → Option CodePoints
  | [] => some []
  | a :: s₁ =>
    if a.toNat < 0x80 then (decodeUtf8 s₁).map (a.toNat :: ·)
    else
      match s₁ with
      | [] => none
      | b :: s₂ =>
        if 0xc2 ≤ a.toNat ∧ a.toNat < 0xe0 then do
          let y ← continuation b
          let rest ← decodeUtf8 s₂
          pure (((a.toNat - 0xc0) * 0x40 + y) :: rest)
        else
          match s₂ with
          | [] => none
          | c :: s₃ =>
            if 0xe0 ≤ a.toNat ∧ a.toNat < 0xf0 then do
              let y ← continuation b
              let z ← continuation c
              let code := ((a.toNat - 0xe0) * 0x40 + y) * 0x40 + z
              -- No character is written longer than it needs, and none is half a pair.
              if code < 0x800 ∨ 0xd800 ≤ code ∧ code < 0xe000 then none
              let rest ← decodeUtf8 s₃
              pure (code :: rest)
            else
              match s₃ with
              | [] => none
              | d :: s₄ =>
                if 0xf0 ≤ a.toNat ∧ a.toNat < 0xf5 then do
                  let y ← continuation b
                  let z ← continuation c
                  let w ← continuation d
                  let code := (((a.toNat - 0xf0) * 0x40 + y) * 0x40 + z) * 0x40 + w
                  if code < 0x10000 ∨ 0x10ffff < code then none
                  let rest ← decodeUtf8 s₄
                  pure (code :: rest)
                else none

/-! ## Parts of a string -/

/-- `s.find(c)`, for one character. -/
def find (c : ℕ) (s : CodePoints) : Option ℕ := s.findIdx? (· = c)

/-- `s.rfind(c)`, for one character. -/
def rfind (c : ℕ) (s : CodePoints) : Option ℕ :=
  (s.reverse.findIdx? (· = c)).map (s.length - 1 - ·)

/-- `s[start:stop]` -/
def slice (start stop : ℕ) (s : CodePoints) : CodePoints := (s.take stop).drop start

/-- Drop the characters that meet a condition at both ends. -/
def stripOf (p : ℕ → Bool) (s : CodePoints) : CodePoints := (s.dropWhile p).rdropWhile p

/-- The white space that `strip()` drops. -/
def isBlank (c : ℕ) : Bool :=
  (9 ≤ c && c ≤ 13) || (28 ≤ c && c ≤ 32) || c == 0x85 || c == 0xa0 || c == 0x1680 ||
    (0x2000 ≤ c && c ≤ 0x200a) || c == 0x2028 || c == 0x2029 || c == 0x202f || c == 0x205f ||
    c == 0x3000

/-! ## A part between two characters -/

variable {p : ℕ → Bool} {a b : ℕ} {before s after : CodePoints}

theorem find_append_cons (h : ∀ c ∈ before, c ≠ a) :
    find a (before ++ a :: s) = some before.length := by
  induction before with
  | nil => simp [find, List.findIdx?_cons]
  | cons c before ih =>
    have hc : c ≠ a := h c List.mem_cons_self
    have hrest := ih fun d hd ↦ h d (List.mem_cons_of_mem _ hd)
    rw [find] at hrest ⊢
    rw [List.cons_append, List.findIdx?_cons, hrest]
    simp [hc]

theorem rfind_append_cons (h : ∀ c ∈ after, c ≠ b) :
    rfind b (s ++ b :: after) = some s.length := by
  have hreverse : (s ++ b :: after).reverse = after.reverse ++ b :: s.reverse := by simp
  have hfind : (after.reverse ++ b :: s.reverse).findIdx? (· = b) = some after.reverse.length :=
    find_append_cons fun c hc ↦ h c (List.mem_reverse.mp hc)
  rw [rfind, hreverse, hfind, Option.map_some, List.length_append, List.length_cons,
    List.length_reverse]
  congr 1
  omega

/-- The part from the first `a` to the last `b`. -/
theorem slice_between (hbefore : ∀ c ∈ before, c ≠ a) (hafter : ∀ c ∈ after, c ≠ b)
    (t : CodePoints) (ht : t = before ++ (a :: s ++ [b]) ++ after) :
    find a t = some before.length ∧ rfind b t = some (before.length + s.length + 1) ∧
      slice before.length (before.length + s.length + 2) t = a :: s ++ [b] := by
  have hfirst : t = before ++ a :: (s ++ b :: after) := by simp [ht]
  have hlast : t = (before ++ a :: s) ++ b :: after := by simp [ht]
  refine ⟨hfirst ▸ find_append_cons hbefore, ?_, ?_⟩
  · rw [hlast, rfind_append_cons hafter, List.length_append, List.length_cons, Nat.add_assoc]
  · have hlength : before.length + s.length + 2 = (before ++ (a :: s ++ [b])).length := by
      simp only [List.length_append, List.length_cons, List.length_nil]
      omega
    rw [slice, ht, hlength, List.take_left, List.drop_left]

/-- The part from the first `a` to the last `b` is one part only. -/
theorem eq_of_between {before' s' after' : CodePoints} (hbefore : ∀ c ∈ before, c ≠ a)
    (hbefore' : ∀ c ∈ before', c ≠ a) (hafter : ∀ c ∈ after, c ≠ b) (hafter' : ∀ c ∈ after', c ≠ b)
    (h : before ++ (a :: s ++ [b]) ++ after = before' ++ (a :: s' ++ [b]) ++ after') :
    before = before' ∧ after = after' := by
  obtain ⟨hfind, hrfind, -⟩ := slice_between hbefore hafter _ h.symm
  obtain ⟨hfind', hrfind', -⟩ := slice_between hbefore' hafter' _ rfl
  have hlength := Option.some.inj (hfind.symm.trans hfind')
  have hlast := Option.some.inj (hrfind.symm.trans hrfind')
  have hparts : (before ++ (a :: s ++ [b])).length = (before' ++ (a :: s' ++ [b])).length := by
    simp only [List.length_append, List.length_cons, List.length_nil]
    omega
  obtain ⟨hfirst, rfl⟩ := List.append_inj h hparts
  exact ⟨(List.append_inj hfirst hlength).1, rfl⟩

theorem dropWhile_append_of_not (ha : p a = false) (before s : CodePoints) :
    (before ++ a :: s).dropWhile p = before.dropWhile p ++ a :: s := by
  rw [List.dropWhile_append, List.dropWhile_cons_of_neg (by simp [ha])]
  split
  · next hempty => rw [List.isEmpty_iff.mp hempty, List.nil_append]
  · rfl

/-- What is stripped at the ends is not of a part between two characters that stay. -/
theorem stripOf_between (ha : p a = false) (hb : p b = false) (before s after : CodePoints) :
    stripOf p (before ++ (a :: s ++ [b]) ++ after) =
      before.dropWhile p ++ (a :: s ++ [b]) ++ after.rdropWhile p := by
  have hfirst : before ++ (a :: s ++ [b]) ++ after = before ++ a :: (s ++ b :: after) := by simp
  have hlast : (before.dropWhile p ++ a :: (s ++ b :: after)).reverse =
      after.reverse ++ b :: (before.dropWhile p ++ a :: s).reverse := by simp
  rw [stripOf, hfirst, dropWhile_append_of_not ha, List.rdropWhile, hlast,
    dropWhile_append_of_not hb, List.rdropWhile]
  simp

/-- What is left of a text does not meet the condition throughout. -/
theorem eq_nil_of_dropWhile (h : ∀ c ∈ before.dropWhile p, p c = true) :
    before.dropWhile p = [] := by
  rw [← List.dropWhile_idempotent]
  exact List.dropWhile_eq_nil_iff.mpr h

theorem eq_nil_of_rdropWhile (h : ∀ c ∈ after.rdropWhile p, p c = true) :
    after.rdropWhile p = [] := by
  rw [← List.rdropWhile_idempotent]
  exact List.rdropWhile_eq_nil_iff.mpr h

end CodePoints

end GreenCompute
