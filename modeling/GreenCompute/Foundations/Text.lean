import Mathlib.Data.Char
import Mathlib.Data.List.DropRight
import Mathlib.Data.List.Infix
import Mathlib.Data.List.Lex

/-!
# Text

Character strings as lists of characters, with the two normalisations that programs compare them
under: `strip` drops the blanks at both ends, `lower` maps ASCII capitals to small letters. The
two commute, which is what makes "trimmed and lower-cased" one notion whichever is done first.
-/

namespace GreenCompute

/-- A character string. -/
abbrev Text := List Char

instance : LawfulBEq Text := inferInstance

namespace Text

/-- The characters that stripping removes: ASCII white space and the Unicode separators. -/
def isBlank (c : Char) : Bool :=
  let n := c.toNat
  (9 ≤ n && n ≤ 13) || (28 ≤ n && n ≤ 32) || n == 0x85 || n == 0xa0 || n == 0x1680 ||
    (0x2000 ≤ n && n ≤ 0x200a) || n == 0x2028 || n == 0x2029 || n == 0x202f || n == 0x205f ||
    n == 0x3000

/-- Drop the blanks at both ends. -/
def strip (t : Text) : Text := (t.dropWhile isBlank).rdropWhile isBlank

/-- ASCII lower case. -/
def lower (t : Text) : Text := t.map Char.toLower

theorem toNat_toLower (c : Char) :
    c.toLower.toNat = if 65 ≤ c.toNat ∧ c.toNat ≤ 90 then c.toNat + 32 else c.toNat := by
  have hiff : (c.val ≥ 'A'.val ∧ c.val ≤ 'Z'.val) ↔ (65 ≤ c.toNat ∧ c.toNat ≤ 90) := Iff.rfl
  unfold Char.toLower
  split
  · next h =>
    rw [if_pos (hiff.mp h)]
    have h90 := (hiff.mp h).2
    change (c.val + 32).toNat = c.toNat + 32
    rw [UInt32.toNat_add]
    change (c.toNat + 32) % 4294967296 = c.toNat + 32
    omega
  · next h => rw [if_neg (hiff.not.mp h)]

@[simp] theorem isBlank_toLower (c : Char) : isBlank c.toLower = isBlank c := by
  unfold isBlank
  rw [toNat_toLower]
  split
  · next h =>
    obtain ⟨h65, h90⟩ := h
    rw [Bool.eq_iff_iff]
    simp only [Bool.or_eq_true, Bool.and_eq_true, decide_eq_true_eq, beq_iff_eq]
    omega
  · rfl

@[simp] theorem toLower_toLower (c : Char) : c.toLower.toLower = c.toLower := by
  apply Char.toNat_inj.mp
  rw [toNat_toLower, toNat_toLower]
  split_ifs <;> omega

@[simp] theorem lower_nil : lower [] = [] := rfl

@[simp] theorem lower_append (t u : Text) : lower (t ++ u) = lower t ++ lower u :=
  List.map_append

@[simp] theorem lower_lower (t : Text) : lower (lower t) = lower t := by
  simp [lower]

private theorem dropWhile_lower (t : Text) :
    (lower t).dropWhile isBlank = lower (t.dropWhile isBlank) := by
  induction t with
  | nil => rfl
  | cons c t ih =>
    by_cases h : isBlank c
    · simpa [lower, List.dropWhile_cons, h] using ih
    · simp [lower, h]

/-- Stripping and lower-casing commute. -/
theorem strip_lower (t : Text) : strip (lower t) = lower (strip t) := by
  rw [strip, dropWhile_lower, strip, List.rdropWhile, List.rdropWhile, lower, lower,
    ← List.map_reverse]
  exact (congrArg List.reverse (dropWhile_lower _)).trans List.map_reverse.symm

/-- A text without blanks at either end. -/
def Trimmed (t : Text) : Prop := strip t = t

instance (t : Text) : Decidable (Trimmed t) := inferInstanceAs (Decidable (_ = _))

/-- Whether a text is trimmed does not depend on its case. -/
theorem Trimmed.of_lower_eq {t u : Text} (ht : Trimmed t) (h : lower u = lower t) :
    lower (strip u) = lower u := by
  rw [← strip_lower, h, strip_lower, ht]

end Text

end GreenCompute
