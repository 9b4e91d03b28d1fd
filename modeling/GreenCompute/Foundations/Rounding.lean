import Mathlib.Data.Rat.Floor

/-!
# Rounding half to even

The nearest integer to a rational, ties going to the even one. It is within one half of its
argument, fixes the integers, and is monotone; monotonicity is what carries a bound through a
rounding step.
-/

namespace GreenCompute

/-- The nearest integer, a tie going to the even neighbour. -/
def roundHalfEven (x : ℚ) : ℤ :=
  if x - ⌊x⌋ < 1 / 2 then ⌊x⌋
  else if 1 / 2 < x - ⌊x⌋ then ⌊x⌋ + 1
  else if ⌊x⌋ % 2 = 0 then ⌊x⌋
  else ⌊x⌋ + 1

/-- The two candidates, each with the half of the unit interval it is taken on. -/
theorem roundHalfEven_cases (x : ℚ) :
    (roundHalfEven x = ⌊x⌋ ∧ x - ⌊x⌋ ≤ 1 / 2) ∨
      (roundHalfEven x = ⌊x⌋ + 1 ∧ 1 / 2 ≤ x - ⌊x⌋) := by
  unfold roundHalfEven
  split
  · next h => exact .inl ⟨rfl, h.le⟩
  · next h =>
    split
    · next h' => exact .inr ⟨rfl, h'.le⟩
    · next h' =>
      split
      · exact .inl ⟨rfl, not_lt.mp h'⟩
      · exact .inr ⟨rfl, not_lt.mp h⟩

theorem abs_sub_roundHalfEven (x : ℚ) : |x - roundHalfEven x| ≤ 1 / 2 := by
  have hfloor := Int.floor_le x
  have hlt := Int.lt_floor_add_one x
  rw [abs_le]
  rcases roundHalfEven_cases x with ⟨h, hx⟩ | ⟨h, hx⟩
  · rw [h]
    constructor <;> linarith
  · rw [h]
    push_cast
    constructor <;> linarith

theorem roundHalfEven_le_add_half (x : ℚ) : (roundHalfEven x : ℚ) ≤ x + 1 / 2 := by
  have h := (abs_le.mp (abs_sub_roundHalfEven x)).1
  linarith

@[simp] theorem roundHalfEven_intCast (n : ℤ) : roundHalfEven n = n := by
  simp [roundHalfEven]

/-- Rounding respects order: on one unit interval because the rounding point is fixed, across
unit intervals because both candidates lie between the floors. -/
theorem roundHalfEven_mono {x y : ℚ} (h : x ≤ y) : roundHalfEven x ≤ roundHalfEven y := by
  rcases (Int.floor_le_floor h).lt_or_eq with hlt | heq
  · have hx : roundHalfEven x ≤ ⌊x⌋ + 1 := by
      rcases roundHalfEven_cases x with ⟨hx, -⟩ | ⟨hx, -⟩ <;> omega
    have hy : ⌊y⌋ ≤ roundHalfEven y := by
      rcases roundHalfEven_cases y with ⟨hy, -⟩ | ⟨hy, -⟩ <;> omega
    omega
  · unfold roundHalfEven
    rw [← heq]
    have hsub : x - ⌊x⌋ ≤ y - ⌊x⌋ := by linarith
    split_ifs <;> first | omega | (exfalso; linarith)

theorem roundHalfEven_nonneg {x : ℚ} (h : 0 ≤ x) : 0 ≤ roundHalfEven x := by
  have h0 : roundHalfEven ((0 : ℤ) : ℚ) ≤ roundHalfEven x :=
    roundHalfEven_mono (by simpa using h)
  rwa [roundHalfEven_intCast] at h0

end GreenCompute
