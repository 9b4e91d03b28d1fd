import Mathlib.Data.List.TakeWhile
import Mathlib.Data.Nat.Digits.Lemmas

/-!
# Numerals that keep their leading zeros

A string of digits in one base is rewritten in another base: its leading zeros are kept one by one,
and what follows them is the numeral of the same number. Between two bases this loses nothing:
rewriting back gives the string again (`Radix.change_change`).
-/

namespace GreenCompute

namespace Radix

variable {b c : ℕ}

/-- The number of a string of digits, the first of which counts most. -/
def value (b : ℕ) (ds : List ℕ) : ℕ := Nat.ofDigits b ds.reverse

/-- The numeral of a number, without leading zeros. -/
def numeral (b n : ℕ) : List ℕ := (Nat.digits b n).reverse

/-- How many zeros a string begins with. -/
def leading (ds : List ℕ) : ℕ := (ds.takeWhile fun d ↦ d = 0).length

/-- The string of digits in base `c` for one in base `b`. -/
def change (b c : ℕ) (ds : List ℕ) : List ℕ :=
  List.replicate (leading ds) 0 ++ numeral c (value b ds)

theorem foldl_eq_value (b : ℕ) (ds : List ℕ) : ds.foldl (fun n d ↦ n * b + d) 0 = value b ds := by
  have hfrom : ∀ n, ds.foldl (fun n d ↦ n * b + d) n = value b ds + b ^ ds.length * n := by
    induction ds with
    | nil => simp [value]
    | cons d ds ih =>
      intro n
      rw [List.foldl_cons, ih, value, value, List.reverse_cons, Nat.ofDigits_append,
        List.length_reverse, Nat.ofDigits_singleton, List.length_cons, pow_succ]
      ring
  rw [hfrom, Nat.mul_zero, Nat.add_zero]

/-- Leading zeros do not count. -/
theorem value_replicate_append (b k : ℕ) (ds : List ℕ) :
    value b (List.replicate k 0 ++ ds) = value b ds := by
  rw [value, List.reverse_append, List.reverse_replicate, Nat.ofDigits_append_replicate_zero, value]

theorem value_numeral (b n : ℕ) : value b (numeral b n) = n := by
  rw [value, numeral, List.reverse_reverse, Nat.ofDigits_digits]

theorem numeral_lt (hb : 1 < b) {n d : ℕ} (h : d ∈ numeral b n) : d < b :=
  Nat.digits_lt_base hb (List.mem_reverse.mp h)

/-- A numeral does not begin with a zero. -/
theorem head?_numeral (b n : ℕ) : (numeral b n).head? ≠ some 0 := by
  rw [numeral, List.head?_reverse]
  intro hlast
  have hn : n ≠ 0 := by
    rintro rfl
    rw [Nat.digits_zero] at hlast
    cases hlast
  rw [List.getLast?_eq_some_getLast (Nat.digits_ne_nil_iff_ne_zero.mpr hn)] at hlast
  exact Nat.getLast_digit_ne_zero b hn (Option.some.inj hlast)

/-- A string that does not begin with a zero is the numeral of its number. -/
theorem numeral_value (hb : 1 < b) {ds : List ℕ} (hlt : ∀ d ∈ ds, d < b)
    (hhead : ds.head? ≠ some 0) : numeral b (value b ds) = ds := by
  rw [numeral, value, Nat.digits_ofDigits b hb, List.reverse_reverse]
  · exact fun d hd ↦ hlt d (List.mem_reverse.mp hd)
  · intro hne hzero
    rw [List.getLast_reverse] at hzero
    exact hhead (hzero ▸ List.head?_eq_some_head _)

theorem leading_replicate_append (k : ℕ) {ds : List ℕ} (h : ds.head? ≠ some 0) :
    leading (List.replicate k 0 ++ ds) = k := by
  have hrest : ds.takeWhile (fun d ↦ d = 0) = [] := by
    cases ds with
    | nil => rfl
    | cons d ds =>
      exact List.takeWhile_cons_of_neg fun hd ↦ h (congrArg some (of_decide_eq_true hd))
  rw [leading, List.takeWhile_append_of_pos, hrest, List.append_nil, List.length_replicate]
  intro d hd
  exact decide_eq_true (List.eq_of_mem_replicate hd)

/-- Every string is some zeros and a numeral. -/
theorem eq_replicate_append (hb : 1 < b) {ds : List ℕ} (hlt : ∀ d ∈ ds, d < b) :
    ds = List.replicate (leading ds) 0 ++ numeral b (value b ds) := by
  have hzeros : ds.takeWhile (fun d ↦ d = 0) = List.replicate (leading ds) 0 := by
    refine List.eq_replicate_iff.mpr ⟨rfl, fun d hd ↦ ?_⟩
    have hzero : decide (d = 0) = true := List.mem_takeWhile_imp (p := fun d ↦ decide (d = 0)) hd
    exact of_decide_eq_true hzero
  have hsplit : ds = List.replicate (leading ds) 0 ++ ds.dropWhile fun d ↦ d = 0 := by
    rw [← hzeros, List.takeWhile_append_dropWhile]
  have hhead : (ds.dropWhile fun d ↦ d = 0).head? ≠ some 0 := by
    intro hzero
    have hnot := List.head?_dropWhile_not (fun d : ℕ ↦ decide (d = 0)) ds
    rw [hzero] at hnot
    cases hnot
  have hvalue : value b ds = value b (ds.dropWhile fun d ↦ d = 0) := by
    conv_lhs => rw [hsplit]
    exact value_replicate_append _ _ _
  rw [hvalue, numeral_value hb (fun d hd ↦ hlt d ((List.dropWhile_sublist _).subset hd)) hhead]
  exact hsplit

/-- Rewriting in another base and back gives the string again. -/
theorem change_change (hb : 1 < b) (c : ℕ) {ds : List ℕ} (hlt : ∀ d ∈ ds, d < b) :
    change c b (change b c ds) = ds := by
  have hleading : leading (change b c ds) = leading ds :=
    leading_replicate_append _ (head?_numeral c _)
  have hvalue : value c (change b c ds) = value b ds := by
    rw [change, value_replicate_append, value_numeral]
  rw [change, hleading, hvalue]
  exact (eq_replicate_append hb hlt).symm

theorem change_lt (hc : 1 < c) {ds : List ℕ} {d : ℕ} (h : d ∈ change b c ds) : d < c := by
  rcases List.mem_append.mp h with h | h
  · rw [List.eq_of_mem_replicate h]
    exact zero_lt_one.trans hc
  · exact numeral_lt hc h

end Radix

end GreenCompute
