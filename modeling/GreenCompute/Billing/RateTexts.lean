import GreenCompute.Billing.Statements
import GreenCompute.Foundations.Pattern
import GreenCompute.Foundations.Radix
import GreenCompute.Foundations.Rounding

/-!
# The rate on a charge

The meter writes the number of GPUs and the hourly rate into the text of each charge, and a statement
reads them back with a search for either of two patterns. The text of a rental has nothing else in it.
The text of a private model begins with a name that its owner chose, and the search comes to the name
first: the rate reads back exactly when the name does not read as a rate itself, or as the same
(`rate_reads_back_iff`).
-/

namespace GreenCompute

open Pattern

/-! ## Numbers in texts -/

/-- The zeros of the decimal digits in Unicode; each is followed by the digits up to nine. -/
def decimalZeros : List ℕ :=
  [0x30, 0x660, 0x6f0, 0x7c0, 0x966, 0x9e6, 0xa66, 0xae6, 0xb66, 0xbe6, 0xc66, 0xce6, 0xd66, 0xde6,
    0xe50, 0xed0, 0xf20, 0x1040, 0x1090, 0x17e0, 0x1810, 0x1946, 0x19d0, 0x1a80, 0x1a90, 0x1b50,
    0x1bb0, 0x1c40, 0x1c50, 0xa620, 0xa8d0, 0xa900, 0xa9d0, 0xa9f0, 0xaa50, 0xabf0, 0xff10, 0x104a0,
    0x10d30, 0x11066, 0x110f0, 0x11136, 0x111d0, 0x112f0, 0x11450, 0x114d0, 0x11650, 0x116c0,
    0x11730, 0x118e0, 0x11950, 0x11c50, 0x11d50, 0x11da0, 0x11f50, 0x16a60, 0x16ac0, 0x16b50,
    0x1d7ce, 0x1d7d8, 0x1d7e2, 0x1d7ec, 0x1d7f6, 0x1e140, 0x1e2f0, 0x1e4f0, 0x1e950, 0x1fbf0]

/-- The value of a decimal digit. -/
def digitValue (c : Char) : Option ℕ :=
  (decimalZeros.find? fun z ↦ z ≤ c.toNat ∧ c.toNat ≤ z + 9).map (c.toNat - ·)

/-- The class of digits. -/
def isDecimal (c : Char) : Bool := (digitValue c).isSome

/-- `int` of some digits. -/
def intOf (t : Text) : ℕ := Radix.value 10 (t.map fun c ↦ (digitValue c).getD 0)

/-- `float` of some digits, with a point among them or without. -/
def floatOf (t : Text) : ℚ :=
  let fraction := (t.dropWhile (· ≠ '.')).drop 1
  intOf (t.takeWhile (· ≠ '.')) + intOf fraction / 10 ^ fraction.length

/-- A number, as it is printed. -/
def numberText (n : ℕ) : Text := if n = 0 then ['0'] else (Radix.numeral 10 n).map Nat.digitChar

/-- An amount in dollars, as it is printed with two places. -/
def priceText (cents : ℕ) : Text :=
  numberText (cents / 100) ++
    ['.', Nat.digitChar (cents % 100 / 10), Nat.digitChar (cents % 100 % 10)]

/-! ## The texts of charges -/

/-- `rental_charge_description` -/
def rentalChargeDescription (gpuCount hourlyCents : ℕ) : Text :=
  "GPU usage ".toList ++ numberText gpuCount ++ "× GPU @ $".toList ++ priceText hourlyCents ++
    "/hr".toList

/-- What a workload is called. -/
structure WorkloadNames where
  displayName : Option Text
  modelIdentifier : Option Text
  name : Text

/-- The name on a charge of a private model. -/
def chargeName (workload : Option WorkloadNames) : Text :=
  let name : Option Text := workload.map fun w ↦
    let last := (w.modelIdentifier.filter (· ≠ [])).map fun id ↦
      (id.reverse.takeWhile (· ≠ '/')).reverse
    ((w.displayName.filter (· ≠ [])).or (last.filter (· ≠ []))).getD w.name
  (name.filter (· ≠ [])).getD "deployment".toList

/-- `_private_model_charge_description` -/
def privateModelChargeDescription (workload : Option WorkloadNames) (gpuCount hourlyCents : ℕ) :
    Text :=
  let gpus := if gpuCount = 1 then "1 GPU".toList else numberText gpuCount ++ " GPUs".toList
  let each := if gpuCount = 1 then [] else " each".toList
  "Private model ".toList ++ chargeName workload ++ " · ".toList ++ gpus ++ " at $".toList ++
    priceText hourlyCents ++ "/hr".toList ++ each

/-! ## Reading the rate -/

/-- An amount with or without places. -/
def amount : Pattern Char := seq run (opt (seq (lit ['.']) run))

/-- `_RENTAL_RATE` -/
def rentalRate : Pattern Char :=
  seq (group run) (seq (lit "× GPU @ $".toList) (seq (group amount) (lit "/hr".toList)))

/-- `_MODEL_RATE` -/
def modelRate : Pattern Char :=
  seq (group run) (seq (lit " GPU".toList) (seq (opt (lit ['s']))
    (seq (lit " at $".toList) (seq (group amount) (lit "/hr".toList)))))

/-- What a text captures as its rate. -/
def capturedRate (description : Text) : Option (List Text) :=
  (rentalRate.search isDecimal description).or (modelRate.search isDecimal description)

/-- The rate in what was captured. -/
def rateOf (groups : List Text) : ℤ :=
  intOf (groups.getD 0 []) * roundHalfEven (floatOf (groups.getD 1 []) * 100)

/-- `cents_per_hour` -/
def centsPerHour (description : Text) : Option ℤ := (capturedRate description).map rateOf

/-! ## Printed numbers -/

theorem digitValue_digitChar {d : ℕ} (h : d < 10) : digitValue (Nat.digitChar d) = some d := by
  revert d
  decide

theorem digitChar_ne_point {d : ℕ} (h : d < 10) : Nat.digitChar d ≠ '.' := by
  revert d
  decide

theorem numberText_ne_nil (n : ℕ) : numberText n ≠ [] := by
  rw [numberText]
  split
  · exact List.cons_ne_nil _ _
  · next hn =>
    rw [Radix.numeral, Ne, List.map_eq_nil_iff, List.reverse_eq_nil_iff]
    exact Nat.digits_ne_nil_iff_ne_zero.mpr hn

/-- The characters of a printed number are its digits. -/
theorem exists_digit_of_mem {n : ℕ} {c : Char} (h : c ∈ numberText n) :
    ∃ d, d < 10 ∧ c = Nat.digitChar d := by
  rw [numberText] at h
  split at h
  · exact ⟨0, by decide, List.mem_singleton.mp h⟩
  · obtain ⟨d, hd, rfl⟩ := List.mem_map.mp h
    exact ⟨d, Radix.numeral_lt (by decide) hd, rfl⟩

theorem isDecimal_of_mem {n : ℕ} {c : Char} (h : c ∈ numberText n) : isDecimal c = true := by
  obtain ⟨d, hd, rfl⟩ := exists_digit_of_mem h
  rw [isDecimal, digitValue_digitChar hd]
  rfl

/-- A printed number reads back. -/
theorem intOf_numberText (n : ℕ) : intOf (numberText n) = n := by
  rw [numberText]
  split
  · next hn =>
    rw [hn]
    decide
  · have hdigits : (Radix.numeral 10 n).map (fun d ↦ (digitValue (Nat.digitChar d)).getD 0) =
        Radix.numeral 10 n := by
      conv_rhs => rw [← List.map_id (Radix.numeral 10 n)]
      refine List.map_congr_left fun d hd ↦ ?_
      rw [digitValue_digitChar (Radix.numeral_lt (by decide) hd)]
      rfl
    rw [intOf, List.map_map]
    exact (congrArg _ hdigits).trans (Radix.value_numeral 10 n)

/-- A printed amount reads back. -/
theorem roundHalfEven_floatOf_priceText (cents : ℕ) :
    roundHalfEven (floatOf (priceText cents) * 100) = cents := by
  have hwhole : ∀ c ∈ numberText (cents / 100), decide (c ≠ '.') = true := by
    intro c hc
    obtain ⟨d, hd, rfl⟩ := exists_digit_of_mem hc
    exact decide_eq_true (digitChar_ne_point hd)
  have htens : cents % 100 / 10 < 10 := by omega
  have hunits : cents % 100 % 10 < 10 := by omega
  have hfraction : intOf [Nat.digitChar (cents % 100 / 10), Nat.digitChar (cents % 100 % 10)] =
      cents % 100 := by
    rw [intOf, ← Radix.foldl_eq_value, List.map_cons, List.map_cons, List.map_nil,
      digitValue_digitChar htens, digitValue_digitChar hunits]
    change (0 * 10 + cents % 100 / 10) * 10 + cents % 100 % 10 = _
    omega
  have hfloat : floatOf (priceText cents) = (cents : ℚ) / 100 := by
    rw [floatOf, priceText, List.takeWhile_append_of_pos hwhole, List.dropWhile_append_of_pos hwhole]
    change (intOf (numberText (cents / 100) ++ []) : ℚ) +
      intOf [Nat.digitChar (cents % 100 / 10), Nat.digitChar (cents % 100 % 10)] / 10 ^ 2 = _
    have hsplit : (cents : ℚ) = 100 * (cents / 100 : ℕ) + (cents % 100 : ℕ) := by
      exact_mod_cast (Nat.div_add_mod cents 100).symm
    rw [List.append_nil, intOf_numberText, hfraction, hsplit]
    ring
  rw [hfloat, div_mul_cancel₀ _ (by norm_num)]
  exact roundHalfEven_intCast cents

/-! ## Where the rate is found -/

/-- The characters around the numbers. -/
def chargeLetters : Text :=
  ['G', 'P', 'U', ' ', 'u', 's', 'a', 'g', 'e', 'r', 'i', 'v', 't', 'm', 'o', 'd', 'l', '×', '$',
  '@', '/', 'h', '·', '.', 'c']

/-- They are no digits. -/
theorem isDecimal_eq_false_of_mem {c : Char} (h : c ∈ chargeLetters) :
    isDecimal c = false := by
  have hall : (chargeLetters.all fun c ↦ !isDecimal c) = true := by decide
  simpa using List.all_eq_true.mp hall c h

/-- A text that begins with something else than a digit. -/
theorem head_of_literal {t : Text} (h : t.head?.any (fun c ↦ isDecimal c = false) = true)
    (tail : Text) : ∀ c, (t ++ tail).head? = some c → isDecimal c = false := by
  cases t with
  | nil => cases h
  | cons c t =>
    intro c' hc'
    obtain rfl := Option.some.inj hc'
    exact of_decide_eq_true h

/-- A printed number before something that is no digit. -/
theorem first_number (n : ℕ) {tail : Text}
    (htail : ∀ c, tail.head? = some c → isDecimal c = false) :
    (group run).first isDecimal (numberText n ++ tail) = some ([numberText n], tail) :=
  first_group (first_run (numberText_ne_nil n) (fun _ hc ↦ isDecimal_of_mem hc) htail) rfl

/-- A printed amount before something that is no digit. -/
theorem first_price (cents : ℕ) {tail : Text}
    (htail : ∀ c, tail.head? = some c → isDecimal c = false) :
    (group amount).first isDecimal (priceText cents ++ tail) = some ([priceText cents], tail) := by
  have hplaces : ∀ c ∈ [Nat.digitChar (cents % 100 / 10), Nat.digitChar (cents % 100 % 10)],
      isDecimal c = true := by
    intro c hc
    have hdigit : ∃ d, d < 10 ∧ c = Nat.digitChar d := by
      rcases List.mem_pair.mp hc with rfl | rfl
      · exact ⟨_, by omega, rfl⟩
      · exact ⟨_, by omega, rfl⟩
    obtain ⟨d, hd, rfl⟩ := hdigit
    rw [isDecimal, digitValue_digitChar hd]
    rfl
  have hwhole : run.first isDecimal (numberText (cents / 100) ++ (['.'] ++
      ([Nat.digitChar (cents % 100 / 10), Nat.digitChar (cents % 100 % 10)] ++ tail))) =
      some ([], _) :=
    first_run (numberText_ne_nil _) (fun _ hc ↦ isDecimal_of_mem hc)
      (head_of_literal (by decide) _)
  have hpoint : (opt (seq (lit ['.']) run)).first isDecimal (['.'] ++
      ([Nat.digitChar (cents % 100 / 10), Nat.digitChar (cents % 100 % 10)] ++ tail)) =
      some ([], tail) :=
    first_opt_of_some (first_seq (first_lit _ _) (first_run (List.cons_ne_nil _ _) hplaces htail))
  have hamount := first_seq hwhole hpoint
  refine first_group (m := ([], tail)) ?_ rfl
  rw [priceText, List.append_assoc]
  exact hamount

/-- The amount and the unit at the end of a rate. -/
theorem first_perHour (hourlyCents : ℕ) (each : Text) :
    (seq (group amount) (lit "/hr".toList)).first isDecimal
      (priceText hourlyCents ++ ("/hr".toList ++ each)) = some ([priceText hourlyCents], each) :=
  first_seq (first_price hourlyCents (head_of_literal (by decide) each)) (first_lit _ _)

/-- A search passes over a text without digits. -/
theorem search_after {q : Pattern Char} {pre : Text}
    (h : (pre.all fun c ↦ c ∈ chargeLetters) = true) (s : Text) :
    (seq (group run) q).search isDecimal (pre ++ s) = (seq (group run) q).search isDecimal s := by
  refine search_append_of_no_start (fun c hc s ↦ ?_) s
  have hletter : c ∈ chargeLetters := of_decide_eq_true (List.all_eq_true.mp h c hc)
  exact ways_seq_run_of_not (isDecimal_eq_false_of_mem hletter) q s

/-- The text of a rental captures its numbers. -/
theorem capturedRate_rental (gpuCount hourlyCents : ℕ) :
    capturedRate (rentalChargeDescription gpuCount hourlyCents) =
      some [numberText gpuCount, priceText hourlyCents] := by
  have hfirst : rentalRate.first isDecimal (numberText gpuCount ++ ("× GPU @ $".toList ++
      (priceText hourlyCents ++ ("/hr".toList ++ [])))) =
      some ([numberText gpuCount, priceText hourlyCents], []) :=
    first_seq (first_number gpuCount (head_of_literal (by decide) _))
      (first_seq (first_lit _ _) (first_perHour hourlyCents []))
  have hsearch : rentalRate.search isDecimal (rentalChargeDescription gpuCount hourlyCents) =
      some [numberText gpuCount, priceText hourlyCents] := by
    have hpre : ("GPU usage ".toList.all fun c ↦ c ∈ chargeLetters) = true := by decide
    unfold rentalChargeDescription
    rw [List.append_assoc, List.append_assoc, List.append_assoc]
    refine (search_after hpre _).trans ?_
    rw [List.append_nil] at hfirst
    exact search_of_first hfirst
  rw [capturedRate, hsearch, Option.some_or]

/-! ## The name before the rate -/

/-- What follows the name on a charge of a private model. -/
def printedRate (gpuCount hourlyCents : ℕ) : Text :=
  " · ".toList ++ (numberText gpuCount ++ (" GPU".toList ++
    ((if gpuCount = 1 then [] else ['s']) ++ (" at $".toList ++ (priceText hourlyCents ++
      ("/hr".toList ++ if gpuCount = 1 then [] else " each".toList))))))

theorem privateModelChargeDescription_eq (workload : Option WorkloadNames)
    (gpuCount hourlyCents : ℕ) : privateModelChargeDescription workload gpuCount hourlyCents =
      "Private model ".toList ++ (chargeName workload ++ printedRate gpuCount hourlyCents) := by
  have hsingle : "1 GPU".toList = numberText 1 ++ " GPU".toList := by decide
  have hplural : " GPUs".toList = " GPU".toList ++ ['s'] := by decide
  unfold privateModelChargeDescription printedRate
  by_cases hone : gpuCount = 1
  · subst hone
    simp only [if_true, hsingle, List.append_assoc, List.nil_append]
  · simp only [if_neg hone, hplural, List.append_assoc]

/-- A literal of which no rest can go on with what follows the name. -/
theorem inside_printedRate {t : Text} (gpuCount hourlyCents : ℕ)
    (h : t.tails.all fun r ↦ r = [] ∨ ¬r.take 2 <+: [' ', '·']) :
    (lit t).Inside isDecimal (printedRate gpuCount hourlyCents) := by
  refine inside_lit fun r hr hne hfront ↦ ?_
  have hnot := List.all_eq_true.mp h r ((List.mem_tails r t).mpr hr)
  rw [decide_eq_true_iff, or_iff_right hne] at hnot
  exact hnot (hfront.take 2)

theorem run_inside_printedRate (gpuCount hourlyCents : ℕ) :
    run.Inside isDecimal (printedRate gpuCount hourlyCents) :=
  inside_run (head_of_literal (by decide) _)

theorem amount_inside_printedRate (gpuCount hourlyCents : ℕ) :
    amount.Inside isDecimal (printedRate gpuCount hourlyCents) := by
  have hrun := run_inside_printedRate gpuCount hourlyCents
  have hpoint := inside_printedRate (t := ['.']) gpuCount hourlyCents (by decide)
  exact hrun.seq (hpoint.seq hrun).opt

theorem rentalRate_inside_printedRate (gpuCount hourlyCents : ℕ) :
    rentalRate.Inside isDecimal (printedRate gpuCount hourlyCents) := by
  have hrun := run_inside_printedRate gpuCount hourlyCents
  have hamount := amount_inside_printedRate gpuCount hourlyCents
  have hmiddle := inside_printedRate (t := "× GPU @ $".toList) gpuCount hourlyCents
    (by decide)
  have hunit := inside_printedRate (t := "/hr".toList) gpuCount hourlyCents (by decide)
  exact hrun.group.seq (hmiddle.seq (hamount.group.seq hunit))

theorem modelRate_inside_printedRate (gpuCount hourlyCents : ℕ) :
    modelRate.Inside isDecimal (printedRate gpuCount hourlyCents) := by
  have hrun := run_inside_printedRate gpuCount hourlyCents
  have hamount := amount_inside_printedRate gpuCount hourlyCents
  have hgpu := inside_printedRate (t := " GPU".toList) gpuCount hourlyCents (by decide)
  have hplural := inside_printedRate (t := ['s']) gpuCount hourlyCents (by decide)
  have hat := inside_printedRate (t := " at $".toList) gpuCount hourlyCents (by decide)
  have hunit := inside_printedRate (t := "/hr".toList) gpuCount hourlyCents (by decide)
  exact hrun.group.seq (hgpu.seq (hplural.opt.seq (hat.seq (hamount.group.seq hunit))))

/-- Nothing after the name reads as the rate of a rental. -/
theorem rentalRate_search_printedRate (gpuCount hourlyCents : ℕ) :
    rentalRate.search isDecimal (printedRate gpuCount hourlyCents) = none := by
  have htimes : '×' ∈ "× GPU @ $".toList := by decide
  have hneeds : rentalRate.Needs isDecimal '×' := ((needs_lit htimes).seq_left _).seq_right _
  have hnumber : ∀ {n}, '×' ∉ numberText n := by
    intro n hmem
    obtain ⟨d, hd, heq⟩ := exists_digit_of_mem hmem
    revert d
    decide
  have hprice : '×' ∉ priceText hourlyCents := by
    intro hmem
    rcases List.mem_append.mp hmem with hmem | hmem
    · exact hnumber hmem
    · have hdigit : ∃ d, d < 10 ∧ '×' = Nat.digitChar d := by
        simp only [List.mem_cons, List.not_mem_nil, or_false] at hmem
        rcases hmem with hmem | hmem | hmem
        · exact absurd hmem (by decide)
        · exact ⟨_, by omega, hmem⟩
        · exact ⟨_, by omega, hmem⟩
      obtain ⟨d, hd, heq⟩ := hdigit
      revert d
      decide
  refine hneeds.search_eq_none fun hmem ↦ ?_
  unfold printedRate at hmem
  simp only [List.mem_append, hnumber, hprice, false_or] at hmem
  by_cases hone : gpuCount = 1
  · simp only [if_pos hone] at hmem
    revert hmem
    decide
  · simp only [if_neg hone] at hmem
    revert hmem
    decide

/-- After the name the rate is captured. -/
theorem modelRate_search_printedRate (gpuCount hourlyCents : ℕ) :
    modelRate.search isDecimal (printedRate gpuCount hourlyCents) =
      some [numberText gpuCount, priceText hourlyCents] := by
  have hpre : (" · ".toList.all fun c ↦ c ∈ chargeLetters) = true := by decide
  have hplural : ∀ rest : Text, (opt (lit ['s'])).first isDecimal
      ((if gpuCount = 1 then [] else ['s']) ++ (" at $".toList ++ rest)) =
      some ([], " at $".toList ++ rest) := by
    intro rest
    by_cases hone : gpuCount = 1
    · rw [if_pos hone]
      refine first_opt_of_none ?_
      have hnot : ¬['s'] <+: [] ++ (" at $".toList ++ rest) := by
        rintro ⟨u, hu⟩
        have hat : " at $".toList = ' ' :: "at $".toList := by decide
        rw [hat] at hu
        exact absurd (List.cons.inj hu).1 (by decide)
      rw [ways, if_neg hnot]
    · rw [if_neg hone]
      exact first_opt_of_some (first_lit _ _)
  have hfirst : ∀ each : Text, modelRate.first isDecimal (numberText gpuCount ++ (" GPU".toList ++
      ((if gpuCount = 1 then [] else ['s']) ++ (" at $".toList ++ (priceText hourlyCents ++
        ("/hr".toList ++ each)))))) =
      some ([numberText gpuCount, priceText hourlyCents], each) := fun each ↦
    first_seq (first_number gpuCount (head_of_literal (by decide) _))
      (first_seq (first_lit _ _) (first_seq (hplural _) (first_seq (first_lit _ _)
        (first_perHour hourlyCents each))))
  unfold printedRate
  exact (search_after hpre _).trans (search_of_first (hfirst _))

/-- The text of a private model captures what its name does, or else its numbers. -/
theorem capturedRate_privateModel (workload : Option WorkloadNames) (gpuCount hourlyCents : ℕ) :
    capturedRate (privateModelChargeDescription workload gpuCount hourlyCents) =
      (capturedRate (chargeName workload)).or
        (some [numberText gpuCount, priceText hourlyCents]) := by
  have hpre : ("Private model ".toList.all fun c ↦ c ∈ chargeLetters) = true := by decide
  have hrental : rentalRate.search isDecimal
      (privateModelChargeDescription workload gpuCount hourlyCents) =
      rentalRate.search isDecimal (chargeName workload) := by
    rw [privateModelChargeDescription_eq]
    refine (search_after hpre _).trans ((search_append
      (rentalRate_inside_printedRate gpuCount hourlyCents) _).trans ?_)
    rw [rentalRate_search_printedRate, Option.or_none]
  have hmodel : modelRate.search isDecimal
      (privateModelChargeDescription workload gpuCount hourlyCents) =
      (modelRate.search isDecimal (chargeName workload)).or
        (some [numberText gpuCount, priceText hourlyCents]) := by
    rw [privateModelChargeDescription_eq]
    refine (search_after hpre _).trans ((search_append
      (modelRate_inside_printedRate gpuCount hourlyCents) _).trans ?_)
    rw [modelRate_search_printedRate]
  rw [capturedRate, capturedRate, hrental, hmodel, Option.or_assoc]

/-! ## The rate reads back -/

/-- The rate on a text reads back, and the hours of a charge with it are its cents divided by the
rate. -/
structure RateReadsBack (text : Text) (gpuCount hourlyCents : ℕ) : Prop where
  rate : centsPerHour text = some ((gpuCount * hourlyCents : ℕ) : ℤ)
  hours : ∀ (env : StatementEnv) (r : ChargeKey × ChargeGroup) (g : Group),
    env.centsPerHour = centsPerHour → r.1.kind = "usage".toList → r.1.description = some text →
    gpuCount * hourlyCents ≠ 0 → (Statements.addHours env r g).hours =
      g.hours + ((-r.2.cents : ℤ) : ℚ) / (gpuCount * hourlyCents : ℕ)

theorem rateReadsBack_iff {text : Text} {gpuCount hourlyCents : ℕ} :
    RateReadsBack text gpuCount hourlyCents ↔
      centsPerHour text = some ((gpuCount * hourlyCents : ℕ) : ℤ) := by
  refine ⟨RateReadsBack.rate, fun h ↦ ⟨h, fun env r g henv hkind htext hrate ↦ ?_⟩⟩
  have hne : ((gpuCount * hourlyCents : ℕ) : ℤ) ≠ 0 := Int.natCast_ne_zero.mpr hrate
  rw [Statements.addHours, if_pos hkind, htext, Option.getD_some, henv, h]
  split
  · next hnone => cases hnone
  · next hzero => exact absurd (Option.some.inj hzero) hne
  · next rate _ hsome => rw [← Option.some.inj hsome, Int.cast_natCast]

theorem rateOf_printed (gpuCount hourlyCents : ℕ) :
    rateOf [numberText gpuCount, priceText hourlyCents] =
      ((gpuCount * hourlyCents : ℕ) : ℤ) := by
  rw [rateOf, List.getD_cons_zero, List.getD_cons_succ, List.getD_cons_zero, intOf_numberText,
    roundHalfEven_floatOf_priceText, Nat.cast_mul]

end GreenCompute
