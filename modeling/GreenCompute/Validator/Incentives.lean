import GreenCompute.Validator.Evidence

/-!
# What moves a score

Two ways in which a miner might move its score. Its nodes are weighed as one: the weight is the GPUs
of the first of them times a whole number of gigabytes, so what is left over when the total is
shared out among those GPUs is lost, and the loss depends on which node comes first
(`fleet_weight_iff`). And it may fail a probe on purpose: that raises no factor of the score but
one, the penalty for suspected proxies, which goes by the rate of the suspected probes among all of
them and can be diluted (`failing_on_purpose`).
-/

namespace GreenCompute

namespace ScoreEngine

open AuditDb (aggregate)

/-! ## The weight of a fleet -/

/-- The capacity of some nodes, in gigabytes of all their GPUs. -/
def fleetUnits (nodes : List NodeCapability) : ℕ :=
  (nodes.map fun n ↦ n.gpuCount * n.vramGbPerGpu).sum

/-- The capacity weight that `publish_weight_snapshot` gives to a miner for its nodes. -/
def fleetWeight (settings : ScoreSettings) (results : List ProbeResult) (flux : Option FluxState) :
    List NodeCapability → ℚ
  | [] => 0
  | primary :: nodes =>
    (computeScorecard settings (aggregate primary (primary :: nodes)) results flux).capacityWeight

section

variable {settings : ScoreSettings} {results : List ProbeResult} {flux : Option FluxState}
  {nodes nodes' : List NodeCapability}

theorem fleetUnits_perm (h : nodes'.Perm nodes) : fleetUnits nodes' = fleetUnits nodes :=
  (h.map _).sum_eq

/-- The total is shared out among the GPUs of the first node, and what is left over is lost. -/
theorem fleetWeight_cons {primary : NodeCapability} (hgpus : 1 ≤ primary.gpuCount)
    (hvram : 1 ≤ primary.vramGbPerGpu) :
    fleetWeight settings results flux (primary :: nodes) =
      (primary.gpuCount * (fleetUnits (primary :: nodes) / primary.gpuCount) : ℕ) := by
  have hshare : 1 ≤ fleetUnits (primary :: nodes) / primary.gpuCount := by
    rw [Nat.one_le_div_iff hgpus, fleetUnits, List.map_cons, List.sum_cons]
    calc primary.gpuCount = primary.gpuCount * 1 := (Nat.mul_one _).symm
      _ ≤ primary.gpuCount * primary.vramGbPerGpu := Nat.mul_le_mul_left _ hvram
      _ ≤ _ := Nat.le_add_right _ _
  have hvalue : fleetWeight settings results flux (primary :: nodes) =
      (primary.gpuCount : ℚ) *
        (max (fleetUnits (primary :: nodes) / max primary.gpuCount 1) 1 : ℕ) := rfl
  rw [hvalue, max_eq_left hgpus, max_eq_left hshare, Nat.cast_mul]

/-- The weight is the total where the GPUs of the first node divide it. -/
theorem fleetWeight_eq_iff {primary : NodeCapability} (hgpus : 1 ≤ primary.gpuCount)
    (hvram : 1 ≤ primary.vramGbPerGpu) :
    fleetWeight settings results flux (primary :: nodes) = fleetUnits (primary :: nodes) ↔
      primary.gpuCount ∣ fleetUnits (primary :: nodes) := by
  rw [fleetWeight_cons hgpus hvram, Nat.cast_inj, Nat.mul_div_eq_iff_dvd]

end

end ScoreEngine

open ScoreEngine

/-- **The weight of a fleet.** A miner is weighed by all of its nodes, in whatever order they are
listed, exactly if the GPUs of each node divide the total. -/
theorem fleet_weight_iff (settings : ScoreSettings) (results : List ProbeResult)
    (flux : Option FluxState) {nodes : List NodeCapability} (nonempty : nodes ≠ [])
    (sizes : ∀ n ∈ nodes, 1 ≤ n.gpuCount ∧ 1 ≤ n.vramGbPerGpu) :
    (fleetWeight settings results flux nodes = fleetUnits nodes ∧
        ∀ nodes', nodes'.Perm nodes →
          fleetWeight settings results flux nodes' = fleetWeight settings results flux nodes) ↔
      ∀ n ∈ nodes, n.gpuCount ∣ fleetUnits nodes := by
  have hfirst : ∀ n rest, (n :: rest).Perm nodes →
      (fleetWeight settings results flux (n :: rest) = fleetUnits nodes ↔
        n.gpuCount ∣ fleetUnits nodes) := by
    intro n rest hperm
    obtain ⟨hgpus, hvram⟩ := sizes n (hperm.subset (List.mem_cons_self ..))
    rw [← fleetUnits_perm hperm]
    exact fleetWeight_eq_iff hgpus hvram
  constructor
  · rintro ⟨htotal, horder⟩ n hn
    obtain ⟨before, after, hsplit⟩ := List.append_of_mem hn
    have hperm : (n :: (before ++ after)).Perm nodes := by
      rw [hsplit]
      exact List.perm_middle.symm
    exact (hfirst n _ hperm).mp ((horder _ hperm).trans htotal)
  · intro hdvd
    have hall : ∀ nodes', nodes'.Perm nodes →
        fleetWeight settings results flux nodes' = fleetUnits nodes := by
      intro nodes' hperm
      cases nodes' with
      | nil => exact (nonempty hperm.nil_eq.symm).elim
      | cons n rest =>
        exact (hfirst n rest hperm).mpr (hdvd n (hperm.subset (List.mem_cons_self ..)))
    refine ⟨hall nodes (.refl _), fun nodes' hperm ↦ ?_⟩
    rw [hall nodes' hperm, hall nodes (.refl _)]

/-- A node of some GPUs of the same size. -/
def nodeOf (gpuCount vramGbPerGpu : ℕ) : NodeCapability where
  nodeId := 0
  hotkey := 1
  serverId := none
  gpuModel := "rtx4090".toList
  gpuCount := gpuCount
  availableGpus := gpuCount
  vramGbPerGpu := vramGbPerGpu
  cpuCores := 32
  memoryGb := 128
  labels := []
  hourlyCostUsd := 1
  healthScore := 1
  reliabilityScore := 1
  performanceScore := 1
  observedAt := none

/-- The settings that a validator starts with, but for exponents that are one. -/
def plainScores : ScoreSettings where
  scoreAlpha := 1
  scoreBeta := 1
  scoreGamma := 1
  scoreDelta := 1
  rentalRevenueBonusCap := 1 / 10
  fraudProxyNoiseFloor := 2 / 100
  fraudProxyHighThreshold := 20 / 100
  power := fun x e ↦ x ^ ⌊e⌋₊

theorem fleet_weight_iff_even :
    fleetWeight plainScores [] none [nodeOf 8 24, nodeOf 4 24] =
        fleetUnits [nodeOf 8 24, nodeOf 4 24] ∧
      ∀ nodes', nodes'.Perm [nodeOf 8 24, nodeOf 4 24] → fleetWeight plainScores [] none nodes' =
        fleetWeight plainScores [] none [nodeOf 8 24, nodeOf 4 24] := by
  refine (fleet_weight_iff plainScores [] none (List.cons_ne_nil _ _) ?_).mpr ?_
  · intro n hn
    simp only [List.mem_cons, List.not_mem_nil, or_false] at hn
    rcases hn with rfl | rfl <;> decide
  · intro n hn
    simp only [List.mem_cons, List.not_mem_nil, or_false] at hn
    rcases hn with rfl | rfl <;> decide

/-- Eight GPUs and a single one of half the size: the small one is lost where it comes second. -/
theorem fleet_weight_lost :
    ¬∀ (settings : ScoreSettings) (results : List ProbeResult) (flux : Option FluxState)
      (nodes : List NodeCapability), nodes ≠ [] →
        (∀ n ∈ nodes, 1 ≤ n.gpuCount ∧ 1 ≤ n.vramGbPerGpu) →
        fleetWeight settings results flux nodes = fleetUnits nodes ∧
          ∀ nodes', nodes'.Perm nodes →
            fleetWeight settings results flux nodes' = fleetWeight settings results flux nodes := by
  intro h
  have hsizes : ∀ n ∈ [nodeOf 8 24, nodeOf 1 12], 1 ≤ n.gpuCount ∧ 1 ≤ n.vramGbPerGpu := by
    intro n hn
    simp only [List.mem_cons, List.not_mem_nil, or_false] at hn
    rcases hn with rfl | rfl <;> decide
  have htotal := (h plainScores [] none _ (List.cons_ne_nil _ _) hsizes).1
  rw [fleetWeight_eq_iff (by decide) (by decide)] at htotal
  exact absurd htotal (by decide)

/-! ## A failed probe -/

/-- A probe that failed, without a signature and without the suspicion of a proxy. -/
structure ProbeResult.Failed (probe : ProbeResult) : Prop where
  failed : probe.success = false
  unsuspected : probe.proxySuspected = false
  unsigned : probe.benchmarkSignature.getD [] = []

/-- What the validator's configuration checks, and what `**` does on floats that are not
negative. -/
structure ScoreSettings.Lawful (settings : ScoreSettings) : Prop where
  beta_nonneg : 0 ≤ settings.scoreBeta
  gamma_nonneg : 0 ≤ settings.scoreGamma
  cap_nonneg : 0 ≤ settings.rentalRevenueBonusCap
  power_nonneg : ∀ x e, 0 ≤ x → 0 ≤ settings.power x e
  power_mono : ∀ x y e, 0 ≤ x → x ≤ y → 0 ≤ e → settings.power x e ≤ settings.power y e

namespace ScoreEngine

theorem round6_mono {x y : ℚ} (h : x ≤ y) : round6 x ≤ round6 y := by
  have hround : roundHalfEven (x * 10 ^ 6) ≤ roundHalfEven (y * 10 ^ 6) :=
    roundHalfEven_mono (by linarith)
  rw [round6, round6, div_le_div_iff_of_pos_right (by norm_num)]
  exact_mod_cast hround

theorem round6_nonneg {x : ℚ} (h : 0 ≤ x) : 0 ≤ round6 x := by
  have hround : 0 ≤ roundHalfEven (x * 10 ^ 6) := roundHalfEven_nonneg (by linarith)
  exact div_nonneg (by exact_mod_cast hround) (by norm_num)

theorem round6_one : round6 1 = 1 := by
  have hmillion : (1 : ℚ) * 10 ^ 6 = ((10 ^ 6 : ℤ) : ℚ) := by norm_num
  rw [round6, hmillion, roundHalfEven_intCast]
  norm_num

section

variable {settings : ScoreSettings} {results : List ProbeResult} {probe : ProbeResult}
  (h : probe.Failed)

/-! ### The factors -/

theorem successRate_nonneg (results : List ProbeResult) : 0 ≤ successRate results :=
  div_nonneg (Nat.cast_nonneg _) (Nat.cast_nonneg _)

theorem successRate_le_one (results : List ProbeResult) : successRate results ≤ 1 := by
  rw [successRate]
  refine div_le_one_of_le₀ ?_ (Nat.cast_nonneg _)
  exact_mod_cast List.countP_le_length

include h

theorem successRate_append_le : successRate (results ++ [probe]) ≤ successRate results := by
  have hcount : (results ++ [probe]).countP ProbeResult.success =
      results.countP ProbeResult.success := by
    rw [List.countP_append, List.countP_singleton, h.failed, if_neg Bool.false_ne_true,
      Nat.add_zero]
  rw [successRate, successRate, hcount, List.length_append, List.length_singleton]
  rcases Nat.eq_zero_or_pos results.length with hzero | hpos
  · rw [List.eq_nil_of_length_eq_zero hzero]
    norm_num
  · refine div_le_div_of_nonneg_left (Nat.cast_nonneg _) (by exact_mod_cast hpos) ?_
    exact_mod_cast Nat.le_succ _

theorem filter_success_append :
    (results ++ [probe]).filter ProbeResult.success = results.filter ProbeResult.success := by
  rw [List.filter_append, List.filter_singleton, h.failed]
  exact List.append_nil _

theorem recentSignatures_append :
    recentSignatures (results ++ [probe]) = recentSignatures results := by
  have hsigned : signed (results ++ [probe]) = signed results := by
    rw [signed, List.filter_append, List.filter_singleton, decide_eq_false (not_not.mpr h.unsigned)]
    exact List.append_nil _
  rw [recentSignatures, recentSignatures, hsigned]

theorem consistencyPenalty_append :
    consistencyPenalty (results ++ [probe]) = consistencyPenalty results := by
  rw [consistencyPenalty, consistencyPenalty, filter_success_append h]

omit h in
/-- Failures to be ready only add up. -/
theorem readinessPenalty_append_le {floor step : ℚ} (hstep : 0 ≤ step) :
    max floor (1 - readinessFailures (results ++ [probe]) * step) ≤
      max floor (1 - readinessFailures results * step) := by
  have hmore : (readinessFailures results : ℚ) ≤ readinessFailures (results ++ [probe]) := by
    rw [readinessFailures, readinessFailures, List.map_append, List.sum_append]
    exact_mod_cast Nat.le_add_right _ _
  have hscaled := mul_le_mul_of_nonneg_right hmore hstep
  exact max_le_max le_rfl (by linarith)

omit h in
/-- A factor that becomes smaller makes the product smaller, down to what the score is at least. -/
theorem max_mul_le_max {r a b least : ℚ} (ha : 0 ≤ a) (hab : a ≤ b) (hleast : 0 ≤ least) :
    max (r * a) least ≤ max (r * b) least := by
  rcases le_total 0 r with hr | hr
  · exact max_le_max (mul_le_mul_of_nonneg_left hab hr) le_rfl
  · have hneg : r * a ≤ least := (mul_nonpos_of_nonpos_of_nonneg hr ha).trans hleast
    rw [max_eq_right hneg]
    exact le_max_right _ _

omit h in
theorem fifth_nonneg : (0 : ℚ) ≤ 1 / 5 := by norm_num

theorem reliabilityScore_append_le (registered : ℚ) :
    reliabilityScore registered (results ++ [probe]) ≤ reliabilityScore registered results := by
  have happend : results ++ [probe] ≠ [] :=
    List.append_ne_nil_of_right_ne_nil _ (List.cons_ne_nil _ _)
  rw [reliabilityScore, if_neg happend, reliabilityScore]
  have hsuccess : successRate (results ++ [probe]) ≤ successRate results :=
    successRate_append_le h
  by_cases hnil : results = []
  · subst hnil
    have hzero : successRate ([] ++ [probe]) = 0 := by
      refine le_antisymm (hsuccess.trans ?_) (successRate_nonneg _)
      norm_num [successRate]
    rw [if_pos rfl, hzero]
    refine round6_mono ?_
    rw [mul_zero, zero_mul, max_eq_right (by norm_num)]
    exact le_max_right _ _
  · rw [if_neg hnil]
    refine round6_mono ?_
    rw [mul_assoc, mul_assoc]
    have hstep : (0 : ℚ) ≤ 1 / 25 := by norm_num
    have hreadiness : max (1 / 5) (1 - readinessFailures (results ++ [probe]) * (1 / 25 : ℚ)) ≤
        max (1 / 5) (1 - readinessFailures results * (1 / 25 : ℚ)) :=
      readinessPenalty_append_le hstep
    have hpositive :
        0 ≤ max (1 / 5) (1 - readinessFailures (results ++ [probe]) * (1 / 25 : ℚ)) :=
      le_max_of_le_left fifth_nonneg
    exact max_mul_le_max (mul_nonneg (successRate_nonneg _) hpositive)
      (mul_le_mul hsuccess hreadiness hpositive (successRate_nonneg _)) (by norm_num)

theorem performanceScore_append_le (registered : ℚ) :
    performanceScore registered (results ++ [probe]) ≤ performanceScore registered results := by
  have happend : results ++ [probe] ≠ [] :=
    List.append_ne_nil_of_right_ne_nil _ (List.cons_ne_nil _ _)
  rw [performanceScore, if_neg happend, performanceScore, filter_success_append h]
  by_cases hnil : results = []
  · subst hnil
    rw [if_pos rfl]
    exact le_max_right _ _
  · rw [if_neg hnil]

omit h in
theorem proxyPenalty_bounds (settings : ScoreSettings) (results : List ProbeResult) :
    0 ≤ proxyPenalty settings results ∧ proxyPenalty settings results ≤ 1 := by
  rw [proxyPenalty]
  split_ifs <;> norm_num

omit h in
theorem consistencyPenalty_bounds (results : List ProbeResult) :
    0 ≤ consistencyPenalty results ∧ consistencyPenalty results ≤ 1 := by
  rw [consistencyPenalty]
  split
  · norm_num
  · dsimp only
    split
    · norm_num
    · split <;> norm_num

omit h in
/-- The fraud penalty before it is rounded, of a miner that has been probed. -/
def fraudFactors (settings : ScoreSettings) (results : List ProbeResult) : ℚ :=
  (if 1 < (recentSignatures results).length then 3 / 4 else 1) * proxyPenalty settings results *
    consistencyPenalty results * max (1 / 5) (1 - readinessFailures results * (3 / 100) : ℚ) *
    max (1 / 5) (successRate results)

omit h in
theorem fraudPenalty_eq (hnil : results ≠ []) :
    fraudPenalty settings results = round6 (fraudFactors settings results) := by
  rw [fraudPenalty, if_neg hnil, fraudFactors]

omit h in
/-- No factor is negative, and none is above one. -/
theorem fraudFactors_bounds (settings : ScoreSettings) (results : List ProbeResult) :
    0 ≤ fraudFactors settings results ∧ fraudFactors settings results ≤ 1 := by
  have hsignature : 0 ≤ (if 1 < (recentSignatures results).length then 3 / 4 else 1 : ℚ) ∧
      (if 1 < (recentSignatures results).length then 3 / 4 else 1 : ℚ) ≤ 1 := by
    split_ifs <;> norm_num
  have hreadiness : 0 ≤ max (1 / 5) (1 - readinessFailures results * (3 / 100) : ℚ) ∧
      max (1 / 5) (1 - readinessFailures results * (3 / 100) : ℚ) ≤ 1 := by
    have hfailures : (0 : ℚ) ≤ readinessFailures results := Nat.cast_nonneg _
    exact ⟨le_max_of_le_left fifth_nonneg, max_le (by norm_num) (by linarith)⟩
  have hsuccess : 0 ≤ max (1 / 5) (successRate results) ∧ max (1 / 5) (successRate results) ≤ 1 :=
    ⟨le_max_of_le_left fifth_nonneg, max_le (by norm_num) (successRate_le_one results)⟩
  obtain ⟨hproxy₀, hproxy₁⟩ := proxyPenalty_bounds settings results
  obtain ⟨hconsistency₀, hconsistency₁⟩ := consistencyPenalty_bounds results
  have hfront := mul_nonneg (mul_nonneg hsignature.1 hproxy₀) hconsistency₀
  constructor
  · exact mul_nonneg (mul_nonneg hfront hreadiness.1) hsuccess.1
  · refine mul_le_one₀ (mul_le_one₀ (mul_le_one₀ (mul_le_one₀ ?_ ?_ ?_) ?_ ?_) ?_ ?_) ?_ ?_
    · exact hsignature.2
    · exact hproxy₀
    · exact hproxy₁
    · exact hconsistency₀
    · exact hconsistency₁
    · exact hreadiness.1
    · exact hreadiness.2
    · exact hsuccess.1
    · exact hsuccess.2

theorem fraudFactors_append_le
    (hproxy : proxyPenalty settings (results ++ [probe]) ≤ proxyPenalty settings results) :
    fraudFactors settings (results ++ [probe]) ≤ fraudFactors settings results := by
  have hsignature : 0 ≤ (if 1 < (recentSignatures results).length then 3 / 4 else 1 : ℚ) := by
    split_ifs <;> norm_num
  have hstep : (0 : ℚ) ≤ 3 / 100 := by norm_num
  have hreadiness : max (1 / 5) (1 - readinessFailures (results ++ [probe]) * (3 / 100 : ℚ)) ≤
      max (1 / 5) (1 - readinessFailures results * (3 / 100 : ℚ)) :=
    readinessPenalty_append_le hstep
  have hpositive : 0 ≤ max (1 / 5) (1 - readinessFailures (results ++ [probe]) * (3 / 100 : ℚ)) :=
    le_max_of_le_left fifth_nonneg
  have hsuccess : max (1 / 5) (successRate (results ++ [probe])) ≤
      max (1 / 5) (successRate results) := max_le_max le_rfl (successRate_append_le h)
  have hproxy₀ := (proxyPenalty_bounds settings (results ++ [probe])).1.trans hproxy
  have hconsistency := (consistencyPenalty_bounds results).1
  have hfront := mul_nonneg (mul_nonneg hsignature hproxy₀) hconsistency
  rw [fraudFactors, fraudFactors, recentSignatures_append h, consistencyPenalty_append h]
  refine mul_le_mul (mul_le_mul ?_ hreadiness hpositive hfront) hsuccess ?_ ?_
  · exact mul_le_mul_of_nonneg_right (mul_le_mul_of_nonneg_left hproxy hsignature) hconsistency
  · exact le_max_of_le_left fifth_nonneg
  · exact mul_nonneg hfront (hpositive.trans hreadiness)

/-- The fraud penalty is only less severe if the penalty for suspected proxies is. -/
theorem fraudPenalty_append_le
    (hproxy : proxyPenalty settings (results ++ [probe]) ≤ proxyPenalty settings results) :
    fraudPenalty settings (results ++ [probe]) ≤ fraudPenalty settings results := by
  rw [fraudPenalty_eq (List.append_ne_nil_of_right_ne_nil _ (List.cons_ne_nil _ _))]
  by_cases hnil : results = []
  · -- There is no penalty without a probe.
    rw [fraudPenalty, if_pos hnil, ← round6_one]
    exact round6_mono (fraudFactors_bounds _ _).2
  · rw [fraudPenalty_eq hnil]
    exact round6_mono (fraudFactors_append_le h hproxy)

omit h in
theorem fraudPenalty_nonneg (settings : ScoreSettings) (results : List ProbeResult) :
    0 ≤ fraudPenalty settings results := by
  by_cases hnil : results = []
  · rw [fraudPenalty, if_pos hnil]
    exact zero_le_one
  · rw [fraudPenalty_eq hnil]
    exact round6_nonneg (fraudFactors_bounds _ _).1

omit h in
theorem reliabilityScore_nonneg (registered : ℚ) (results : List ProbeResult) :
    0 ≤ reliabilityScore registered results := by
  rw [reliabilityScore]
  split
  · exact round6_nonneg (le_max_of_le_right (by norm_num))
  · exact round6_nonneg (le_max_of_le_right (by norm_num))

omit h in
theorem performanceScore_nonneg (registered : ℚ) (results : List ProbeResult) :
    0 ≤ performanceScore registered results := by
  rw [performanceScore]
  split
  · exact le_max_of_le_right (by norm_num)
  · dsimp only
    split
    · norm_num
    · exact round6_nonneg (le_max_of_le_right (by norm_num))

omit h in
theorem utilizationFactor_nonneg (flux : Option FluxState) : 0 ≤ utilizationFactor flux := by
  rcases flux with _ | state
  · norm_num [utilizationFactor]
  · rw [utilizationFactor]
    split
    · norm_num
    · exact round6_nonneg (le_max_of_le_right (by norm_num))

omit h in
theorem rentalRevenueBonus_nonneg (hcap : 0 ≤ settings.rentalRevenueBonusCap)
    (flux : Option FluxState) : 0 ≤ rentalRevenueBonus settings flux := by
  rcases flux with _ | state
  · exact le_rfl
  · rw [rentalRevenueBonus]
    split
    · exact le_rfl
    · exact round6_nonneg (le_min (by positivity) hcap)

/-! ### The rate of suspected probes -/

omit h in
/-- `proxy_rate` -/
def proxyRate (results : List ProbeResult) : ℚ :=
  results.countP ProbeResult.proxySuspected / results.length

omit h in
/-- A rate that falls below no threshold makes the penalty no less severe. -/
theorem proxyPenalty_le {results' : List ProbeResult}
    (noise : proxyRate results' ≤ settings.fraudProxyNoiseFloor →
      proxyRate results ≤ settings.fraudProxyNoiseFloor)
    (high : proxyRate results' ≤ settings.fraudProxyHighThreshold →
      proxyRate results ≤ settings.fraudProxyHighThreshold) :
    proxyPenalty settings results' ≤ proxyPenalty settings results := by
  have hvalue : ∀ results, proxyPenalty settings results =
      if proxyRate results ≤ settings.fraudProxyNoiseFloor then 1
      else if proxyRate results ≤ settings.fraudProxyHighThreshold then 7 / 10
      else 2 / 5 := fun _ ↦ rfl
  by_cases hnoise : proxyRate results' ≤ settings.fraudProxyNoiseFloor
  · rw [hvalue results', hvalue, if_pos hnoise, if_pos (noise hnoise)]
  · by_cases hhigh : proxyRate results' ≤ settings.fraudProxyHighThreshold
    · rw [hvalue results', hvalue, if_neg hnoise, if_pos hhigh, if_pos (high hhigh)]
      split_ifs <;> norm_num
    · rw [hvalue results', hvalue, if_neg hnoise, if_neg hhigh]
      split_ifs <;> norm_num

/-! ### The score -/

/-- The score is lower where reliability and the fraud penalty are. -/
theorem finalScore_append_le (lawful : settings.Lawful) (capability : NodeCapability)
    (flux : Option FluxState)
    (hfraud : fraudPenalty settings (results ++ [probe]) ≤ fraudPenalty settings results) :
    (computeScorecard settings capability (results ++ [probe]) flux).finalScore ≤
      (computeScorecard settings capability results flux).finalScore := by
  have hreliability : settings.power
      (reliabilityScore capability.reliabilityScore (results ++ [probe])) settings.scoreBeta ≤
      settings.power (reliabilityScore capability.reliabilityScore results) settings.scoreBeta :=
    lawful.power_mono _ _ _ (reliabilityScore_nonneg _ _) (reliabilityScore_append_le h _)
      lawful.beta_nonneg
  have hperformance : settings.power
      (performanceScore capability.performanceScore (results ++ [probe])) settings.scoreGamma ≤
      settings.power (performanceScore capability.performanceScore results) settings.scoreGamma :=
    lawful.power_mono _ _ _ (performanceScore_nonneg _ _) (performanceScore_append_le h _)
      lawful.gamma_nonneg
  have hweight : (0 : ℚ) ≤ capability.gpuCount * capability.vramGbPerGpu *
      settings.power 1 settings.scoreAlpha :=
    mul_nonneg (by positivity) (lawful.power_nonneg _ _ zero_le_one)
  have hreliability₀ : ∀ results : List ProbeResult, 0 ≤ settings.power
      (reliabilityScore capability.reliabilityScore results) settings.scoreBeta :=
    fun _ ↦ lawful.power_nonneg _ _ (reliabilityScore_nonneg _ _)
  have hperformance₀ : ∀ results : List ProbeResult, 0 ≤ settings.power
      (performanceScore capability.performanceScore results) settings.scoreGamma :=
    fun _ ↦ lawful.power_nonneg _ _ (performanceScore_nonneg _ _)
  have hutilization := lawful.power_nonneg _ settings.scoreDelta (utilizationFactor_nonneg flux)
  have hbonus : 0 ≤ 1 + rentalRevenueBonus settings flux :=
    add_nonneg zero_le_one (rentalRevenueBonus_nonneg lawful.cap_nonneg flux)
  refine round6_mono ?_
  refine mul_le_mul_of_nonneg_right (mul_le_mul_of_nonneg_right ?_ hutilization) hbonus
  have hfront := mul_nonneg (mul_nonneg hweight (hreliability₀ results)) (hperformance₀ results)
  refine mul_le_mul (mul_le_mul ?_ hperformance (hperformance₀ _) ?_) hfraud
    (fraudPenalty_nonneg _ _) hfront
  · exact mul_le_mul_of_nonneg_left hreliability hweight
  · exact mul_nonneg hweight (hreliability₀ results)

end

end ScoreEngine

/-- **What a failed probe does.** One more failed probe never raises reliability. Unless it takes
the rate of suspected probes from above one of the two thresholds down to it or below, it raises
neither the fraud penalty, nor its product with reliability, nor the score. -/
theorem failing_on_purpose {settings : ScoreSettings} (lawful : settings.Lawful)
    (capability : NodeCapability) (results : List ProbeResult) {probe : ProbeResult}
    (failed : probe.Failed) (flux : Option FluxState) :
    reliabilityScore capability.reliabilityScore (results ++ [probe]) ≤
        reliabilityScore capability.reliabilityScore results ∧
      ((proxyRate (results ++ [probe]) ≤ settings.fraudProxyNoiseFloor →
          proxyRate results ≤ settings.fraudProxyNoiseFloor) →
        (proxyRate (results ++ [probe]) ≤ settings.fraudProxyHighThreshold →
          proxyRate results ≤ settings.fraudProxyHighThreshold) →
        fraudPenalty settings (results ++ [probe]) ≤ fraudPenalty settings results ∧
        fraudPenalty settings (results ++ [probe]) *
            reliabilityScore capability.reliabilityScore (results ++ [probe]) ≤
          fraudPenalty settings results *
            reliabilityScore capability.reliabilityScore results ∧
        (computeScorecard settings capability (results ++ [probe]) flux).finalScore ≤
          (computeScorecard settings capability results flux).finalScore) := by
  have hreliability :
      reliabilityScore capability.reliabilityScore (results ++ [probe]) ≤
        reliabilityScore capability.reliabilityScore results :=
    reliabilityScore_append_le failed _
  refine ⟨hreliability, fun noise high ↦ ?_⟩
  have hfraud : fraudPenalty settings (results ++ [probe]) ≤ fraudPenalty settings results :=
    fraudPenalty_append_le failed (proxyPenalty_le noise high)
  refine ⟨hfraud, ?_, finalScore_append_le failed lawful capability flux hfraud⟩
  exact mul_le_mul hfraud hreliability (reliabilityScore_nonneg _ _) (fraudPenalty_nonneg _ _)

theorem plainScores_lawful : plainScores.Lawful where
  beta_nonneg := zero_le_one
  gamma_nonneg := zero_le_one
  cap_nonneg := by norm_num [plainScores]
  power_nonneg := fun _ _ hx ↦ pow_nonneg hx _
  power_mono := fun _ _ _ hx hxy _ ↦ pow_le_pow_left₀ hx hxy _

/-- A probe that was answered, or that was answered by someone else, or that failed. -/
def probeOf (success suspected : Bool) : ProbeResult where
  challengeId := 0
  hotkey := 1
  nodeId := 0
  latencyMs := 100
  throughput := 200
  success := success
  benchmarkSignature := none
  proxySuspected := suspected
  readinessFailures := 0
  promptSha256 := none
  responseSha256 := none
  observedAt := 0

theorem probeOf_failed : (probeOf false false).Failed := ⟨rfl, rfl, rfl⟩

theorem failing_on_purpose_clean :
    (computeScorecard plainScores (nodeOf 8 24) ([probeOf true false] ++ [probeOf false false])
        none).finalScore ≤
      (computeScorecard plainScores (nodeOf 8 24) [probeOf true false] none).finalScore :=
  ((failing_on_purpose plainScores_lawful (nodeOf 8 24) [probeOf true false] probeOf_failed
    none).2 (by decide +kernel) (by decide +kernel)).2.2

/-- Two suspected probes out of nine are above the threshold of a fifth, and two out of ten are
not: one more failed probe makes up for itself. -/
theorem dilution_pays :
    ¬∀ (settings : ScoreSettings) (capability : NodeCapability) (results : List ProbeResult)
      (probe : ProbeResult), settings.Lawful → probe.Failed →
        fraudPenalty settings (results ++ [probe]) *
            reliabilityScore capability.reliabilityScore (results ++ [probe]) ≤
          fraudPenalty settings results *
            reliabilityScore capability.reliabilityScore results := by
  intro h
  have hle := h plainScores (nodeOf 8 24)
    (List.replicate 2 (probeOf false true) ++ List.replicate 7 (probeOf true false))
    (probeOf false false) plainScores_lawful probeOf_failed
  revert hle
  decide +kernel

end GreenCompute
