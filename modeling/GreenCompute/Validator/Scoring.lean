import GreenCompute.Foundations.Rounding
import GreenCompute.Validator.Audit
import GreenCompute.Validator.Flux

/-!
# Scores

The score of a miner is a product of factors, of which reliability, performance and the fraud
penalty are computed from its probes. They are counts, sums and medians, so the order of the probes
does not matter, with one exception: the fraud penalty looks at the latest signatures, and which
those are is settled by the order where two probes were observed at one moment
(`fraudPenalty_perm`).

Floats are exact here. The coefficient of variation is a square root, and is compared by its square.
-/

namespace GreenCompute

/-- The validator's settings for scores, and `**` of floats. -/
structure ScoreSettings where
  scoreAlpha : ℚ
  scoreBeta : ℚ
  scoreGamma : ℚ
  scoreDelta : ℚ
  rentalRevenueBonusCap : ℚ
  fraudProxyNoiseFloor : ℚ
  fraudProxyHighThreshold : ℚ
  power : ℚ → ℚ → ℚ

namespace ScoreEngine

/-- `round(x, 6)` -/
def round6 (x : ℚ) : ℚ := roundHalfEven (x * 10 ^ 6) / 10 ^ 6

/-- `median`, of a list that is not empty. -/
def median (data : List ℚ) : ℚ :=
  let sorted := data.insertionSort (· ≤ ·)
  if data.length % 2 = 1 then sorted.getD (data.length / 2) 0
  else (sorted.getD (data.length / 2 - 1) 0 + sorted.getD (data.length / 2) 0) / 2

/-- The number of results that failed to be ready. -/
def readinessFailures (results : List ProbeResult) : ℕ :=
  (results.map ProbeResult.readinessFailures).sum

/-- The part of the results that succeeded. -/
def successRate (results : List ProbeResult) : ℚ :=
  results.countP ProbeResult.success / results.length

/-- `_reliability_score`, of a miner that registered a reliability of its own. -/
def reliabilityScore (registered : ℚ) (results : List ProbeResult) : ℚ :=
  if results = [] then round6 (max (registered * (1 / 2)) (1 / 100))
  else
    let readinessPenalty : ℚ := max (1 / 5) (1 - readinessFailures results * (1 / 25))
    round6 (max (registered * successRate results * readinessPenalty) (1 / 100))

/-- `_performance_score`, of a miner that registered a performance of its own. -/
def performanceScore (registered : ℚ) (results : List ProbeResult) : ℚ :=
  if results = [] then max (registered * (1 / 2)) (1 / 100)
  else
    let successful := results.filter ProbeResult.success
    if successful = [] then 1 / 100
    else
      let latencyComponent := min 1 (1000 / max (median (successful.map ProbeResult.latencyMs)) 1)
      let throughputComponent := min 2 (median (successful.map ProbeResult.throughput) / 100)
      round6 (max (latencyComponent * (1 / 2) + throughputComponent * (1 / 2)) (1 / 100))

/-- `_proxy_penalty` -/
def proxyPenalty (settings : ScoreSettings) (results : List ProbeResult) : ℚ :=
  let proxyRate : ℚ := results.countP ProbeResult.proxySuspected / results.length
  if proxyRate ≤ settings.fraudProxyNoiseFloor then 1
  else if proxyRate ≤ settings.fraudProxyHighThreshold then 7 / 10
  else 2 / 5

/-- The square of `_coefficient_of_variation`. -/
def variationSquared (values : List ℚ) : ℚ :=
  if values.length < 2 then 0
  else
    let mean := values.sum / values.length
    if mean ≤ 0 then 0
    else (values.map fun value ↦ (value - mean) ^ 2).sum / values.length / mean ^ 2

/-- `_consistency_penalty` -/
def consistencyPenalty (results : List ProbeResult) : ℚ :=
  let successful := results.filter ProbeResult.success
  if successful.length < 2 then 1
  else
    let spreadSquared := max (variationSquared (successful.map ProbeResult.latencyMs))
      (variationSquared (successful.map ProbeResult.throughput))
    if (6 / 10) ^ 2 ≤ spreadSquared then 7 / 10
    else if (3 / 10) ^ 2 ≤ spreadSquared then 17 / 20
    else 1

/-- The results that carry a signature. -/
def signed (results : List ProbeResult) : List ProbeResult :=
  results.filter fun r ↦ r.benchmarkSignature.getD [] ≠ []

/-- `_FRAUD_SIGNATURE_WINDOW` -/
def fraudSignatureWindow : ℕ := 10

/-- The signatures of the latest results that carry one. -/
def recentSignatures (results : List ProbeResult) : List (Option Text) :=
  let sorted := (signed results).insertionSort fun a b ↦ a.observedAt ≤ b.observedAt
  ((sorted.reverse.take fraudSignatureWindow).map ProbeResult.benchmarkSignature).dedup

/-- `_fraud_penalty` -/
def fraudPenalty (settings : ScoreSettings) (results : List ProbeResult) : ℚ :=
  if results = [] then 1
  else
    let signaturePenalty : ℚ := if 1 < (recentSignatures results).length then 3 / 4 else 1
    let readinessPenalty : ℚ := max (1 / 5) (1 - readinessFailures results * (3 / 100))
    let successPenalty := max (1 / 5) (successRate results)
    round6 (signaturePenalty * proxyPenalty settings results * consistencyPenalty results *
      readinessPenalty * successPenalty)

/-- `_utilization_factor` -/
def utilizationFactor : Option FluxState → ℚ
  | none => 1 / 2
  | some state =>
    if state.totalGpus = 0 then 1 / 2
    else round6 (max ((state.inferenceGpus + state.rentalGpus : ℕ) / (state.totalGpus : ℚ))
      (1 / 100))

/-- `_rental_revenue_bonus` -/
def rentalRevenueBonus (settings : ScoreSettings) : Option FluxState → ℚ
  | none => 0
  | some state =>
    if state.totalGpus = 0 then 0
    else round6 (min (state.rentalGpus / (state.totalGpus : ℚ) * (1 / 5))
      settings.rentalRevenueBonusCap)

/-- `compute_scorecard` -/
def computeScorecard (settings : ScoreSettings) (capability : NodeCapability)
    (results : List ProbeResult) (flux : Option FluxState) : ScoreCard :=
  let capacityWeight : ℚ := capability.gpuCount * capability.vramGbPerGpu
  let reliability := reliabilityScore capability.reliabilityScore results
  let performance := performanceScore capability.performanceScore results
  let security := 1
  let fraudPenalty := fraudPenalty settings results
  let utilization := utilizationFactor flux
  let rentalBonus := rentalRevenueBonus settings flux
  { hotkey := capability.hotkey
    capacityWeight := capacityWeight
    reliabilityScore := reliability
    performanceScore := performance
    securityScore := security
    fraudPenalty := fraudPenalty
    utilizationScore := utilization
    rentalRevenueBonus := rentalBonus
    finalScore := round6 (capacityWeight * settings.power security settings.scoreAlpha *
      settings.power reliability settings.scoreBeta *
      settings.power performance settings.scoreGamma * fraudPenalty *
      settings.power utilization settings.scoreDelta * (1 + rentalBonus)) }

/-! ## The order of the probes -/

section Order

variable {results results' : List ProbeResult}

theorem median_perm {data data' : List ℚ} (h : data.Perm data') : median data = median data' := by
  have hsorted : data.insertionSort (· ≤ ·) = data'.insertionSort (· ≤ ·) :=
    (((List.perm_insertionSort _ data).trans h).trans
      (List.perm_insertionSort _ data').symm).eq_of_pairwise'
        (List.pairwise_insertionSort _ _) (List.pairwise_insertionSort _ _)
  rw [median, median, hsorted, h.length_eq]

theorem variationSquared_perm {values values' : List ℚ} (h : values.Perm values') :
    variationSquared values = variationSquared values' := by
  have hsquares (mean : ℚ) : (values.map fun value ↦ (value - mean) ^ 2).sum =
      (values'.map fun value ↦ (value - mean) ^ 2).sum := (h.map _).sum_eq
  rw [variationSquared, variationSquared, h.length_eq, h.sum_eq]
  simp only [hsquares]

theorem readinessFailures_perm (h : results.Perm results') :
    readinessFailures results = readinessFailures results' := (h.map _).sum_eq

theorem successRate_perm (h : results.Perm results') :
    successRate results = successRate results' := by
  rw [successRate, successRate, h.countP_eq, h.length_eq]

theorem nil_iff_of_perm {α : Type} {l l' : List α} (h : l.Perm l') : l = [] ↔ l' = [] := by
  rw [← List.length_eq_zero_iff, ← List.length_eq_zero_iff, h.length_eq]

theorem reliabilityScore_perm (registered : ℚ) (h : results.Perm results') :
    reliabilityScore registered results = reliabilityScore registered results' := by
  simp only [reliabilityScore, readinessFailures_perm h, successRate_perm h, nil_iff_of_perm h]

theorem performanceScore_perm (registered : ℚ) (h : results.Perm results') :
    performanceScore registered results = performanceScore registered results' := by
  have hsuccessful := h.filter ProbeResult.success
  have hlatency := median_perm (hsuccessful.map ProbeResult.latencyMs)
  have hthroughput := median_perm (hsuccessful.map ProbeResult.throughput)
  simp only [performanceScore, hlatency, hthroughput, nil_iff_of_perm h,
    nil_iff_of_perm hsuccessful]

theorem proxyPenalty_perm (settings : ScoreSettings) (h : results.Perm results') :
    proxyPenalty settings results = proxyPenalty settings results' := by
  rw [proxyPenalty, proxyPenalty, h.countP_eq, h.length_eq]

theorem consistencyPenalty_perm (h : results.Perm results') :
    consistencyPenalty results = consistencyPenalty results' := by
  have hsuccessful := h.filter ProbeResult.success
  have hlatency := variationSquared_perm (hsuccessful.map ProbeResult.latencyMs)
  have hthroughput := variationSquared_perm (hsuccessful.map ProbeResult.throughput)
  rw [consistencyPenalty, consistencyPenalty]
  simp only [hlatency, hthroughput, hsuccessful.length_eq]

/-- Results that were observed at different times have one order. -/
theorem insertionSort_observedAt_perm (h : results.Perm results')
    (hnodup : (results.map ProbeResult.observedAt).Nodup) :
    results.insertionSort (fun a b ↦ a.observedAt ≤ b.observedAt) =
      results'.insertionSort (fun a b ↦ a.observedAt ≤ b.observedAt) := by
  have htotal : Std.Total fun a b : ProbeResult ↦ a.observedAt ≤ b.observedAt :=
    ⟨fun a b ↦ le_total a.observedAt b.observedAt⟩
  have htrans : IsTrans ProbeResult fun a b ↦ a.observedAt ≤ b.observedAt :=
    ⟨fun _ _ _ ↦ le_trans⟩
  have hinj := List.inj_on_of_nodup_map hnodup
  have hperm : (results.insertionSort fun a b ↦ a.observedAt ≤ b.observedAt).Perm
      (results'.insertionSort fun a b ↦ a.observedAt ≤ b.observedAt) :=
    ((List.perm_insertionSort _ _).trans h).trans (List.perm_insertionSort _ _).symm
  refine hperm.eq_of_pairwise (fun a b ha hb hab hba ↦ ?_)
    (List.pairwise_insertionSort _ _) (List.pairwise_insertionSort _ _)
  have ha' : a ∈ results := (List.mem_insertionSort _).mp ha
  have hb' : b ∈ results := h.mem_iff.mpr ((List.mem_insertionSort _).mp hb)
  exact hinj ha' hb' (le_antisymm hab hba)

theorem recentSignatures_perm (h : results.Perm results')
    (hnodup : ((signed results).map ProbeResult.observedAt).Nodup) :
    recentSignatures results = recentSignatures results' := by
  have hsigned : (signed results).Perm (signed results') := h.filter _
  rw [recentSignatures, recentSignatures, insertionSort_observedAt_perm hsigned hnodup]

theorem fraudPenalty_perm (settings : ScoreSettings) (h : results.Perm results')
    (hnodup : ((signed results).map ProbeResult.observedAt).Nodup) :
    fraudPenalty settings results = fraudPenalty settings results' := by
  simp only [fraudPenalty, recentSignatures_perm h hnodup, proxyPenalty_perm settings h,
    consistencyPenalty_perm h, readinessFailures_perm h, successRate_perm h, nil_iff_of_perm h]

end Order

end ScoreEngine

end GreenCompute
