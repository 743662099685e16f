import JavaExamples.Trend.Mirror

/-!
# The direction of a verdict

Where no delta is positive, nothing has improved; where none is negative, nothing has degraded. The
algorithms that compare levels agree, except for `WilcoxonAlgorithm`: it calls a significant
difference an improvement unless the median is negative, and the median of mostly zeros is zero.

* `improvement_iff_of_nonpos`: when `WilcoxonAlgorithm` reports an improvement though no delta is
  positive.
* `pointsRight_iff`: when no algorithm points the wrong way.
-/

namespace Trend

def IsImprovement (status : TrendStatus) : Prop :=
  status = .IMPROVEMENT ∨ status = .STRONG_IMPROVEMENT ∨ status = .SIGNIFICANT_IMPROVEMENT ∨
    status = .ANOMALOUS_IMPROVEMENT

instance (status : TrendStatus) : Decidable (IsImprovement status) :=
  inferInstanceAs (Decidable (_ ∨ _))

def IsDegradation (status : TrendStatus) : Prop :=
  status = .DEGRADATION ∨ status = .STRONG_DEGRADATION ∨ status = .SIGNIFICANT_DEGRADATION ∨
    status = .ANOMALOUS_DEGRADATION

instance (status : TrendStatus) : Decidable (IsDegradation status) :=
  inferInstanceAs (Decidable (_ ∨ _))

theorem isImprovement_mirror (status : TrendStatus) :
    IsImprovement (mirror status) ↔ IsDegradation status := by
  cases status with
  | _ => decide

/-- The verdict does not contradict deltas that all have one sign. -/
def PointsRight (algorithm : TrendAlgorithm) (input : TrendInput) : Prop :=
  ((∀ d ∈ input.delta, d ≤ 0) → ¬IsImprovement (algorithm input).status) ∧
    ((∀ d ∈ input.delta, 0 ≤ d) → ¬IsDegradation (algorithm input).status)

/-- The signed rank test, exact where asked for; `asymptotic` is its other p-value. -/
def signedRankTest (asymptotic : List ℚ → List ℚ → ℚ) (x y : List ℚ) (exact : Bool) : ℚ :=
  if exact then SignedRank.exactPValue x.length (wilcoxonSignedRank x y) else asymptotic x y

variable {input : TrendInput}

/-! ## Averages and sums -/

/-- An algorithm that is mirrored and reports no improvement without positive deltas points
right. -/
theorem pointsRight_of_mirrors {algorithm : TrendAlgorithm}
    (hmirrors : Mirrors algorithm input { input with delta := input.delta.map Neg.neg })
    (h : ∀ delta : List ℚ, (∀ d ∈ delta, d ≤ 0) →
      ¬IsImprovement (algorithm { input with delta }).status) : PointsRight algorithm input := by
  refine ⟨h input.delta, fun hnonneg => ?_⟩
  rw [← isImprovement_mirror, ← hmirrors]
  apply h
  intro d hd
  obtain ⟨d', hd', rfl⟩ := List.mem_map.mp hd
  exact neg_nonpos.mpr (hnonneg d' hd')

theorem not_isImprovement_classify {value warn strong : ℚ} (hvalue : value ≤ 0) (hwarn : 0 < warn)
    (hstrong : warn ≤ strong) :
    ¬IsImprovement (DirectionalStatusClassifier.classify value warn strong) := by
  unfold DirectionalStatusClassifier.classify
  -- the two thresholds of an improvement are positive
  rw [if_neg (by linarith : ¬value ≥ strong), if_neg (by linarith : ¬value ≥ warn)]
  split
  · decide
  · split
    · decide
    · decide

theorem sum_nonpos {values : List ℚ} (h : ∀ value ∈ values, value ≤ 0) : values.sum ≤ 0 := by
  induction values with
  | nil => exact le_refl 0
  | cons value values ih =>
    obtain ⟨hvalue, hrest⟩ := List.forall_mem_cons.mp h
    rw [List.sum_cons]
    exact add_nonpos hvalue (ih hrest)

theorem mean_nonpos {values : List ℚ} (h : ∀ value ∈ values, value ≤ 0) : mean values ≤ 0 :=
  div_nonpos_of_nonpos_of_nonneg (sum_nonpos h) (Nat.cast_nonneg _)

theorem mean_nonneg {values : List ℚ} (h : ∀ value ∈ values, 0 ≤ value) : 0 ≤ mean values := by
  have hvalues : ∀ value ∈ values.map Neg.neg, value ≤ 0 := by
    intro value hvalue
    obtain ⟨value', hvalue', rfl⟩ := List.mem_map.mp hvalue
    exact neg_nonpos.mpr (h value' hvalue')
  have hneg := mean_nonpos hvalues
  rw [mean_map_neg] at hneg
  exact neg_nonpos.mp hneg

theorem meanDelta_pointsRight : PointsRight MeanDeltaAlgorithm.analyze input := by
  apply pointsRight_of_mirrors (meanDelta_mirrors rfl)
  intro delta hdelta
  exact not_isImprovement_classify (mean_nonpos hdelta) (by norm_num [MeanDeltaAlgorithm.WARN])
    (by norm_num [MeanDeltaAlgorithm.WARN, MeanDeltaAlgorithm.STRONG])

theorem medianOf_nonpos {values : List ℚ} (h : ∀ value ∈ values, value ≤ 0) :
    medianOf values ≤ 0 := by
  by_cases hnil : values = []
  · subst hnil
    decide +kernel
  · rw [medianOf_eq_median hnil]
    exact Median.median_nonpos h

theorem medianDelta_pointsRight (hne : input.delta ≠ []) :
    PointsRight MedianDeltaAlgorithm.analyze input := by
  apply pointsRight_of_mirrors (medianDelta_mirrors rfl hne)
  intro delta hdelta
  exact not_isImprovement_classify (medianOf_nonpos hdelta)
    (by norm_num [MedianDeltaAlgorithm.WARN])
    (by norm_num [MedianDeltaAlgorithm.WARN, MedianDeltaAlgorithm.STRONG])

theorem average_nonpos {delta : List ℚ} (h : ∀ d ∈ delta, d ≤ 0) :
    EwmaAlgorithm.average delta ≤ 0 := by
  unfold EwmaAlgorithm.average
  -- both weights are positive, so that the average stays where it is not positive
  refine List.foldlRecOn (motive := fun value => value ≤ 0) delta _ (le_refl 0)
    fun value hvalue sample hsample => ?_
  have hsample' := h sample hsample
  norm_num [EwmaAlgorithm.LAMBDA]
  linarith

theorem ewma_pointsRight : PointsRight EwmaAlgorithm.analyze input := by
  apply pointsRight_of_mirrors (ewma_mirrors rfl)
  intro delta hdelta
  have hexceeds : ¬exceedsRoot (EwmaAlgorithm.average delta)
      (EwmaAlgorithm.limitSquared delta.length) :=
    fun hexceeds => absurd hexceeds.1 (not_lt.mpr (average_nonpos hdelta))
  show ¬IsImprovement (if _ then _ else if _ then _ else _)
  rw [if_neg hexceeds]
  split
  · decide
  · decide

/-- Without positive samples the sum for the upper side never leaves zero. -/
theorem sums_maxPositive {delta : List ℚ} (h : ∀ d ∈ delta, d ≤ 0) :
    (CusumAlgorithm.sums delta).maxPositive = 0 := by
  have hboth : (CusumAlgorithm.sums delta).positive = 0 ∧
      (CusumAlgorithm.sums delta).maxPositive = 0 := by
    unfold CusumAlgorithm.sums
    refine List.foldlRecOn (motive := fun s : CusumAlgorithm.Sums =>
        s.positive = 0 ∧ s.maxPositive = 0) delta _ ⟨rfl, rfl⟩ fun s hs sample hsample => ?_
    have hz : 0 + sample / CusumAlgorithm.EXPECTED_SIGMA - CusumAlgorithm.K ≤ 0 := by
      have hsample' := h sample hsample
      norm_num [CusumAlgorithm.EXPECTED_SIGMA, CusumAlgorithm.K]
      linarith
    simp only [CusumAlgorithm.add, hs.1, hs.2, max_eq_left hz, max_self, and_self]
  exact hboth.2

theorem cusum_pointsRight : PointsRight CusumAlgorithm.analyze input := by
  apply pointsRight_of_mirrors (cusum_mirrors rfl)
  intro delta hdelta
  have hmax : ¬(CusumAlgorithm.sums delta).maxPositive ≥ CusumAlgorithm.H := by
    rw [sums_maxPositive hdelta]
    norm_num [CusumAlgorithm.H]
  show ¬IsImprovement (if _ then _ else if _ then _ else if _ then _ else _)
  rw [if_neg fun hboth => hmax hboth.2, if_neg hmax]
  split
  · decide
  · decide

/-! ## Tests of significance -/

/-- The mean that decides on the direction is not zero. -/
theorem pairedTTest_pointsRight (pairedTTest : List ℚ → List ℚ → ℚ) :
    PointsRight (PairedTTestAlgorithm.analyze pairedTTest) input := by
  unfold PointsRight PairedTTestAlgorithm.analyze
  by_cases hzero : mean input.delta = 0
  · simp only [if_pos hzero]
    exact ⟨fun _ => by decide, fun _ => by decide⟩
  simp only [if_neg hzero]
  constructor
  · intro hnonpos
    rw [if_pos (lt_of_le_of_ne (mean_nonpos hnonpos) hzero)]
    split
    · decide
    · decide
  · intro hnonneg
    rw [if_neg (not_lt.mpr (mean_nonneg hnonneg))]
    split
    · decide
    · decide

/-- With deltas that are not negative the median is not, and there is no degradation. -/
theorem wilcoxon_not_isDegradation (test : List ℚ → List ℚ → Bool → ℚ) (hne : input.delta ≠ [])
    (h : ∀ d ∈ input.delta, 0 ≤ d) :
    ¬IsDegradation (WilcoxonAlgorithm.analyze test input).status := by
  have hmedian : ¬medianOf input.delta < 0 := by
    rw [medianOf_eq_median hne]
    exact not_lt.mpr (Median.median_nonneg h)
  rw [WilcoxonAlgorithm.status_analyze, if_neg hmedian]
  split
  · decide
  · split
    · decide
    · decide

/-- Without positive deltas, an improvement is a significant difference with a zero median. -/
theorem improvement_iff_of_nonpos (test : List ℚ → List ℚ → Bool → ℚ) (hne : input.delta ≠ [])
    (h : ∀ d ∈ input.delta, d ≤ 0) :
    IsImprovement (WilcoxonAlgorithm.analyze test input).status ↔
      (∃ d ∈ input.delta, d < 0) ∧ input.delta.length < 2 * input.delta.count 0 ∧
        test input.reference input.current (decide (input.current.length ≤ 30)) <
          WilcoxonAlgorithm.ALPHA := by
  have hmedian : medianOf input.delta < 0 ↔ ¬input.delta.length < 2 * input.delta.count 0 := by
    rw [medianOf_eq_median hne, ← Median.median_eq_zero_iff h hne]
    exact (Median.median_nonpos h).lt_iff_ne
  have hsome : (∃ d ∈ input.delta, d < 0) ↔ ¬∀ d ∈ input.delta, d = 0 := by
    push Not
    exact exists_congr fun d => and_congr_right fun hd => (h d hd).lt_iff_ne
  rw [WilcoxonAlgorithm.status_analyze, hsome]
  simp only [hmedian, ge_iff_le, ← not_lt]
  by_cases hzero : ∀ d ∈ input.delta, d = 0
  · rw [if_pos hzero]
    exact iff_of_false (by decide) fun hboth => hboth.1 hzero
  rw [if_neg hzero]
  by_cases hp : test input.reference input.current (decide ¬30 < input.current.length) <
      WilcoxonAlgorithm.ALPHA
  · rw [if_neg (not_not.mpr hp)]
    by_cases hhalf : input.delta.length < 2 * input.delta.count 0
    · rw [if_neg (not_not.mpr hhalf)]
      exact iff_of_true (by decide) ⟨hzero, hhalf, hp⟩
    · rw [if_pos hhalf]
      exact iff_of_false (by decide) fun hboth => hhalf hboth.2.1
  · rw [if_pos hp]
    exact iff_of_false (by decide) fun hboth => hp hboth.2.2

/-- The exact p-value of deltas without a positive one depends on their number alone. -/
theorem signedRankTest_lt_iff_of_nonpos (asymptotic : List ℚ → List ℚ → ℚ)
    {current reference : List ℚ} (hlen : current.length = reference.length)
    (h : ∀ d ∈ (TrendInput.build current reference).delta, d ≤ 0) :
    signedRankTest asymptotic reference current true < WilcoxonAlgorithm.ALPHA ↔
      6 ≤ current.length := by
  have hlen' := (TrendInput.length_delta_build hlen).trans hlen
  have hpositive : SignedRank.rankSum (fun d => 0 < d)
      (TrendInput.build current reference).delta = 0 := by
    apply SignedRank.rankSum_eq_zero
    intro d hd
    exact decide_eq_false (not_lt.mpr (h d hd))
  have htotal : 0 ≤ SignedRank.total reference.length := by
    unfold SignedRank.total
    positivity
  have hp : signedRankTest asymptotic reference current true = 2 / 2 ^ reference.length := by
    show SignedRank.exactPValue reference.length (wilcoxonSignedRank reference current) = _
    rw [wilcoxonSignedRank, TrendInput.zipWith_swap_eq_delta, hlen', hpositive, sub_zero,
      max_eq_right htotal, SignedRank.exactPValue_total]
  rw [hp, hlen, div_lt_iff₀ (by positivity)]
  -- `2 / 2 ^ n` falls below `1 / 20` between five and six samples
  constructor
  · intro hlt
    by_contra hfew
    have hpow : (2 : ℚ) ^ reference.length ≤ 2 ^ 5 :=
      pow_le_pow_right₀ one_le_two (by omega)
    norm_num [WilcoxonAlgorithm.ALPHA] at hlt hpow
    linarith
  · intro hmany
    have hpow : (2 : ℚ) ^ 6 ≤ 2 ^ reference.length := pow_le_pow_right₀ one_le_two hmany
    norm_num [WilcoxonAlgorithm.ALPHA] at hpow ⊢
    linarith

/-! ## All of them -/

/-- The algorithms that compare levels. -/
def levelTrends (pairedTTest asymptotic : List ℚ → List ℚ → ℚ) : List TrendAlgorithm :=
  [MeanDeltaAlgorithm.analyze, MedianDeltaAlgorithm.analyze,
    PairedTTestAlgorithm.analyze pairedTTest,
    WilcoxonAlgorithm.analyze (signedRankTest asymptotic), EwmaAlgorithm.analyze,
    CusumAlgorithm.analyze]

/-- No delta is positive and some are negative, but more than half are zero, and the samples are
enough for significance. -/
def Misleading (asymptotic : List ℚ → List ℚ → ℚ) (input : TrendInput) : Prop :=
  (∀ d ∈ input.delta, d ≤ 0) ∧ (∃ d ∈ input.delta, d < 0) ∧
    input.delta.length < 2 * input.delta.count 0 ∧
    if input.current.length ≤ 30 then 6 ≤ input.current.length
    else asymptotic input.reference input.current < WilcoxonAlgorithm.ALPHA

/-- On an accepted input, no algorithm points the wrong way exactly if it is not misleading. -/
theorem pointsRight_iff (pairedTTest asymptotic : List ℚ → List ℚ → ℚ)
    {current reference : List ℚ} {input : TrendInput}
    (h : TrendInput.of (some current) (some reference) = .ok input) :
    (∀ algorithm ∈ levelTrends pairedTTest asymptotic, PointsRight algorithm input) ↔
      ¬Misleading asymptotic input := by
  obtain ⟨⟨hlen, hthree, -, -⟩, rfl⟩ := TrendInput.of_eq_ok_iff.mp h
  have hne := TrendInput.delta_build_ne_nil hlen hthree
  -- the p-value that `Misleading` asks for
  have hp : (∀ d ∈ (TrendInput.build current reference).delta, d ≤ 0) →
      (signedRankTest asymptotic reference current (decide (current.length ≤ 30)) <
        WilcoxonAlgorithm.ALPHA ↔
          if current.length ≤ 30 then 6 ≤ current.length
          else asymptotic reference current < WilcoxonAlgorithm.ALPHA) := by
    intro hnonpos
    by_cases hexact : current.length ≤ 30
    · rw [decide_eq_true hexact, if_pos hexact]
      exact signedRankTest_lt_iff_of_nonpos asymptotic hlen hnonpos
    · rw [decide_eq_false hexact, if_neg hexact]
      rfl
  have hwilcoxon : PointsRight (WilcoxonAlgorithm.analyze (signedRankTest asymptotic))
      (TrendInput.build current reference) ↔
        ¬Misleading asymptotic (TrendInput.build current reference) := by
    constructor
    · rintro hright ⟨hnonpos, hsome, hhalf, henough⟩
      refine hright.1 hnonpos ((improvement_iff_of_nonpos _ hne hnonpos).mpr ⟨hsome, hhalf, ?_⟩)
      exact (hp hnonpos).mpr henough
    · intro hmisleading
      refine ⟨fun hnonpos himprovement => hmisleading ?_, wilcoxon_not_isDegradation _ hne⟩
      obtain ⟨hsome, hhalf, hlt⟩ := (improvement_iff_of_nonpos _ hne hnonpos).mp himprovement
      exact ⟨hnonpos, hsome, hhalf, (hp hnonpos).mp hlt⟩
  rw [← hwilcoxon]
  constructor
  · intro hall
    exact hall _ (by simp [levelTrends])
  · intro hright
    simp only [levelTrends, List.forall_mem_cons, List.not_mem_nil, false_imp_iff, implies_true,
      and_true]
    exact ⟨meanDelta_pointsRight, medianDelta_pointsRight hne, pairedTTest_pointsRight _, hright,
      ewma_pointsRight, cusum_pointsRight⟩

theorem of_level_raised :
    TrendInput.of (some level) (some raised) = .ok (TrendInput.build level raised) :=
  TrendInput.of_eq_ok_iff.mpr ⟨⟨by decide, by decide, rates_level, rates_raised⟩, rfl⟩

/-- Six samples that have all fallen mislead no algorithm, one among six does. -/
theorem pointsRight_iff_shifted_raised :
    (∀ algorithm ∈ levelTrends (fun _ _ => 1) (fun _ _ => 1),
      PointsRight algorithm (TrendInput.build level shifted)) ∧
    ¬∀ algorithm ∈ levelTrends (fun _ _ => 1) (fun _ _ => 1),
      PointsRight algorithm (TrendInput.build level raised) := by
  constructor
  · have hinput : TrendInput.of (some level) (some shifted) =
        .ok (TrendInput.build level shifted) :=
      TrendInput.of_eq_ok_iff.mpr ⟨⟨by decide, by decide, rates_level, rates_shifted⟩, rfl⟩
    apply (pointsRight_iff (fun _ _ => 1) (fun _ _ => 1) hinput).mpr
    rintro ⟨-, -, hhalf, -⟩
    -- no delta is zero
    exact absurd hhalf (by decide +kernel)
  · rw [pointsRight_iff (fun _ _ => 1) (fun _ _ => 1) of_level_raised, not_not]
    exact ⟨by decide +kernel, by decide +kernel, by decide +kernel, by decide⟩

/-- One of six samples has fallen, and `WilcoxonAlgorithm` reports a significant improvement. -/
theorem not_pointsRight_level_raised :
    ¬∀ (pairedTTest asymptotic : List ℚ → List ℚ → ℚ) (current reference : List ℚ)
      (input : TrendInput), TrendInput.of (some current) (some reference) = .ok input →
        ∀ algorithm ∈ levelTrends pairedTTest asymptotic, PointsRight algorithm input := by
  intro hclaim
  have hright := hclaim (fun _ _ => 1) (fun _ _ => 1) level raised _ of_level_raised
    (WilcoxonAlgorithm.analyze (signedRankTest fun _ _ => 1)) (by simp [levelTrends])
  have hnonpos : ∀ d ∈ (TrendInput.build level raised).delta, d ≤ 0 := by decide +kernel
  have hstatus : (WilcoxonAlgorithm.analyze (signedRankTest fun _ _ => 1)
      (TrendInput.build level raised)).status = .SIGNIFICANT_IMPROVEMENT := by decide +kernel
  apply hright.1 hnonpos
  rw [hstatus]
  decide

end Trend
