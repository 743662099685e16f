import JavaExamples.Trend.TheilSen

/-!
# Swapping the two series

Comparing the reference with the current series negates every delta. An algorithm that treats both
directions alike then returns the mirror image of its verdict. `WilcoxonAlgorithm` does not: its
test counts zeros on the negative side, and a median of zero is an improvement both ways.
`TheilSenSlopeAlgorithm` returns nothing either way where there are too many samples.

* `classify_neg`, `average_map_neg`, `sums_map_neg`: the verdicts of the other algorithms turn
  around.
* `wilcoxon_mirrors_iff`: when that of `WilcoxonAlgorithm` does.
* `significant_iff_of_ne_zero`: without zeros, its test does not depend on the order of the series.
* `theilSenSlope_mirrorsCalls_iff`: when `TheilSenSlopeAlgorithm` returns both verdicts.
* `mirrors_iff`: when all six do.
-/

namespace Trend

/-- The verdict of the same strength in the other direction. -/
def mirror : TrendStatus → TrendStatus
  | .STRONG_IMPROVEMENT => .STRONG_DEGRADATION
  | .IMPROVEMENT => .DEGRADATION
  | .DEGRADATION => .IMPROVEMENT
  | .STRONG_DEGRADATION => .STRONG_IMPROVEMENT
  | .SIGNIFICANT_IMPROVEMENT => .SIGNIFICANT_DEGRADATION
  | .SIGNIFICANT_DEGRADATION => .SIGNIFICANT_IMPROVEMENT
  | .ANOMALOUS_IMPROVEMENT => .ANOMALOUS_DEGRADATION
  | .ANOMALOUS_DEGRADATION => .ANOMALOUS_IMPROVEMENT
  | status => status

/-- The verdicts on two inputs are mirror images. -/
def Mirrors (algorithm : TrendAlgorithm) (input swapped : TrendInput) : Prop :=
  (algorithm swapped).status = mirror (algorithm input).status

/-- Both calls return, and their verdicts are mirror images. -/
def MirrorsCalls (algorithm : TrendInput → Except Failure TrendResult)
    (input swapped : TrendInput) : Prop :=
  ∃ result result', algorithm input = .ok result ∧ algorithm swapped = .ok result' ∧
    result'.status = mirror result.status

/-- A call that always returns. -/
def TrendAlgorithm.call (algorithm : TrendAlgorithm) (input : TrendInput) :
    Except Failure TrendResult :=
  .ok (algorithm input)

theorem mirrorsCalls_call_iff {algorithm : TrendAlgorithm} {input swapped : TrendInput} :
    MirrorsCalls algorithm.call input swapped ↔ Mirrors algorithm input swapped := by
  constructor
  · rintro ⟨result, result', hresult, hresult', hstatus⟩
    rw [← Except.ok.inj hresult, ← Except.ok.inj hresult'] at hstatus
    exact hstatus
  · intro h
    exact ⟨_, _, rfl, rfl, h⟩

/-- A signed rank test whose p-value depends on the length and the larger rank sum alone. -/
def rankTest (p : ℕ → ℚ → ℚ) (x y : List ℚ) (_exact : Bool) : ℚ :=
  p x.length (wilcoxonSignedRank x y)

/-! ## Negated deltas -/

theorem delta_build_swap (current reference : List ℚ) :
    (TrendInput.build reference current).delta =
      (TrendInput.build current reference).delta.map Neg.neg := by
  show List.zipWith (fun r c => r - c) reference current =
    (List.zipWith (fun c r => c - r) current reference).map Neg.neg
  rw [List.map_zipWith, List.zipWith_comm]
  simp only [neg_sub]

theorem mean_map_neg (values : List ℚ) : mean (values.map Neg.neg) = -mean values := by
  have hsum : (values.map Neg.neg).sum = -values.sum := by
    induction values with
    | nil => simp
    | cons value values ih =>
      rw [List.map_cons, List.sum_cons, ih, List.sum_cons]
      ring
  rw [mean, hsum, List.length_map, neg_div, mean]

theorem medianOf_map_neg {values : List ℚ} (h : values ≠ []) :
    medianOf (values.map Neg.neg) = -medianOf values := by
  have h' : values.map Neg.neg ≠ [] := by simpa using h
  rw [medianOf_eq_median h', medianOf_eq_median h, Median.median_map_neg]

theorem getD_map_neg (values : List ℚ) (i : ℕ) :
    (values.map Neg.neg).getD i 0 = -values.getD i 0 := by
  rw [List.getD_eq_getElem?_getD, List.getD_eq_getElem?_getD, List.getElem?_map]
  cases values[i]? with
  | none => simp
  | some value => rfl

theorem slopes_map_neg (delta : List ℚ) :
    TheilSenSlopeAlgorithm.slopes (delta.map Neg.neg) =
      (TheilSenSlopeAlgorithm.slopes delta).map Neg.neg := by
  unfold TheilSenSlopeAlgorithm.slopes
  rw [List.map_flatMap, List.length_map]
  congr 1
  ext1 i
  rw [List.map_map]
  congr 1
  ext1 j
  show ((delta.map Neg.neg).getD j 0 - (delta.map Neg.neg).getD i 0) / _ = -(_ / _)
  rw [getD_map_neg, getD_map_neg]
  ring

theorem average_map_neg (delta : List ℚ) :
    EwmaAlgorithm.average (delta.map Neg.neg) = -EwmaAlgorithm.average delta := by
  -- from any average that the loop has reached
  have hfold : ∀ value : ℚ, (delta.map Neg.neg).foldl
      (fun value sample => EwmaAlgorithm.LAMBDA * sample + (1 - EwmaAlgorithm.LAMBDA) * value)
        (-value) = -delta.foldl (fun value sample =>
          EwmaAlgorithm.LAMBDA * sample + (1 - EwmaAlgorithm.LAMBDA) * value) value := by
    induction delta with
    | nil => exact fun value => rfl
    | cons sample delta ih =>
      intro value
      rw [List.map_cons, List.foldl_cons, List.foldl_cons, ← ih]
      congr 1
      ring
  have hzero := hfold 0
  rwa [neg_zero] at hzero

/-- The sums for the two directions change places. -/
def CusumAlgorithm.Sums.swap (s : CusumAlgorithm.Sums) : CusumAlgorithm.Sums :=
  { positive := s.negative
    negative := s.positive
    maxPositive := s.maxNegative
    maxNegative := s.maxPositive }

theorem add_swap (s : CusumAlgorithm.Sums) (sample : ℚ) :
    CusumAlgorithm.add s.swap (-sample) = (CusumAlgorithm.add s sample).swap := by
  simp only [CusumAlgorithm.add, CusumAlgorithm.Sums.swap, neg_div, sub_neg_eq_add,
    ← sub_eq_add_neg]

theorem sums_map_neg (delta : List ℚ) :
    CusumAlgorithm.sums (delta.map Neg.neg) = (CusumAlgorithm.sums delta).swap := by
  have hfold : ∀ s : CusumAlgorithm.Sums, (delta.map Neg.neg).foldl CusumAlgorithm.add s.swap =
      (delta.foldl CusumAlgorithm.add s).swap := by
    induction delta with
    | nil => exact fun s => rfl
    | cons sample delta ih =>
      intro s
      rw [List.map_cons, List.foldl_cons, List.foldl_cons, add_swap, ih]
  exact hfold ⟨0, 0, 0, 0⟩

/-! ## Verdicts -/

/-- With thresholds on both sides of zero, classification turns around with the sign. -/
theorem classify_neg {warn strong : ℚ} (hwarn : 0 < warn) (hstrong : warn ≤ strong) (value : ℚ) :
    DirectionalStatusClassifier.classify (-value) warn strong =
      mirror (DirectionalStatusClassifier.classify value warn strong) := by
  unfold DirectionalStatusClassifier.classify
  -- the five intervals of `value`, from below
  by_cases h₁ : value ≤ -strong
  · rw [if_neg (by linarith), if_neg (by linarith), if_pos (by linarith), if_pos h₁]
    rfl
  by_cases h₂ : value ≤ -warn
  · rw [if_neg (by linarith), if_neg (by linarith), if_neg (by linarith), if_pos (by linarith),
      if_neg h₁, if_pos h₂]
    rfl
  by_cases h₃ : value ≥ strong
  · rw [if_pos (by linarith), if_neg h₁, if_neg h₂, if_pos h₃]
    rfl
  by_cases h₄ : value ≥ warn
  · rw [if_neg (by linarith), if_pos (by linarith), if_neg h₁, if_neg h₂, if_neg h₃, if_pos h₄]
    rfl
  · rw [if_neg (by linarith), if_neg (by linarith), if_neg (by linarith), if_neg (by linarith),
      if_neg h₁, if_neg h₂, if_neg h₃, if_neg h₄]
    rfl

variable {current reference : List ℚ} {input swapped : TrendInput} {p : ℕ → ℚ → ℚ}

theorem meanDelta_mirrors (h : swapped.delta = input.delta.map Neg.neg) :
    Mirrors MeanDeltaAlgorithm.analyze input swapped := by
  show DirectionalStatusClassifier.classify (mean swapped.delta) _ _ = _
  rw [h, mean_map_neg]
  exact classify_neg (by norm_num [MeanDeltaAlgorithm.WARN])
    (by norm_num [MeanDeltaAlgorithm.WARN, MeanDeltaAlgorithm.STRONG]) _

theorem medianDelta_mirrors (h : swapped.delta = input.delta.map Neg.neg)
    (hne : input.delta ≠ []) : Mirrors MedianDeltaAlgorithm.analyze input swapped := by
  show DirectionalStatusClassifier.classify (medianOf swapped.delta) _ _ = _
  rw [h, medianOf_map_neg hne]
  exact classify_neg (by norm_num [MedianDeltaAlgorithm.WARN])
    (by norm_num [MedianDeltaAlgorithm.WARN, MedianDeltaAlgorithm.STRONG]) _

theorem medianSlope_mirrors (h : swapped.delta = input.delta.map Neg.neg)
    (hlen : 2 ≤ input.delta.length) :
    Mirrors TheilSenSlopeAlgorithm.medianSlope input swapped := by
  show DirectionalStatusClassifier.classify
    (medianOf (TheilSenSlopeAlgorithm.slopes swapped.delta)) _ _ = _
  rw [h, slopes_map_neg, medianOf_map_neg (TheilSenSlopeAlgorithm.slopes_ne_nil hlen)]
  exact classify_neg (by norm_num [TheilSenSlopeAlgorithm.WARN])
    (by norm_num [TheilSenSlopeAlgorithm.WARN, TheilSenSlopeAlgorithm.STRONG]) _

/-- Both calls return as long as the array of slopes can be filled. -/
theorem theilSenSlope_mirrorsCalls_iff (h : swapped.delta = input.delta.map Neg.neg)
    (hlen : 2 ≤ input.delta.length) :
    MirrorsCalls TheilSenSlopeAlgorithm.analyze input swapped ↔ input.delta.length ≤ 46341 := by
  constructor
  · rintro ⟨result, -, hresult, -, -⟩
    -- with more samples the first call throws
    by_contra hlt
    obtain ⟨failure, hfailure⟩ := TheilSenSlopeAlgorithm.analyze_of_lt (Nat.lt_of_not_le hlt)
    cases hfailure.symm.trans hresult
  · intro hle
    -- both series of deltas have one length
    have hle' : swapped.delta.length ≤ 46341 := by
      rw [h, List.length_map]
      exact hle
    exact ⟨_, _, TheilSenSlopeAlgorithm.analyze_of_le hle,
      TheilSenSlopeAlgorithm.analyze_of_le hle', medianSlope_mirrors h hlen⟩

/-- A number exceeds a root on one side of zero at most. -/
theorem not_exceedsRoot_neg {value r : ℚ} (h : exceedsRoot value r) : ¬exceedsRoot (-value) r :=
  fun hneg => absurd hneg.1 (by linarith [h.1])

theorem ewma_mirrors (h : swapped.delta = input.delta.map Neg.neg) :
    Mirrors EwmaAlgorithm.analyze input swapped := by
  unfold Mirrors EwmaAlgorithm.analyze
  simp only [h, average_map_neg, List.length_map, neg_neg]
  by_cases hup : exceedsRoot (EwmaAlgorithm.average input.delta)
      (EwmaAlgorithm.limitSquared input.delta.length)
  · rw [if_pos hup, if_neg (not_exceedsRoot_neg hup), if_pos hup]
    rfl
  · rw [if_neg hup]
    by_cases hdown : exceedsRoot (-EwmaAlgorithm.average input.delta)
        (EwmaAlgorithm.limitSquared input.delta.length)
    · rw [if_pos hdown, if_pos hdown]
      rfl
    · rw [if_neg hdown, if_neg hdown, if_neg hup]
      rfl

theorem cusum_mirrors (h : swapped.delta = input.delta.map Neg.neg) :
    Mirrors CusumAlgorithm.analyze input swapped := by
  unfold Mirrors CusumAlgorithm.analyze
  simp only [h, sums_map_neg, CusumAlgorithm.Sums.swap]
  by_cases hneg : (CusumAlgorithm.sums input.delta).maxNegative ≥ CusumAlgorithm.H
  · by_cases hpos : (CusumAlgorithm.sums input.delta).maxPositive ≥ CusumAlgorithm.H
    · rw [if_pos ⟨hpos, hneg⟩, if_pos ⟨hneg, hpos⟩]
      rfl
    · rw [if_neg fun hboth => hpos hboth.1, if_neg hpos, if_pos hneg,
        if_neg fun hboth => hpos hboth.2, if_pos hneg]
      rfl
  · by_cases hpos : (CusumAlgorithm.sums input.delta).maxPositive ≥ CusumAlgorithm.H
    · rw [if_neg fun hboth => hneg hboth.2, if_pos hpos, if_neg fun hboth => hneg hboth.1,
        if_neg hneg, if_pos hpos]
      rfl
    · rw [if_neg fun hboth => hneg hboth.2, if_neg hpos, if_neg hneg,
        if_neg fun hboth => hneg hboth.1, if_neg hneg, if_neg hpos]
      rfl

/-! ## The signed rank test -/

/-- The test is significant where the elements that qualify are the ones with a positive delta. -/
def Significant (p : ℕ → ℚ → ℚ) (qualifies : ℚ → Bool) (delta : List ℚ) : Prop :=
  p delta.length (max (SignedRank.rankSum qualifies delta)
    (SignedRank.total delta.length - SignedRank.rankSum qualifies delta)) < WilcoxonAlgorithm.ALPHA

instance (p : ℕ → ℚ → ℚ) (qualifies : ℚ → Bool) (delta : List ℚ) :
    Decidable (Significant p qualifies delta) := inferInstanceAs (Decidable (_ < _))

/-- Both orders of the series are significant or neither, and a significant median has a sign. -/
def Symmetric (p : ℕ → ℚ → ℚ) (delta : List ℚ) : Prop :=
  (∀ d ∈ delta, d = 0) ∨
    ((Significant p (fun d => 0 < d) delta ↔ Significant p (fun d => d < 0) delta) ∧
      (Significant p (fun d => 0 < d) delta → Median.median delta ≠ 0))

/-- The p-value in terms of the deltas. -/
theorem rankTest_lt_iff (hlen : current.length = reference.length) (exact : Bool) :
    rankTest p (TrendInput.build current reference).reference
        (TrendInput.build current reference).current exact < WilcoxonAlgorithm.ALPHA ↔
      Significant p (fun d => 0 < d) (TrendInput.build current reference).delta := by
  have hlen' : reference.length = (TrendInput.build current reference).delta.length := by
    rw [TrendInput.length_delta_build hlen, hlen]
  show rankTest p reference current exact < _ ↔ _
  rw [rankTest, wilcoxonSignedRank, TrendInput.zipWith_swap_eq_delta, hlen', Significant]

/-- Swapping turns the verdict of the signed rank test around exactly on symmetric deltas. -/
theorem wilcoxon_mirrors_iff (hlen : current.length = reference.length)
    (hne : (TrendInput.build current reference).delta ≠ []) :
    Mirrors (WilcoxonAlgorithm.analyze (rankTest p)) (TrendInput.build current reference)
        (TrendInput.build reference current) ↔
      Symmetric p (TrendInput.build current reference).delta := by
  rw [Mirrors, WilcoxonAlgorithm.status_analyze, WilcoxonAlgorithm.status_analyze]
  simp only [ge_iff_le, ← not_lt]
  simp only [rankTest_lt_iff hlen, rankTest_lt_iff hlen.symm, delta_build_swap current reference]
  generalize (TrendInput.build current reference).delta = delta at hne ⊢
  have hzero : (∀ d ∈ delta.map Neg.neg, d = 0) ↔ ∀ d ∈ delta, d = 0 := by
    rw [List.forall_mem_map]
    exact forall₂_congr fun d _ => neg_eq_zero
  -- the positive deltas of the swapped series are the negative ones
  have hsignificant : Significant p (fun d => 0 < d) (delta.map Neg.neg) ↔
      Significant p (fun d => d < 0) delta := by
    simp only [Significant, SignedRank.rankSum_map_neg, List.length_map, Left.neg_pos_iff]
  simp only [hzero, hsignificant, medianOf_map_neg hne, medianOf_eq_median hne, Symmetric]
  by_cases hall : ∀ d ∈ delta, d = 0
  · rw [if_pos hall, if_pos hall]
    exact iff_of_true rfl (Or.inl hall)
  rw [if_neg hall, if_neg hall, or_iff_right hall]
  by_cases hpos : Significant p (fun d => 0 < d) delta
  · by_cases hneg : Significant p (fun d => d < 0) delta
    · rw [if_neg (not_not.mpr hneg), if_neg (not_not.mpr hpos)]
      -- both orders are significant: the sign of the median decides
      rcases lt_trichotomy (Median.median delta) 0 with hlt | heq | hgt
      · rw [if_neg (by linarith), if_pos hlt]
        exact iff_of_true rfl ⟨iff_of_true hpos hneg, fun _ => hlt.ne⟩
      · rw [if_neg (by linarith), if_neg (by linarith)]
        exact iff_of_false (by decide) fun h => h.2 hpos heq
      · rw [if_pos (by linarith), if_neg (by linarith)]
        exact iff_of_true rfl ⟨iff_of_true hpos hneg, fun _ => hgt.ne'⟩
    · rw [if_pos hneg, if_neg (not_not.mpr hpos)]
      refine iff_of_false ?_ fun h => hneg (h.1.mp hpos)
      split
      · decide
      · decide
  · by_cases hneg : Significant p (fun d => d < 0) delta
    · rw [if_neg (not_not.mpr hneg), if_pos hpos]
      refine iff_of_false ?_ fun h => hpos (h.1.mpr hneg)
      split
      · decide
      · decide
    · rw [if_pos hneg, if_pos hpos]
      exact iff_of_true rfl ⟨iff_of_false hpos hneg, fun h => absurd h hpos⟩

/-- Without zeros both orders are significant or neither. -/
theorem significant_iff_of_ne_zero {delta : List ℚ} (h : ∀ d ∈ delta, d ≠ 0) :
    Significant p (fun d => 0 < d) delta ↔ Significant p (fun d => d < 0) delta := by
  have hsum := SignedRank.rankSum_positive_add_negative h
  have hpos : SignedRank.total delta.length - SignedRank.rankSum (fun d => 0 < d) delta =
      SignedRank.rankSum (fun d => d < 0) delta := by linarith
  have hneg : SignedRank.total delta.length - SignedRank.rankSum (fun d => d < 0) delta =
      SignedRank.rankSum (fun d => 0 < d) delta := by linarith
  rw [Significant, Significant, hpos, hneg, max_comm]

/-! ## All of them -/

/-- The algorithms whose verdict has a direction, with a test that goes by rank sums. -/
def directional (p : ℕ → ℚ → ℚ) : List (TrendInput → Except Failure TrendResult) :=
  [TrendAlgorithm.call MeanDeltaAlgorithm.analyze, TrendAlgorithm.call MedianDeltaAlgorithm.analyze,
    TheilSenSlopeAlgorithm.analyze, TrendAlgorithm.call EwmaAlgorithm.analyze,
    TrendAlgorithm.call CusumAlgorithm.analyze,
    TrendAlgorithm.call (WilcoxonAlgorithm.analyze (rankTest p))]

/-- An accepted pair of series is accepted the other way round, and all verdicts are mirrored
exactly if the deltas are symmetric for the signed rank test and there are at most 46341 of them. -/
theorem mirrors_iff (p : ℕ → ℚ → ℚ) {current reference : List ℚ} {input : TrendInput}
    (h : TrendInput.of (some current) (some reference) = .ok input) :
    ∃ swapped, TrendInput.of (some reference) (some current) = .ok swapped ∧
      ((∀ algorithm ∈ directional p, MirrorsCalls algorithm input swapped) ↔
        Symmetric p input.delta ∧ input.delta.length ≤ 46341) := by
  obtain ⟨⟨hlen, hthree, hcurrent, hreference⟩, rfl⟩ := TrendInput.of_eq_ok_iff.mp h
  refine ⟨TrendInput.build reference current, ?_, ?_⟩
  · exact TrendInput.of_eq_ok_iff.mpr ⟨⟨hlen.symm, hlen ▸ hthree, hreference, hcurrent⟩, rfl⟩
  have hdelta := delta_build_swap current reference
  have hdlen := TrendInput.length_delta_build hlen
  have hne := TrendInput.delta_build_ne_nil hlen hthree
  rw [← wilcoxon_mirrors_iff hlen hne, ← theilSenSlope_mirrorsCalls_iff hdelta (by omega)]
  simp only [directional, List.forall_mem_cons, List.not_mem_nil, false_imp_iff, implies_true,
    and_true, mirrorsCalls_call_iff]
  constructor
  · rintro ⟨-, -, htheilSen, -, -, hwilcoxon⟩
    exact ⟨hwilcoxon, htheilSen⟩
  · rintro ⟨hwilcoxon, htheilSen⟩
    exact ⟨meanDelta_mirrors hdelta, medianDelta_mirrors hdelta hne, htheilSen,
      ewma_mirrors hdelta, cusum_mirrors hdelta, hwilcoxon⟩

/-- Six samples at one half. -/
def level : List ℚ := [0.5, 0.5, 0.5, 0.5, 0.5, 0.5]

/-- The first of them is higher. -/
def raised : List ℚ := [0.6, 0.5, 0.5, 0.5, 0.5, 0.5]

theorem rates_level : TrendInput.Rates level := by
  unfold TrendInput.Rates
  decide +kernel

theorem rates_raised : TrendInput.Rates raised := by
  unfold TrendInput.Rates
  decide +kernel

theorem of_raised_level :
    TrendInput.of (some raised) (some level) = .ok (TrendInput.build raised level) :=
  TrendInput.of_eq_ok_iff.mpr ⟨⟨by decide, by decide, rates_raised, rates_level⟩, rfl⟩

/-- The exact test finds the lowered sample significant and the raised one not. -/
theorem not_symmetric_raised_level :
    ¬Symmetric SignedRank.exactPValue (TrendInput.build raised level).delta := by
  have hdelta : (TrendInput.build raised level).delta = [0.1, 0, 0, 0, 0, 0] := by decide +kernel
  rw [hdelta]
  rintro (hzero | ⟨hiff, -⟩)
  · exact absurd (hzero 0.1 List.mem_cons_self) (by norm_num)
  · have hneg : Significant SignedRank.exactPValue (fun d => d < 0) [0.1, 0, 0, 0, 0, 0] := by
      decide +kernel
    have hpos : ¬Significant SignedRank.exactPValue (fun d => 0 < d) [0.1, 0, 0, 0, 0, 0] := by
      decide +kernel
    exact hpos (hiff.mpr hneg)

/-- All six samples are higher. -/
def shifted : List ℚ := [0.6, 0.6, 0.7, 0.7, 0.6, 0.8]

theorem rates_shifted : TrendInput.Rates shifted := by
  unfold TrendInput.Rates
  decide +kernel

theorem symmetric_shifted_level :
    Symmetric SignedRank.exactPValue (TrendInput.build shifted level).delta := by
  apply Or.inr
  constructor
  · apply significant_iff_of_ne_zero
    decide +kernel
  · intro _
    decide +kernel

/-- All verdicts on the six higher samples are mirrored, and not all of those on one. -/
theorem mirrors_iff_shifted_raised :
    (∃ swapped, TrendInput.of (some level) (some shifted) = .ok swapped ∧
      ∀ algorithm ∈ directional SignedRank.exactPValue,
        MirrorsCalls algorithm (TrendInput.build shifted level) swapped) ∧
    ∃ swapped, TrendInput.of (some level) (some raised) = .ok swapped ∧
      ¬∀ algorithm ∈ directional SignedRank.exactPValue,
        MirrorsCalls algorithm (TrendInput.build raised level) swapped := by
  constructor
  · have hinput : TrendInput.of (some shifted) (some level) =
        .ok (TrendInput.build shifted level) :=
      TrendInput.of_eq_ok_iff.mpr ⟨⟨by decide, by decide, rates_shifted, rates_level⟩, rfl⟩
    obtain ⟨swapped, hswapped, hmirrors⟩ := mirrors_iff SignedRank.exactPValue hinput
    exact ⟨swapped, hswapped, hmirrors.mpr ⟨symmetric_shifted_level, by decide⟩⟩
  · obtain ⟨swapped, hswapped, hmirrors⟩ := mirrors_iff SignedRank.exactPValue of_raised_level
    refine ⟨swapped, hswapped, ?_⟩
    intro hall
    exact not_symmetric_raised_level (hmirrors.mp hall).1

/-- The verdicts on one raised sample and on one lowered sample are no mirror images. -/
theorem not_mirrors_raised_level :
    ¬∀ p : ℕ → ℚ → ℚ, (∀ n, Antitone (p n)) → ∀ (current reference : List ℚ) (input : TrendInput),
      TrendInput.of (some current) (some reference) = .ok input →
        ∃ swapped, TrendInput.of (some reference) (some current) = .ok swapped ∧
          ∀ algorithm ∈ directional p, MirrorsCalls algorithm input swapped := by
  intro hclaim
  obtain ⟨swapped, hswapped, hmirrors⟩ := hclaim SignedRank.exactPValue
    SignedRank.exactPValue_antitone raised level _ of_raised_level
  obtain ⟨-, rfl⟩ := TrendInput.of_eq_ok_iff.mp hswapped
  have hwilcoxon := mirrorsCalls_call_iff.mp
    (hmirrors (TrendAlgorithm.call (WilcoxonAlgorithm.analyze (rankTest SignedRank.exactPValue)))
      (by simp [directional]))
  have hne : (TrendInput.build raised level).delta ≠ [] := by decide +kernel
  exact not_symmetric_raised_level ((wilcoxon_mirrors_iff (by decide) hne).mp hwilcoxon)

end Trend
