import JavaExamples.Common.HeaviestRun
import JavaExamples.Trend.Algorithms

/-!
# CUSUM finds the heaviest run

The two sums of the chart are two passes for the heaviest run of samples, one with the weights
`z - K` and one with `-z - K`.

* `sums_eq`: the four variables of the loop are the two passes.
* `status_analyze_iff`: the verdict by the directions that have a run of weight `H`.
-/

namespace Trend.CusumAlgorithm

open HeaviestRun

/-- What a sample adds to the positive sum. -/
def positiveWeight (sample : ℚ) : ℚ := sample / EXPECTED_SIGMA - K

/-- What a sample adds to the negative sum. -/
def negativeWeight (sample : ℚ) : ℚ := -(sample / EXPECTED_SIGMA) - K

/-- The variables of the loop, from what the two passes keep. -/
def Sums.ofBest (positive negative : Best ℚ) : Sums where
  positive := positive.ending
  negative := negative.ending
  maxPositive := positive.overall
  maxNegative := negative.overall

/-- One iteration is a step of each pass. -/
theorem add_ofBest (positive negative : Best ℚ) (sample : ℚ) :
    add (Sums.ofBest positive negative) sample =
      Sums.ofBest (extend positive (positiveWeight sample))
        (extend negative (negativeWeight sample)) := by
  have hpositive : positive.ending + sample / EXPECTED_SIGMA - K =
      positive.ending + positiveWeight sample := add_sub_assoc _ _ _
  have hnegative : negative.ending - sample / EXPECTED_SIGMA - K =
      negative.ending + negativeWeight sample := by
    rw [negativeWeight]
    ring
  simp only [add, Sums.ofBest, extend, hpositive, hnegative]

theorem sums_eq (delta : List ℚ) :
    sums delta = Sums.ofBest (best positiveWeight delta) (best negativeWeight delta) := by
  induction delta using List.reverseRecOn with
  | nil => rfl
  | append_singleton delta sample ih =>
    rw [best_concat, best_concat, ← add_ofBest, ← ih, sums, List.foldl_append]
    rfl

/-! ## The verdict -/

/-- A run of samples whose weight reaches the threshold. -/
def Signals (weight : ℚ → ℚ) (delta : List ℚ) : Prop :=
  ∃ run, run <:+: delta ∧ H ≤ (run.map weight).sum

theorem signals_positive_iff (delta : List ℚ) :
    Signals positiveWeight delta ↔ H ≤ (sums delta).maxPositive := by
  rw [sums_eq]
  apply exists_le_weight_iff

theorem signals_negative_iff (delta : List ℚ) :
    Signals negativeWeight delta ↔ H ≤ (sums delta).maxNegative := by
  rw [sums_eq]
  apply exists_le_weight_iff

theorem status_analyze_iff (input : TrendInput) :
    ((analyze input).status = .MIXED_ANOMALY ↔
      Signals positiveWeight input.delta ∧ Signals negativeWeight input.delta) ∧
    ((analyze input).status = .ANOMALOUS_DEGRADATION ↔
      Signals negativeWeight input.delta ∧ ¬Signals positiveWeight input.delta) ∧
    ((analyze input).status = .ANOMALOUS_IMPROVEMENT ↔
      Signals positiveWeight input.delta ∧ ¬Signals negativeWeight input.delta) ∧
    ((analyze input).status = .NORMAL ↔
      ¬Signals positiveWeight input.delta ∧ ¬Signals negativeWeight input.delta) := by
  simp only [signals_positive_iff, signals_negative_iff, analyze, ge_iff_le]
  by_cases hpositive : H ≤ (sums input.delta).maxPositive
  · by_cases hnegative : H ≤ (sums input.delta).maxNegative
    · simp [hpositive, hnegative]
    · simp [hpositive, hnegative]
  · by_cases hnegative : H ≤ (sums input.delta).maxNegative
    · simp [hpositive, hnegative]
    · simp [hpositive, hnegative]

/-! ## Greater deltas -/

theorem positiveWeight_mono : Monotone positiveWeight := by
  intro sample raised h
  unfold positiveWeight EXPECTED_SIGMA
  gcongr

theorem negativeWeight_antitone : Antitone negativeWeight := by
  intro sample raised h
  unfold negativeWeight EXPECTED_SIGMA
  gcongr

theorem maxPositive_mono {delta raised : List ℚ} (h : List.Forall₂ (· ≤ ·) delta raised) :
    (sums delta).maxPositive ≤ (sums raised).maxPositive := by
  rw [sums_eq, sums_eq]
  apply best_mono
  exact h.imp fun _ _ hle => positiveWeight_mono hle

theorem maxNegative_antitone {delta raised : List ℚ} (h : List.Forall₂ (· ≤ ·) delta raised) :
    (sums raised).maxNegative ≤ (sums delta).maxNegative := by
  rw [sums_eq, sums_eq]
  apply best_mono
  exact h.flip.imp fun _ _ hle => negativeWeight_antitone hle

/-- The greatest sums are the weights of the heaviest runs of the two directions, the verdict tells
in which directions a run reaches the threshold, and raising deltas moves the two sums apart. -/
theorem analyze_finds_heaviest_runs (input : TrendInput) :
    IsGreatest (runWeights positiveWeight input.delta) (sums input.delta).maxPositive ∧
    IsGreatest (runWeights negativeWeight input.delta) (sums input.delta).maxNegative ∧
    (((analyze input).status = .MIXED_ANOMALY ↔
        Signals positiveWeight input.delta ∧ Signals negativeWeight input.delta) ∧
      ((analyze input).status = .ANOMALOUS_DEGRADATION ↔
        Signals negativeWeight input.delta ∧ ¬Signals positiveWeight input.delta) ∧
      ((analyze input).status = .ANOMALOUS_IMPROVEMENT ↔
        Signals positiveWeight input.delta ∧ ¬Signals negativeWeight input.delta) ∧
      ((analyze input).status = .NORMAL ↔
        ¬Signals positiveWeight input.delta ∧ ¬Signals negativeWeight input.delta)) ∧
    ∀ raised, List.Forall₂ (· ≤ ·) input.delta raised →
      (sums input.delta).maxPositive ≤ (sums raised).maxPositive ∧
        (sums raised).maxNegative ≤ (sums input.delta).maxNegative := by
  refine ⟨?_, ?_, status_analyze_iff input, ?_⟩
  · rw [sums_eq]
    apply isGreatest_overall
  · rw [sums_eq]
    apply isGreatest_overall
  · intro raised h
    exact ⟨maxPositive_mono h, maxNegative_antitone h⟩

/-- A constant shift of `0.04` is a run of weight `1.5` at each sample; raised to `0.06`, of
`2.5`. -/
theorem analyze_finds_heaviest_runs_shift :
    (sums [0.04, 0.04, 0.04, 0.04]).maxPositive ≤ (sums [0.04, 0.06, 0.06, 0.04]).maxPositive ∧
      (sums [0.04, 0.04, 0.04, 0.04]).maxPositive = 6 := by
  constructor
  · have h := (analyze_finds_heaviest_runs ⟨[], [], [0.04, 0.04, 0.04, 0.04], []⟩).2.2.2
      [0.04, 0.06, 0.06, 0.04]
    refine (h ?_).1
    norm_num
  · decide +kernel

end Trend.CusumAlgorithm
