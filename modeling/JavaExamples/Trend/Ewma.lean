import Mathlib.Probability.Distributions.Uniform
import Mathlib.Probability.ProbabilityMassFunction.Integrals
import JavaExamples.Common.ExponentialAverage
import JavaExamples.Trend.Algorithms

/-!
# The control limit of the EWMA chart

The algorithm over the real numbers, with the root it takes; on rational deltas it is
`EwmaAlgorithm.analyze`.

* `value_map_cast`, `status_map_cast`: the algorithm over the reals and the one over `ℚ`.
* `limit_sq`: the limit by the weights of the average.
* `limit_eq_three_deviations`: the limit by the standard deviation of the average.
* `limit_matches_average`: what the limit is for, and what the algorithm reports.
-/

namespace Trend.EwmaAlgorithm.Exact

open ExponentialAverage MeasureTheory ProbabilityTheory

noncomputable section

def value (delta : List ℝ) : ℝ :=
  delta.foldl (fun value sample => (LAMBDA : ℝ) * sample + (1 - (LAMBDA : ℝ)) * value) 0

def sigma (n : ℕ) : ℝ :=
  EXPECTED_SIGMA * √(variance n : ℝ)

def limit (n : ℕ) : ℝ := CONTROL_LIMIT * sigma n

def status (delta : List ℝ) : TrendStatus :=
  if value delta < -limit delta.length then .ANOMALOUS_DEGRADATION
  else if value delta > limit delta.length then .ANOMALOUS_IMPROVEMENT
  else .NORMAL

/-! ## Rational deltas -/

theorem value_map_cast (delta : List ℚ) :
    value (delta.map fun d : ℚ => (d : ℝ)) = (average delta : ℝ) := by
  unfold value average
  induction delta using List.reverseRecOn with
  | nil => simp
  | append_singleton delta sample ih =>
    rw [List.map_append, List.foldl_append, List.foldl_append, ih]
    simp

theorem variance_nonneg (n : ℕ) : 0 ≤ variance n := by
  have hpow : (1 - LAMBDA) ^ (2 * n) ≤ 1 := by
    apply pow_le_one₀
    · norm_num [LAMBDA]
    · norm_num [LAMBDA]
  have hfactor : 0 ≤ LAMBDA / (2 - LAMBDA) := by norm_num [LAMBDA]
  unfold variance
  exact mul_nonneg hfactor (sub_nonneg.mpr hpow)

theorem limit_eq_sqrt (n : ℕ) : limit n = √(limitSquared n : ℝ) := by
  have hsigma : (0 : ℝ) ≤ CONTROL_LIMIT * EXPECTED_SIGMA := by
    norm_num [CONTROL_LIMIT, EXPECTED_SIGMA]
  rw [limit, sigma, limitSquared, ← mul_assoc]
  push_cast
  rw [Real.sqrt_mul (sq_nonneg _), Real.sqrt_sq hsigma]

theorem limitSquared_nonneg (n : ℕ) : 0 ≤ limitSquared n :=
  mul_nonneg (sq_nonneg _) (variance_nonneg n)

/-- Comparing with the root or comparing squares, the verdict is the same. -/
theorem status_map_cast (input : TrendInput) :
    status (input.delta.map fun d : ℚ => (d : ℝ)) = (analyze input).status := by
  have hnonneg := limitSquared_nonneg input.delta.length
  have hlow : value (input.delta.map fun d : ℚ => (d : ℝ)) < -limit input.delta.length ↔
      exceedsRoot (-average input.delta) (limitSquared input.delta.length) := by
    rw [exceedsRoot_iff hnonneg, value_map_cast, limit_eq_sqrt, lt_neg]
    push_cast
    rfl
  have hhigh : value (input.delta.map fun d : ℚ => (d : ℝ)) > limit input.delta.length ↔
      exceedsRoot (average input.delta) (limitSquared input.delta.length) := by
    rw [exceedsRoot_iff hnonneg, value_map_cast, limit_eq_sqrt]
  simp only [status, analyze, List.length_map, hlow, hhigh]

/-! ## The limit -/

theorem limit_nonneg (n : ℕ) : 0 ≤ limit n := by
  rw [limit_eq_sqrt]
  apply Real.sqrt_nonneg

theorem value_ofFn {n : ℕ} (d : Fin n → ℝ) :
    value (List.ofFn d) = ∑ i, weight (LAMBDA : ℝ) n i * d i :=
  smooth_ofFn _ d

theorem limit_sq (n : ℕ) :
    limit n ^ 2 = 9 * 0.02 ^ 2 * ∑ i, weight (LAMBDA : ℝ) n i ^ 2 := by
  have hlambda : (2 : ℝ) - LAMBDA ≠ 0 := by norm_num [LAMBDA]
  have hnonneg : (0 : ℝ) ≤ limitSquared n := by exact_mod_cast limitSquared_nonneg n
  rw [limit_eq_sqrt, Real.sq_sqrt hnonneg, sum_weight_sq hlambda, limitSquared]
  push_cast [variance]
  congr 1
  norm_num [CONTROL_LIMIT, EXPECTED_SIGMA]

/-- The limit is three standard deviations of the average of independent deltas, each of standard
deviation `0.02`. -/
theorem limit_eq_three_deviations {Ω : Type*} [MeasurableSpace Ω] {μ : Measure Ω} {n : ℕ}
    {X : Fin n → Ω → ℝ} (hX : ∀ i, MemLp (X i) 2 μ)
    (hindep : Pairwise fun i j => IndepFun (X i) (X j) μ) (hvar : ∀ i, √Var[X i; μ] = 0.02) :
    limit n = 3 * √Var[fun ω => value (List.ofFn fun i => X i ω); μ] := by
  have hvar' : ∀ i, Var[X i; μ] = 0.02 ^ 2 := fun i => by
    rw [← hvar i, Real.sq_sqrt (ProbabilityTheory.variance_nonneg _ _)]
  have hvariance := variance_smooth (LAMBDA : ℝ) _ hX hindep hvar'
  have hlimit : limit n = √(3 ^ 2 * Var[fun ω => value (List.ofFn fun i => X i ω); μ]) := by
    rw [← Real.sqrt_sq (limit_nonneg n), limit_sq]
    congr 1
    change _ = 3 ^ 2 * Var[fun ω => smooth (LAMBDA : ℝ) (List.ofFn fun i => X i ω); μ]
    rw [hvariance]
    ring
  rw [hlimit, Real.sqrt_mul (by norm_num), Real.sqrt_sq (by norm_num)]

/-- The weight of delta `i` among `n`. -/
def w (n : ℕ) (i : Fin n) : ℝ := 0.30 * (1 - 0.30) ^ (n - 1 - (i : ℕ))

theorem weight_lambda (n : ℕ) : weight (LAMBDA : ℝ) n = w n := by
  ext i
  rw [weight, w]
  norm_num [LAMBDA]

/-- The average is the weighted sum, the limit belongs to the same weights, and the verdict is by
the weighted sum against the limit. On rational deltas that is what the algorithm returns. -/
theorem limit_matches_average {n : ℕ} (d : Fin n → ℝ) :
    value (List.ofFn d) = ∑ i, w n i * d i ∧
    limit n ^ 2 = 9 * 0.02 ^ 2 * ∑ i, w n i ^ 2 ∧
    (status (List.ofFn d) = .ANOMALOUS_DEGRADATION ↔
      ∑ i, w n i * d i < -√(9 * 0.02 ^ 2 * ∑ i, w n i ^ 2)) ∧
    (status (List.ofFn d) = .ANOMALOUS_IMPROVEMENT ↔
      √(9 * 0.02 ^ 2 * ∑ i, w n i ^ 2) < ∑ i, w n i * d i) ∧
    (∀ (Ω : Type) (_ : MeasurableSpace Ω) (μ : Measure Ω) (X : Fin n → Ω → ℝ),
      (∀ i, MemLp (X i) 2 μ) → (Pairwise fun i j => IndepFun (X i) (X j) μ) →
      (∀ i, √Var[X i; μ] = 0.02) →
      limit n = 3 * √Var[fun ω => value (List.ofFn fun i => X i ω); μ]) ∧
    ∀ input : TrendInput, (input.delta.map fun x : ℚ => (x : ℝ)) = List.ofFn d →
      value (List.ofFn d) = (analyze input).value ∧
        status (List.ofFn d) = (analyze input).status := by
  have hlimit := limit_nonneg n
  rw [← weight_lambda, ← limit_sq, Real.sqrt_sq hlimit, ← value_ofFn]
  refine ⟨rfl, rfl, ?_, ?_, fun _ _ _ _ => limit_eq_three_deviations, ?_⟩
  · simp only [status, List.length_ofFn]
    by_cases hlow : value (List.ofFn d) < -limit n
    · simp [hlow]
    · by_cases hhigh : value (List.ofFn d) > limit n
      · simp [hlow, hhigh]
      · simp [hlow, hhigh]
  · simp only [status, List.length_ofFn]
    by_cases hlow : value (List.ofFn d) < -limit n
    · have hhigh : ¬limit n < value (List.ofFn d) := by linarith
      simp [hlow, hhigh]
    · by_cases hhigh : value (List.ofFn d) > limit n
      · simp [hlow, hhigh]
      · simp [hlow, hhigh]
  · intro input hdelta
    rw [← hdelta]
    exact ⟨value_map_cast _, status_map_cast input⟩

/-! ## Coins -/

/-- `0.02` or `-0.02`, each as likely. -/
def coin : Measure Bool := (PMF.uniformOfFintype Bool).toMeasure

def side (heads : Bool) : ℝ := if heads then 0.02 else -0.02

theorem variance_coin : Var[side; coin] = 0.02 ^ 2 := by
  have hmean : ∫ heads, side heads ∂coin = 0 := by
    rw [coin, PMF.integral_eq_sum]
    simp [side]
  rw [variance_of_integral_eq_zero (measurable_of_countable _).aemeasurable hmean, coin,
    PMF.integral_eq_sum]
  simp [side]

instance : IsProbabilityMeasure coin := PMF.toMeasure.isProbabilityMeasure _

theorem indepFun_sides {n : ℕ} : Pairwise fun i j : Fin n =>
    IndepFun (fun ω : Fin n → Bool => side (ω i)) (fun ω => side (ω j))
      (Measure.pi fun _ => coin) := by
  intro i j hij
  have hindep := iIndepFun_pi (μ := fun _ : Fin n => coin) (X := fun _ => side)
    fun _ => (measurable_of_countable _).aemeasurable
  exact hindep.indepFun hij

/-- Six samples of which the last two have fallen. -/
def fallen : TrendInput := .build [0.5, 0.5, 0.5, 0.5, 0.4, 0.4] [0.5, 0.5, 0.5, 0.5, 0.5, 0.5]

/-- Two coins are what the limit for two deltas is made for; two samples that fall after four are an
anomaly. -/
theorem limit_matches_average_coins :
    limit 2 = 3 * √Var[fun ω : Fin 2 → Bool => value (List.ofFn fun i => side (ω i));
      Measure.pi fun _ => coin] ∧
    value (List.ofFn ![0, 0, 0, 0, -0.1, -0.1]) = (analyze fallen).value ∧
    status (List.ofFn ![0, 0, 0, 0, -0.1, -0.1]) = .ANOMALOUS_DEGRADATION := by
  constructor
  · apply (limit_matches_average (n := 2) fun _ => 0).2.2.2.2.1 _ inferInstance
    · intro _
      exact MemLp.of_discrete
    · exact indepFun_sides
    · intro i
      have hcoin := (measurePreserving_eval (fun _ : Fin 2 => coin) i).variance_fun_comp
        (f := side) (measurable_of_countable _).aemeasurable
      rw [hcoin, variance_coin, Real.sqrt_sq (by norm_num)]
  · have hdelta : (fallen.delta.map fun x : ℚ => (x : ℝ)) =
        List.ofFn ![0, 0, 0, 0, -0.1, -0.1] := by
      simp [fallen, TrendInput.build]
      norm_num
    obtain ⟨hvalue, hstatus⟩ :=
      (limit_matches_average ![0, 0, 0, 0, -0.1, -0.1]).2.2.2.2.2 fallen hdelta
    refine ⟨hvalue, hstatus.trans ?_⟩
    decide +kernel

end

end Trend.EwmaAlgorithm.Exact
