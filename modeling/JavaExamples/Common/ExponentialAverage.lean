import Mathlib.Algebra.BigOperators.Fin
import Mathlib.Data.List.OfFn
import Mathlib.Probability.Moments.Variance
import Mathlib.Tactic.LinearCombination

/-!
# Exponential averages

The average that forgets: each sample enters with the factor `lam`, and what was there before is
kept with `1 - lam`.

* `smooth_ofFn`: the recurrence is a weighted sum.
* `sum_weight_sq`: the sum of the squared weights.
* `variance_smooth`: the variance of the average of independent samples.
-/

namespace ExponentialAverage

section Weights

variable {R : Type*} [CommRing R]

/-- The average after the samples of a list, from zero. -/
def smooth (lam : R) (samples : List R) : R :=
  samples.foldl (fun value sample => lam * sample + (1 - lam) * value) 0

/-- The weight of sample `i` among `n`. -/
def weight (lam : R) (n : ℕ) (i : Fin n) : R := lam * (1 - lam) ^ (n - 1 - i)

/-- One more sample makes the ones before lighter. -/
@[simp]
theorem weight_castSucc (lam : R) {n : ℕ} (i : Fin n) :
    weight lam (n + 1) i.castSucc = (1 - lam) * weight lam n i := by
  have hexp : n + 1 - 1 - (i.castSucc : ℕ) = (n - 1 - i) + 1 := by
    have := i.isLt
    simp only [Fin.val_castSucc]
    omega
  rw [weight, weight, hexp, pow_succ]
  ring

@[simp]
theorem weight_last (lam : R) (n : ℕ) : weight lam (n + 1) (Fin.last n) = lam := by
  simp [weight]

@[simp]
theorem smooth_nil (lam : R) : smooth lam [] = 0 := rfl

@[simp]
theorem smooth_concat (lam : R) (samples : List R) (sample : R) :
    smooth lam (samples.concat sample) = lam * sample + (1 - lam) * smooth lam samples := by
  simp [smooth]

theorem smooth_ofFn (lam : R) {n : ℕ} (d : Fin n → R) :
    smooth lam (List.ofFn d) = ∑ i, weight lam n i * d i := by
  induction n with
  | zero => simp
  | succ n ih =>
    rw [List.ofFn_succ', smooth_concat, ih, Fin.sum_univ_castSucc, Finset.mul_sum, weight_last,
      add_comm]
    congr 1
    apply Finset.sum_congr rfl
    intro i _
    rw [weight_castSucc, mul_assoc]

/-- `λ² + λ² (1 - λ)² + ⋯`, with the denominator of the closed form on the left. -/
theorem mul_sum_weight_sq (lam : R) (n : ℕ) :
    (2 - lam) * ∑ i, weight lam n i ^ 2 = lam * (1 - (1 - lam) ^ (2 * n)) := by
  induction n with
  | zero => simp
  | succ n ih =>
    have hsum : ∑ i : Fin n, weight lam (n + 1) i.castSucc ^ 2 =
        (1 - lam) ^ 2 * ∑ i, weight lam n i ^ 2 := by
      rw [Finset.mul_sum]
      apply Finset.sum_congr rfl
      intro i _
      rw [weight_castSucc, mul_pow]
    rw [Fin.sum_univ_castSucc, hsum, weight_last, Nat.mul_succ, pow_add]
    linear_combination (1 - lam) ^ 2 * ih

end Weights

theorem sum_weight_sq {F : Type*} [Field F] {lam : F} (h : 2 - lam ≠ 0) (n : ℕ) :
    ∑ i, weight lam n i ^ 2 = lam / (2 - lam) * (1 - (1 - lam) ^ (2 * n)) := by
  rw [div_mul_eq_mul_div, eq_div_iff h, mul_comm, mul_sum_weight_sq]

/-! ## Random samples -/

section Random

open MeasureTheory ProbabilityTheory

variable {Ω : Type*} [MeasurableSpace Ω] {μ : Measure Ω}

theorem variance_smooth (lam v : ℝ) {n : ℕ} {X : Fin n → Ω → ℝ} (hX : ∀ i, MemLp (X i) 2 μ)
    (hindep : Pairwise fun i j => IndepFun (X i) (X j) μ) (hvar : ∀ i, Var[X i; μ] = v) :
    Var[fun ω => smooth lam (List.ofFn fun i => X i ω); μ] = v * ∑ i, weight lam n i ^ 2 := by
  have hsum : (fun ω => smooth lam (List.ofFn fun i => X i ω)) =
      ∑ i, fun ω => weight lam n i * X i ω := by
    funext ω
    rw [smooth_ofFn, Finset.sum_apply]
  have hindep' : Set.Pairwise (Finset.univ : Finset (Fin n)) fun i j =>
      IndepFun (fun ω => weight lam n i * X i ω) (fun ω => weight lam n j * X j ω) μ := by
    intro i _ j _ hij
    exact (hindep hij).comp (measurable_const_mul _) (measurable_const_mul _)
  rw [hsum, IndepFun.variance_sum (fun i _ => (hX i).const_mul _) hindep', Finset.mul_sum]
  apply Finset.sum_congr rfl
  intro i _
  rw [variance_const_mul, hvar, mul_comm]

end Random

end ExponentialAverage
