import Mathlib.Algebra.BigOperators.Ring.Finset
import Mathlib.Algebra.Order.BigOperators.Ring.Finset
import Mathlib.Analysis.InnerProductSpace.PiL2

/-!
# Multisets as vectors

A multiset is the vector of how often its elements occur.

* `sqrt_squaredDistance_triangle`: the root of the squared distance is a metric.
* `squaredDistance_le`: the squared distance is at most what the sizes of both allow.
* `squaredDistance_eq_iff`: it gets there if both repeat one element, and not the same.
-/

namespace CountVectors

variable {β : Type*} [DecidableEq β] {A B C : Multiset β}

def squaredDistance (A B : Multiset β) : ℤ :=
  ∑ a ∈ (A + B).toFinset, ((A.count a : ℤ) - B.count a) ^ 2

theorem sum_eq_squaredDistance {S : Finset β} (hA : ∀ a ∈ A, a ∈ S) (hB : ∀ b ∈ B, b ∈ S) :
    ∑ a ∈ S, ((A.count a : ℤ) - B.count a) ^ 2 = squaredDistance A B := by
  refine (Finset.sum_subset (fun a ha => ?_) fun a _ ha => ?_).symm
  · exact (Multiset.mem_add.mp (Multiset.mem_toFinset.mp ha)).elim (hA a) (hB a)
  · rw [Multiset.mem_toFinset, Multiset.mem_add, not_or] at ha
    rw [Multiset.count_eq_zero.mpr ha.1, Multiset.count_eq_zero.mpr ha.2, sub_self, sq, mul_zero]

theorem squaredDistance_nonneg (A B : Multiset β) : 0 ≤ squaredDistance A B :=
  Finset.sum_nonneg fun _ _ => sq_nonneg _

theorem squaredDistance_comm (A B : Multiset β) : squaredDistance A B = squaredDistance B A := by
  rw [squaredDistance, squaredDistance, add_comm]
  exact Finset.sum_congr rfl fun a _ => by rw [← neg_sub, neg_sq]

theorem squaredDistance_eq_zero_iff : squaredDistance A B = 0 ↔ A = B := by
  rw [squaredDistance, Finset.sum_eq_zero_iff_of_nonneg fun _ _ => sq_nonneg _]
  constructor
  · intro h
    refine Multiset.ext.mpr fun a => ?_
    by_cases ha : a ∈ (A + B).toFinset
    · have hzero := h a ha
      rw [sq_eq_zero_iff, sub_eq_zero] at hzero
      exact_mod_cast hzero
    · rw [Multiset.mem_toFinset, Multiset.mem_add, not_or] at ha
      rw [Multiset.count_eq_zero.mpr ha.1, Multiset.count_eq_zero.mpr ha.2]
  · rintro rfl a _
    rw [sub_self, sq, mul_zero]

/-! ## The metric -/

/-- The vector of a multiset, over elements among which its own are. -/
noncomputable def vector (S : Finset β) (A : Multiset β) : EuclideanSpace ℝ S :=
  (EuclideanSpace.equiv S ℝ).symm fun a => (A.count (a : β) : ℝ)

theorem dist_vector {S : Finset β} (hA : ∀ a ∈ A, a ∈ S) (hB : ∀ b ∈ B, b ∈ S) :
    dist (vector S A) (vector S B) = √(squaredDistance A B : ℝ) := by
  rw [EuclideanSpace.dist_eq, ← sum_eq_squaredDistance hA hB, ← Finset.sum_coe_sort S]
  push_cast
  congr 1
  exact Finset.sum_congr rfl fun a _ => by rw [Real.dist_eq, sq_abs]; rfl

theorem sqrt_squaredDistance_triangle (A B C : Multiset β) :
    √(squaredDistance A C : ℝ) ≤ √(squaredDistance A B : ℝ) + √(squaredDistance B C : ℝ) := by
  have hA : ∀ a ∈ A, a ∈ (A + B + C).toFinset := fun a ha => by simp [ha]
  have hB : ∀ a ∈ B, a ∈ (A + B + C).toFinset := fun a ha => by simp [ha]
  have hC : ∀ a ∈ C, a ∈ (A + B + C).toFinset := fun a ha => by simp [ha]
  rw [← dist_vector hA hC, ← dist_vector hA hB, ← dist_vector hB hC]
  exact dist_triangle _ _ _

/-! ## The greatest distance -/

theorem sum_count_eq_card {S : Finset β} (hA : ∀ a ∈ A, a ∈ S) :
    ∑ a ∈ S, (A.count a : ℤ) = A.card := by
  exact_mod_cast Multiset.sum_count_eq_card hA

theorem count_sq_le (A : Multiset β) (a : β) : (A.count a : ℤ) ^ 2 ≤ A.count a * A.card := by
  rw [sq]
  exact mul_le_mul_of_nonneg_left (Nat.cast_le.mpr (Multiset.count_le_card a A))
    (Nat.cast_nonneg _)

/-- One element on its own is as far away as possible from what it does not occur in. -/
theorem sub_sq_le (A B : Multiset β) (a : β) :
    ((A.count a : ℤ) - B.count a) ^ 2 ≤ A.count a * A.card + B.count a * B.card := by
  have hproduct : (0 : ℤ) ≤ A.count a * B.count a := by positivity
  linarith [count_sq_le A a, count_sq_le B a,
    (sub_sq (A.count a : ℤ) (B.count a) :)]

theorem sum_bound (A B : Multiset β) :
    ∑ a ∈ (A + B).toFinset, ((A.count a : ℤ) * A.card + B.count a * B.card) =
      (A.card : ℤ) ^ 2 + (B.card : ℤ) ^ 2 := by
  rw [Finset.sum_add_distrib, ← Finset.sum_mul, ← Finset.sum_mul, sum_count_eq_card,
    sum_count_eq_card, sq, sq]
  · exact fun a ha => by simp [ha]
  · exact fun a ha => by simp [ha]

theorem squaredDistance_le (A B : Multiset β) :
    squaredDistance A B ≤ (A.card : ℤ) ^ 2 + (B.card : ℤ) ^ 2 := by
  rw [← sum_bound]
  exact Finset.sum_le_sum fun a _ => sub_sq_le A B a

theorem count_mul_sub_eq_zero_iff (A : Multiset β) (a : β) :
    (A.count a : ℤ) * (A.card - A.count a) = 0 ↔ (a ∈ A → ∀ b ∈ A, a = b) := by
  rw [mul_eq_zero, sub_eq_zero, Nat.cast_eq_zero, Nat.cast_inj, eq_comm (a := A.card),
    Multiset.count_eq_zero, Multiset.count_eq_card, imp_iff_not_or]

/-- The bound is reached at an element if a multiset that it occurs in has no other one. -/
theorem sub_sq_eq_iff (A B : Multiset β) (a : β) :
    ((A.count a : ℤ) - B.count a) ^ 2 = A.count a * A.card + B.count a * B.card ↔
      (a ∈ A → ∀ b ∈ A, a = b) ∧ (a ∈ B → ∀ b ∈ B, a = b) ∧ (a ∈ A → a ∉ B) := by
  have hA : (0 : ℤ) ≤ A.count a * (A.card - A.count a) := by linarith [count_sq_le A a]
  have hB : (0 : ℤ) ≤ B.count a * (B.card - B.count a) := by linarith [count_sq_le B a]
  have hAB : (0 : ℤ) ≤ A.count a * B.count a := by positivity
  have hboth : (A.count a : ℤ) * B.count a = 0 ↔ (a ∈ A → a ∉ B) := by
    rw [mul_eq_zero, Nat.cast_eq_zero, Nat.cast_eq_zero, Multiset.count_eq_zero,
      Multiset.count_eq_zero, imp_iff_not_or]
  rw [← count_mul_sub_eq_zero_iff, ← count_mul_sub_eq_zero_iff, ← hboth]
  -- what is missing to the bound is a sum of three parts that are not negative
  constructor
  · intro heq
    exact ⟨by linarith, by linarith, by linarith⟩
  · rintro ⟨hA, hB, hAB⟩
    linarith

theorem squaredDistance_eq_iff :
    squaredDistance A B = (A.card : ℤ) ^ 2 + (B.card : ℤ) ^ 2 ↔
      (∀ a ∈ A, ∀ b ∈ A, a = b) ∧ (∀ a ∈ B, ∀ b ∈ B, a = b) ∧ ∀ a ∈ A, a ∉ B := by
  rw [← sum_bound, squaredDistance, Finset.sum_eq_sum_iff_of_le fun a _ => sub_sq_le A B a]
  simp only [sub_sq_eq_iff, Multiset.mem_toFinset, Multiset.mem_add]
  constructor
  · intro h
    exact ⟨fun a ha => (h a (.inl ha)).1 ha, fun a ha => (h a (.inr ha)).2.1 ha,
      fun a ha => (h a (.inl ha)).2.2 ha⟩
  · rintro ⟨hA, hB, hAB⟩ a -
    exact ⟨hA a, hB a, hAB a⟩

end CountVectors
