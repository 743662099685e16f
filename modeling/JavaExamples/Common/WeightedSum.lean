import Mathlib.Algebra.BigOperators.Ring.List
import Mathlib.Algebra.Order.BigOperators.Group.List
import Mathlib.Algebra.Order.Ring.Defs
import Mathlib.Tactic.Linarith

/-!
# Weighted sums of scores

Scores between `0` and a cap have a weighted sum between `0` and what the weights make of the cap.

* `sum_mul_eq_iff`: with positive weights, the sum gets there just if every score is the cap.
-/

namespace WeightedSum

variable {ι α : Type*} [CommRing α] [LinearOrder α] [IsStrictOrderedRing α]
  {weight score : ι → α} {cap : α}

theorem sum_mul_nonneg {is : List ι} (hweight : ∀ i ∈ is, 0 ≤ weight i)
    (hscore : ∀ i ∈ is, 0 ≤ score i) :
    0 ≤ (is.map fun i => weight i * score i).sum := by
  refine List.sum_nonneg (List.forall_mem_map.mpr fun i hi => ?_)
  exact mul_nonneg (hweight i hi) (hscore i hi)

theorem sum_mul_le {is : List ι} (hweight : ∀ i ∈ is, 0 ≤ weight i)
    (hscore : ∀ i ∈ is, score i ≤ cap) :
    (is.map fun i => weight i * score i).sum ≤ (is.map weight).sum * cap := by
  rw [← List.sum_map_mul_right]
  exact List.sum_le_sum fun i hi => mul_le_mul_of_nonneg_left (hscore i hi) (hweight i hi)

theorem sum_mul_eq_iff {is : List ι} (hweight : ∀ i ∈ is, 0 < weight i)
    (hscore : ∀ i ∈ is, score i ≤ cap) :
    (is.map fun i => weight i * score i).sum = (is.map weight).sum * cap ↔
      ∀ i ∈ is, score i = cap := by
  induction is with
  | nil => simp
  | cons i is ih =>
    rw [List.forall_mem_cons] at hweight hscore
    have hrest := sum_mul_le (fun i hi => (hweight.2 i hi).le) hscore.2
    have hfirst := mul_le_mul_of_nonneg_left hscore.1 hweight.1.le
    rw [List.map_cons, List.sum_cons, List.map_cons, List.sum_cons, add_mul,
      List.forall_mem_cons, ← ih hweight.2 hscore.2]
    -- neither part can make up for the other
    rw [add_eq_add_iff_eq_and_eq hfirst hrest, mul_right_inj' hweight.1.ne']

end WeightedSum
