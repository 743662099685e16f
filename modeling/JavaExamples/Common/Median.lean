import Mathlib.Algebra.Order.Field.Basic
import Mathlib.Data.List.GetD
import Mathlib.Data.List.Sort
import Mathlib.Tactic.FieldSimp
import Mathlib.Tactic.Linarith
import Mathlib.Tactic.Ring

/-!
# The median

The median of a list over an ordered field: the mean of the two middle elements of the sorted list,
which are the same element where the length is odd.

* `sort_map_neg`: negation reverses the order.
* `median_map_neg`: the median of the negated list is the negated median.
* `median_nonpos`: the median of a list without positive elements is not positive.
* `median_eq_zero_iff`: such a list has median zero exactly if more than half of it is zero.
-/

namespace Median

section Sorting

variable {α : Type*} [LinearOrder α]

/-- The list in increasing order. -/
def sort (xs : List α) : List α := xs.insertionSort (· ≤ ·)

theorem sort_perm (xs : List α) : (sort xs).Perm xs := List.perm_insertionSort _ xs

theorem sort_pairwise (xs : List α) : (sort xs).Pairwise (· ≤ ·) :=
  List.pairwise_insertionSort (· ≤ ·) xs

@[simp]
theorem length_sort (xs : List α) : (sort xs).length = xs.length := (sort_perm xs).length_eq

/-- A sorted list is found by sorting any of its permutations. -/
theorem sort_eq {xs ys : List α} (hperm : ys.Perm xs) (hys : ys.Pairwise (· ≤ ·)) :
    sort xs = ys :=
  ((sort_perm xs).trans hperm.symm).eq_of_pairwise' (sort_pairwise xs) hys

end Sorting

variable {𝕜 : Type*} [Field 𝕜] [LinearOrder 𝕜] [IsStrictOrderedRing 𝕜] {xs : List 𝕜}

/-- The `k`-th element of the sorted list. -/
def orderStatistic (xs : List 𝕜) (k : ℕ) : 𝕜 := (sort xs).getD k 0

/-- The mean of the two middle elements. -/
def median (xs : List 𝕜) : 𝕜 :=
  (orderStatistic xs ((xs.length - 1) / 2) + orderStatistic xs (xs.length / 2)) / 2

omit [IsStrictOrderedRing 𝕜] in
/-- The order of the list does not matter. -/
theorem median_perm {ys : List 𝕜} (h : xs.Perm ys) : median xs = median ys := by
  have hsort : sort xs = sort ys := sort_eq ((sort_perm ys).trans h.symm) (sort_pairwise ys)
  simp only [median, orderStatistic, hsort, h.length_eq]

/-! ## Negation -/

omit [IsStrictOrderedRing 𝕜] in
theorem orderStatistic_mem {k : ℕ} (hk : k < xs.length) : orderStatistic xs k ∈ xs := by
  have hk' : k < (sort xs).length := by rwa [length_sort]
  rw [orderStatistic, List.getD_eq_getElem _ _ hk']
  exact (sort_perm xs).subset (List.getElem_mem hk')

theorem sort_map_neg (xs : List 𝕜) : sort (xs.map Neg.neg) = ((sort xs).map Neg.neg).reverse := by
  apply sort_eq
  · exact (List.reverse_perm _).trans ((sort_perm xs).map _)
  · rw [List.pairwise_reverse, List.pairwise_map]
    exact (sort_pairwise xs).imp fun h => neg_le_neg h

theorem orderStatistic_map_neg {k : ℕ} (hk : k < xs.length) :
    orderStatistic (xs.map Neg.neg) k = -orderStatistic xs (xs.length - 1 - k) := by
  have hmap : k < ((sort xs).map Neg.neg).reverse.length := by simpa using hk
  have hrev : xs.length - 1 - k < (sort xs).length := by
    rw [length_sort]
    omega
  rw [orderStatistic, sort_map_neg, List.getD_eq_getElem _ _ hmap, List.getElem_reverse,
    List.getElem_map, orderStatistic, List.getD_eq_getElem _ _ hrev]
  simp only [List.length_map, length_sort]

/-- Negation exchanges the two middle elements. -/
theorem median_map_neg (xs : List 𝕜) : median (xs.map Neg.neg) = -median xs := by
  rcases Nat.eq_zero_or_pos xs.length with hlen | hlen
  · obtain rfl := List.length_eq_zero_iff.mp hlen
    simp [median, orderStatistic, sort]
  · have hlow : (xs.length - 1) / 2 < xs.length := by omega
    have hhigh : xs.length / 2 < xs.length := by omega
    have hlow' : xs.length - 1 - (xs.length - 1) / 2 = xs.length / 2 := by omega
    have hhigh' : xs.length - 1 - xs.length / 2 = (xs.length - 1) / 2 := by omega
    rw [median, List.length_map, orderStatistic_map_neg hlow, orderStatistic_map_neg hhigh, hlow',
      hhigh', median]
    ring

/-! ## The sign of the median -/

/-- Without positive elements the middle ones are not positive. -/
theorem median_nonpos (h : ∀ x ∈ xs, x ≤ 0) : median xs ≤ 0 := by
  have hstat : ∀ k, orderStatistic xs k ≤ 0 := by
    intro k
    by_cases hk : k < xs.length
    · exact h _ (orderStatistic_mem hk)
    · have hk' : (sort xs).length ≤ k := by
        rw [length_sort]
        omega
      rw [orderStatistic, List.getD_eq_default _ _ hk']
  exact div_nonpos_of_nonpos_of_nonneg (add_nonpos (hstat _) (hstat _)) zero_le_two

theorem median_nonneg (h : ∀ x ∈ xs, 0 ≤ x) : 0 ≤ median xs := by
  have hneg : ∀ x ∈ xs.map Neg.neg, x ≤ 0 := by
    intro x hx
    obtain ⟨y, hy, rfl⟩ := List.mem_map.mp hx
    exact neg_nonpos.mpr (h y hy)
  have hmedian := median_nonpos hneg
  rw [median_map_neg] at hmedian
  exact neg_nonpos.mp hmedian

omit [IsStrictOrderedRing 𝕜] in
/-- The zeros of a list without positive elements are sorted to its end. -/
theorem sort_eq_append_replicate (h : ∀ x ∈ xs, x ≤ 0) :
    sort xs = sort (xs.filter (· ≠ 0)) ++ List.replicate (xs.count 0) 0 := by
  apply sort_eq
  · have hzeros : List.replicate (xs.count 0) 0 = xs.filter fun x => !decide (x ≠ 0) := by
      rw [← List.filter_beq]
      apply List.filter_congr
      intro x _
      by_cases hx : x = 0
      · simp [hx]
      · simp [hx]
    rw [hzeros]
    exact ((sort_perm _).append_right _).trans (List.filter_append_perm _ xs)
  · rw [List.pairwise_append]
    refine ⟨sort_pairwise _, List.pairwise_replicate.mpr (Or.inr le_rfl), ?_⟩
    intro x hx y hy
    rw [List.eq_of_mem_replicate hy]
    exact h x (List.mem_of_mem_filter ((sort_perm _).subset hx))

omit [IsStrictOrderedRing 𝕜] in
/-- Without positive elements, the `k`-th one is zero from where the zeros begin. -/
theorem orderStatistic_eq_zero_iff (h : ∀ x ∈ xs, x ≤ 0) (k : ℕ) :
    orderStatistic xs k = 0 ↔ xs.length ≤ k + xs.count 0 := by
  have hlength : (sort (xs.filter (· ≠ 0))).length + xs.count 0 = xs.length := by
    have hsort := congrArg List.length (sort_eq_append_replicate h)
    rw [length_sort, List.length_append, List.length_replicate] at hsort
    exact hsort.symm
  rw [orderStatistic, sort_eq_append_replicate h]
  rcases Nat.lt_or_ge k (sort (xs.filter (· ≠ 0))).length with hlt | hge
  · -- in front of the zeros there are none
    have hmem := (sort_perm (xs.filter (· ≠ 0))).subset (List.getElem_mem hlt)
    have hne : (sort (xs.filter (· ≠ 0)))[k] ≠ 0 := by
      simpa using (List.mem_filter.mp hmem).2
    rw [List.getD_append _ _ _ _ hlt, List.getD_eq_getElem _ _ hlt]
    exact iff_of_false hne (by omega)
  · rw [List.getD_append_right _ _ _ _ hge, List.getD_eq_getElem?_getD,
      List.getElem?_getD_replicate_default_eq]
    exact iff_of_true rfl (by omega)

/-- Without positive elements, the median is zero exactly if more than half of the list is. -/
theorem median_eq_zero_iff (h : ∀ x ∈ xs, x ≤ 0) (hne : xs ≠ []) :
    median xs = 0 ↔ xs.length < 2 * xs.count 0 := by
  have hlen : 0 < xs.length := List.length_pos_iff.mpr hne
  have hlow : (xs.length - 1) / 2 < xs.length := by omega
  have hhigh : xs.length / 2 < xs.length := by omega
  -- a sum of two numbers that are not positive is zero only if both are
  have hsum : median xs = 0 ↔
      orderStatistic xs ((xs.length - 1) / 2) = 0 ∧ orderStatistic xs (xs.length / 2) = 0 := by
    have hlow' := h _ (orderStatistic_mem hlow)
    have hhigh' := h _ (orderStatistic_mem hhigh)
    rw [median, div_eq_zero_iff, or_iff_left (two_ne_zero' 𝕜)]
    constructor
    · intro hzero
      exact ⟨by linarith, by linarith⟩
    · rintro ⟨hzero, hzero'⟩
      rw [hzero, hzero', add_zero]
  rw [hsum, orderStatistic_eq_zero_iff h, orderStatistic_eq_zero_iff h]
  omega

end Median
