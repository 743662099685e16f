import Mathlib.Algebra.BigOperators.Intervals
import Mathlib.Algebra.BigOperators.Ring.List
import Mathlib.Algebra.Order.BigOperators.Group.Finset
import Mathlib.Algebra.Order.Field.Basic
import Mathlib.Algebra.Order.Field.Rat
import Mathlib.Tactic.FieldSimp
import Mathlib.Tactic.LinearCombination
import Mathlib.Tactic.Positivity
import Mathlib.Tactic.Ring

/-!
# Signed ranks

The ranks of a list, where equal elements share the mean of their positions; the rank sum of the
positive elements of a list by absolute value; and the exact p-value of such a sum, the share of
subsets of `{1, …, n}` with at least that sum.

* `sum_rank`: the ranks of a list add up to `n (n + 1) / 2`, ties or not.
* `rankSum_positive_add_negative`: without zeros, those of the positive and the negative elements
  do.
* `subsetsFrom_total`: only the whole set reaches the largest sum.
* `exactPValue_antitone`: the p-value decreases in the sum.
-/

namespace SignedRank

section Rank

variable {α : Type*} [LinearOrder α]

/-- The mean of the positions, counted from one, at which `x` stands in the sorted list. -/
def rank (xs : List α) (x : α) : ℚ :=
  xs.countP (fun y => y < x) + (xs.countP (fun y => y = x) + 1) / 2

/-- The largest rank sum of a list of `n` elements. -/
def total (n : ℕ) : ℚ := n * (n + 1) / 2

/-- One more element in the list lifts the elements above it by one and its equals by a half. -/
theorem sum_rank_cons (a : α) (xs ys : List α) :
    (ys.map (rank (a :: xs))).sum =
      (ys.map (rank xs)).sum + ys.countP (fun y => a < y) + ys.countP (fun y => y = a) / 2 := by
  induction ys with
  | nil => simp
  | cons y ys ih =>
    rw [List.map_cons, List.sum_cons, ih, List.map_cons, List.sum_cons]
    rcases lt_trichotomy a y with hlt | rfl | hgt
    · simp [rank, hlt, hlt.ne, hlt.ne']
      ring
    · simp [rank]
      ring
    · simp [rank, hgt.not_gt, hgt.ne, hgt.ne']
      ring

/-- An element is above, equal to or below any other. -/
theorem countP_trichotomy (a : α) (xs : List α) :
    xs.countP (fun x => a < x) + xs.countP (fun x => x = a) + xs.countP (fun x => x < a) =
      xs.length := by
  induction xs with
  | nil => rfl
  | cons x xs ih =>
    rcases lt_trichotomy a x with hlt | rfl | hgt
    · simp [hlt, hlt.not_gt, hlt.ne']
      omega
    · simp
      omega
    · simp [hgt, hgt.not_gt, hgt.ne]
      omega

/-- The ranks add up to the sum of the positions, ties or not. -/
theorem sum_rank (xs : List α) : (xs.map (rank xs)).sum = total xs.length := by
  induction xs with
  | nil => simp [total]
  | cons a xs ih =>
    have hself : rank (a :: xs) a =
        xs.countP (fun x => x < a) + (xs.countP (fun x => x = a) + 2) / 2 := by
      simp [rank]
      ring
    have hcount : (xs.countP (fun x => a < x) : ℚ) + xs.countP (fun x => x = a) +
        xs.countP (fun x => x < a) = xs.length := by
      exact_mod_cast countP_trichotomy a xs
    rw [List.map_cons, List.sum_cons, hself, sum_rank_cons, ih, total, total, List.length_cons]
    push_cast
    linear_combination hcount

end Rank

section RankSum

variable {α : Type*} [AddCommGroup α] [LinearOrder α]

/-- The sum of the ranks, by absolute value, of the elements that qualify. -/
def rankSum (p : α → Bool) (zs : List α) : ℚ :=
  ((zs.filter p).map fun z => rank (zs.map abs) |z|).sum

/-- Elements that qualify and those that do not make up the total. -/
theorem rankSum_add_rankSum_not (p : α → Bool) (zs : List α) :
    rankSum p zs + rankSum (fun z => !p z) zs = total zs.length := by
  have hperm := (List.filter_append_perm p zs).map fun z => rank (zs.map abs) |z|
  rw [rankSum, rankSum, ← List.sum_append, ← List.map_append, hperm.sum_eq]
  have hsum := sum_rank (zs.map abs)
  rw [List.map_map, List.length_map] at hsum
  exact hsum

/-- None qualifies, no rank is added up. -/
theorem rankSum_eq_zero {p : α → Bool} {zs : List α} (h : ∀ z ∈ zs, p z = false) :
    rankSum p zs = 0 := by
  have hfilter : zs.filter p = [] := List.filter_eq_nil_iff.mpr (by simpa using h)
  rw [rankSum, hfilter, List.map_nil, List.sum_nil]

theorem rankSum_congr {p q : α → Bool} {zs : List α} (h : ∀ z ∈ zs, p z = q z) :
    rankSum p zs = rankSum q zs := by
  rw [rankSum, rankSum, List.filter_congr h]

/-- Negation leaves the ranks by absolute value as they are. -/
theorem rankSum_map_neg (p : α → Bool) (zs : List α) :
    rankSum p (zs.map Neg.neg) = rankSum (fun z => p (-z)) zs := by
  rw [rankSum, rankSum, List.filter_map, List.map_map, List.map_map]
  congr 1
  apply List.map_congr_left
  intro z _
  have habs : (abs ∘ Neg.neg : α → α) = abs := by
    ext z
    exact abs_neg z
  show rank (zs.map (abs ∘ Neg.neg)) |(-z)| = rank (zs.map abs) |z|
  rw [habs, abs_neg]

/-- Without zeros the positive and the negative elements make up the total. -/
theorem rankSum_positive_add_negative [IsOrderedAddMonoid α] {zs : List α} (h : ∀ z ∈ zs, z ≠ 0) :
    rankSum (fun z => 0 < z) zs + rankSum (fun z => z < 0) zs = total zs.length := by
  rw [← rankSum_add_rankSum_not (fun z => decide (0 < z)) zs]
  congr 1
  apply rankSum_congr
  intro z hz
  rcases lt_trichotomy 0 z with hpos | rfl | hneg
  · simp [hpos, hpos.not_gt]
  · exact absurd rfl (h 0 hz)
  · simp [hneg, hneg.not_gt]

end RankSum

section Exact

/-- The subsets of `{1, …, n}`, counted from zero, with a sum of `w` or more. -/
def subsetsFrom (n : ℕ) (w : ℚ) : Finset (Finset ℕ) :=
  (Finset.range n).powerset.filter fun s => w ≤ ((∑ i ∈ s, (i + 1) : ℕ) : ℚ)

/-- The share of these subsets among all of them, doubled for both tails. -/
def exactPValue (n : ℕ) (w : ℚ) : ℚ := 2 * (subsetsFrom n w).card / 2 ^ n

theorem exactPValue_antitone (n : ℕ) : Antitone (exactPValue n) := by
  intro w w' hw
  have hsub : subsetsFrom n w' ⊆ subsetsFrom n w :=
    Finset.monotone_filter_right _ fun s _ hs => hw.trans hs
  unfold exactPValue
  gcongr

theorem sum_range_add_one (n : ℕ) : ((∑ i ∈ Finset.range n, (i + 1) : ℕ) : ℚ) = total n := by
  induction n with
  | zero => simp [total]
  | succ n ih =>
    rw [Finset.sum_range_succ, Nat.cast_add, ih, total, total]
    push_cast
    ring

/-- The largest sum is that of the whole set alone. -/
theorem subsetsFrom_total (n : ℕ) : subsetsFrom n (total n) = {Finset.range n} := by
  ext s
  rw [subsetsFrom, Finset.mem_filter, Finset.mem_powerset, Finset.mem_singleton,
    ← sum_range_add_one, Nat.cast_le]
  constructor
  · rintro ⟨hsub, hsum⟩
    by_contra hne
    -- a proper subset lacks a positive summand
    obtain ⟨i, hi, his⟩ := Finset.exists_of_ssubset (hsub.ssubset_of_ne hne)
    have hlt : ∑ i ∈ s, (i + 1) < ∑ i ∈ Finset.range n, (i + 1) :=
      Finset.sum_lt_sum_of_subset hsub hi his (Nat.succ_pos i) fun _ _ _ => Nat.zero_le _
    exact absurd hsum (Nat.not_le.mpr hlt)
  · rintro rfl
    exact ⟨Finset.Subset.refl _, Nat.le_refl _⟩

theorem exactPValue_total (n : ℕ) : exactPValue n (total n) = 2 / 2 ^ n := by
  rw [exactPValue, subsetsFrom_total, Finset.card_singleton, Nat.cast_one, mul_one]

end Exact

end SignedRank
