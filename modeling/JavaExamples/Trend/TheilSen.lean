import Mathlib.Data.List.Nodup
import JavaExamples.Trend.Algorithms

/-!
# The slopes of all pairs

`TheilSenSlopeAlgorithm` counts the pairs in `int` arithmetic, allocates an array of that size and
fills it in two nested loops. From 46342 samples on, the product `n * (n - 1)` wraps around before
it is divided.

* `mem_pairs`, `nodup_pairs`: the loops come to every pair once.
* `size_of_le`, `size_of_lt`: up to which length the array has a place for each.
* `analyze_of_le`, `analyze_of_lt`: the median of the slopes is returned up to there, and an
  exception thrown behind it.
* `usesEveryPair_iff`: when every pair is used once.
-/

namespace Trend

namespace TheilSenSlopeAlgorithm

/-! ## Pairs -/

/-- The pairs in the order of the loops. -/
def pairs (n : ℕ) : List (ℕ × ℕ) :=
  (List.range n).flatMap fun i => (List.range' (i + 1) (n - (i + 1))).map fun j => (i, j)

theorem mem_pairs {n i j : ℕ} : (i, j) ∈ pairs n ↔ i < j ∧ j < n := by
  simp only [pairs, List.mem_flatMap, List.mem_range, List.mem_map, List.mem_range'_1,
    Prod.mk.injEq]
  constructor
  · rintro ⟨i, hi, j, hj, rfl, rfl⟩
    omega
  · rintro ⟨hij, hjn⟩
    exact ⟨i, by omega, j, by omega, rfl, rfl⟩

theorem nodup_pairs (n : ℕ) : (pairs n).Nodup := by
  rw [pairs, List.nodup_flatMap]
  constructor
  · intro i _
    exact (List.nodup_range' _).map fun j j' h => (Prod.mk.inj h).2
  · refine List.nodup_range.imp fun {i i'} hne pair hpair hpair' => ?_
    -- the first index tells the passes of the outer loop apart
    obtain ⟨j, -, rfl⟩ := List.mem_map.mp hpair
    obtain ⟨j', -, heq⟩ := List.mem_map.mp hpair'
    exact hne (Prod.mk.inj heq).1.symm

theorem slopes_eq_map (delta : List ℚ) : slopes delta = (pairs delta.length).map (slope delta) := by
  rw [slopes, pairs, List.map_flatMap]
  simp only [List.map_map]
  rfl

theorem length_pairs (delta : List ℚ) :
    (pairs delta.length).length = delta.length * (delta.length - 1) / 2 := by
  rw [← length_slopes, slopes_eq_map, List.length_map]

theorem loops_eq (delta : List ℚ) (filling : ArrayFill.Filling (ℕ × ℕ) ℚ) :
    loops delta filling = (pairs delta.length).foldlM (ArrayFill.put (slope delta)) filling := by
  rw [loops, pairs, ← ArrayFill.foldlM_foldlM_put]
  simp only [List.foldlM_map]

/-! ## The size of the array -/

theorem cast_mul_pred (n : ℕ) : (n : ℤ) * (n - 1) = (n * (n - 1) : ℕ) := by
  cases n with
  | zero => rfl
  | succ n =>
    rw [Nat.add_sub_cancel]
    push_cast
    ring

theorem size_lt_two_pow (n : ℕ) : size n < 2 ^ 30 := by
  have hlt : (((n : ℤ) * (n - 1)).bmod (2 ^ 32)) < (2 ^ 32 + 1) / 2 := Int.bmod_lt (by decide)
  rw [size]
  -- the division rounds towards zero
  rcases Int.le_total 0 (((n : ℤ) * (n - 1)).bmod (2 ^ 32)) with hnonneg | hneg
  · rw [Int.tdiv_eq_ediv_of_nonneg hnonneg]
    omega
  · have hneg' := Int.tdiv_nonneg (Int.neg_nonneg_of_nonpos hneg) (by decide : (0 : ℤ) ≤ 2)
    rw [Int.neg_tdiv] at hneg'
    omega

/-- The product fits an `int`. -/
theorem size_of_le {n : ℕ} (h : n ≤ 46341) : size n = (n * (n - 1) / 2 : ℕ) := by
  have hle : n * (n - 1) ≤ 46341 * 46340 := Nat.mul_le_mul h (by omega)
  rw [size, cast_mul_pred, Int.bmod_eq_of_le (by omega) (by omega),
    Int.tdiv_eq_ediv_of_nonneg (by omega)]
  exact (Int.natCast_ediv _ 2).symm

/-- There are more pairs than half of the largest `int`. -/
theorem size_of_lt {n : ℕ} (h : 46341 < n) : size n < (n * (n - 1) / 2 : ℕ) := by
  have hle : 46342 * 46341 ≤ n * (n - 1) := Nat.mul_le_mul h (by omega)
  -- wherever the product has wrapped around to, half of it is less than `2 ^ 30`
  have hlt := size_lt_two_pow n
  omega

/-! ## The filled array -/

/-- The array with the slopes of all pairs, and where each has been written. -/
def filled (delta : List ℚ) : ArrayFill.Filling (ℕ × ℕ) ℚ where
  array := slopes delta
  position := (delta.length * (delta.length - 1) / 2 : ℕ)
  written := (pairs delta.length).zipIdx

theorem allocate_natCast (k : ℕ) : allocate (k : ℤ) = .ok (List.replicate k 0) := by
  rw [allocate, if_neg (Int.not_lt.mpr (Int.natCast_nonneg k)), Int.toNat_natCast]

theorem fill_of_le {delta : List ℚ} (h : delta.length ≤ 46341) :
    fill delta = .ok (filled delta) := by
  have hle : delta.length * (delta.length - 1) ≤ 46341 * 46340 := Nat.mul_le_mul h (by omega)
  have hlen : (List.replicate (delta.length * (delta.length - 1) / 2) (0 : ℚ)).length < 2 ^ 31 := by
    rw [List.length_replicate]
    omega
  have hroom : (pairs delta.length).length ≤
      (List.replicate (delta.length * (delta.length - 1) / 2) (0 : ℚ)).length := by
    rw [length_pairs, List.length_replicate]
  -- the array is as long as the list of pairs, so nothing is left of its zeros
  have hloops := ArrayFill.foldlM_put_of_le (slope delta) (pairs delta.length) hlen hroom
  rw [← loops_eq, ← slopes_eq_map, length_pairs, List.drop_replicate, Nat.sub_self,
    List.replicate_zero, List.append_nil] at hloops
  -- first the allocation, then the loops
  show (allocate (size delta.length)).bind _ = _
  rw [size_of_le h, allocate_natCast]
  show (loops delta _).mapError _ = _
  rw [hloops]
  rfl

/-- The product has wrapped around to a negative number. -/
theorem fill_of_neg {delta : List ℚ} (h : size delta.length < 0) :
    fill delta = .error (.negativeArraySize (size delta.length)) := by
  show (allocate (size delta.length)).bind _ = _
  rw [allocate, if_pos h]
  rfl

theorem fill_of_lt {delta : List ℚ} (h : 46341 < delta.length) :
    ∃ failure, fill delta = .error failure := by
  have hlt := size_of_lt h
  rcases Int.lt_or_le (size delta.length) 0 with hneg | hnonneg
  · exact ⟨_, fill_of_neg hneg⟩
  · -- the array is allocated, but has no room for all pairs
    obtain ⟨k, hk⟩ := Int.eq_ofNat_of_zero_le hnonneg
    rw [hk] at hlt
    have hmax := size_lt_two_pow delta.length
    have hlen : (List.replicate k (0 : ℚ)).length < 2 ^ 31 := by
      rw [List.length_replicate]
      omega
    have hroom : (List.replicate k (0 : ℚ)).length < (pairs delta.length).length := by
      rw [length_pairs, List.length_replicate]
      omega
    refine ⟨.arrayIndexOutOfBounds k, ?_⟩
    show (allocate (size delta.length)).bind _ = _
    rw [hk, allocate_natCast]
    show (loops delta _).mapError _ = _
    rw [loops_eq, ArrayFill.foldlM_put_of_lt _ _ hlen hroom, List.length_replicate]
    rfl

/-- The result from the slopes of all pairs. -/
def medianSlope : TrendAlgorithm := fun input => result (medianOf (slopes input.delta))

variable {input : TrendInput}

theorem analyze_of_le (h : input.delta.length ≤ 46341) :
    analyze input = .ok (medianSlope input) := by
  show (fill input.delta).bind _ = _
  rw [fill_of_le h]
  rfl

theorem analyze_of_error {failure : Failure} (h : fill input.delta = .error failure) :
    analyze input = .error failure := by
  show (fill input.delta).bind _ = _
  rw [h]
  rfl

theorem analyze_of_lt (h : 46341 < input.delta.length) :
    ∃ failure, analyze input = .error failure := by
  obtain ⟨failure, hfill⟩ := fill_of_lt h
  exact ⟨failure, analyze_of_error hfill⟩

/-- There is a slope as soon as there are two deltas. -/
theorem slopes_ne_nil {delta : List ℚ} (h : 2 ≤ delta.length) : slopes delta ≠ [] := by
  intro hnil
  have hlen := length_slopes delta
  rw [hnil, List.length_nil] at hlen
  have hpairs : 2 ≤ delta.length * (delta.length - 1) :=
    Nat.mul_le_mul h (by omega : 1 ≤ delta.length - 1)
  omega

/-! ## Every pair once -/

/-- The array has a slot for each pair, every slot has been written once, with the slope of a pair
of its own, and no slope divides by zero. -/
structure FilledOnce (delta : List ℚ) (filling : ArrayFill.Filling (ℕ × ℕ) ℚ) : Prop where
  size : filling.array.length = delta.length * (delta.length - 1) / 2
  slots : filling.written.map Prod.snd = List.range (delta.length * (delta.length - 1) / 2)
  distinct : (filling.written.map Prod.fst).Nodup
  pairs : ∀ i j, (i, j) ∈ filling.written.map Prod.fst ↔ i < j ∧ j < delta.length
  slopes : ∀ i j slot, ((i, j), slot) ∈ filling.written →
    (j - i : ℤ) ≠ 0 ∧
      filling.array[slot]? = some ((delta.getD j 0 - delta.getD i 0) / ((j - i : ℤ) : ℚ))

/-- The array is filled, and the median of the slopes of all pairs is returned, in whichever order
they are taken. -/
def UsesEveryPair (input : TrendInput) : Prop :=
  (∃ filling, fill input.delta = .ok filling ∧ FilledOnce input.delta filling) ∧
    ∃ result, analyze input = .ok result ∧
      ∀ pairs : List (ℕ × ℕ), pairs.Nodup →
        (∀ i j, (i, j) ∈ pairs ↔ i < j ∧ j < input.delta.length) →
          result.value = Median.median (pairs.map (slope input.delta))

theorem slope_eq {delta : List ℚ} {i j : ℕ} (h : i < j) :
    slope delta (i, j) = (delta.getD j 0 - delta.getD i 0) / ((j - i : ℤ) : ℚ) := by
  show _ / ((j - i : ℕ) : ℚ) = _
  rw [Nat.cast_sub (le_of_lt h)]
  push_cast
  rfl

theorem filledOnce_filled (delta : List ℚ) : FilledOnce delta (filled delta) where
  size := length_slopes delta
  slots := by
    show (pairs delta.length).zipIdx.map Prod.snd = _
    rw [List.zipIdx_map_snd, length_pairs, List.range_eq_range']
  distinct := by
    show ((pairs delta.length).zipIdx.map Prod.fst).Nodup
    rw [List.zipIdx_map_fst]
    exact nodup_pairs _
  pairs i j := by
    show (i, j) ∈ (pairs delta.length).zipIdx.map Prod.fst ↔ _
    rw [List.zipIdx_map_fst]
    exact mem_pairs
  slopes i j slot hwritten := by
    have hget : (pairs delta.length)[slot]? = some (i, j) :=
      List.mem_zipIdx_iff_getElem?.mp hwritten
    have hij : i < j := (mem_pairs.mp (List.mem_of_getElem? hget)).1
    refine ⟨by omega, ?_⟩
    show (TheilSenSlopeAlgorithm.slopes delta)[slot]? = _
    rw [slopes_eq_map, List.getElem?_map, hget, Option.map_some, slope_eq hij]

theorem value_medianSlope (hlen : 2 ≤ input.delta.length) {ps : List (ℕ × ℕ)} (hnodup : ps.Nodup)
    (hmem : ∀ i j, (i, j) ∈ ps ↔ i < j ∧ j < input.delta.length) :
    (medianSlope input).value = Median.median (ps.map (slope input.delta)) := by
  -- two lists of all pairs without repetition are permutations of each other
  have hperm : (pairs input.delta.length).Perm ps := by
    rw [List.perm_ext_iff_of_nodup (nodup_pairs _) hnodup]
    rintro ⟨i, j⟩
    rw [mem_pairs, hmem]
  show medianOf (slopes input.delta) = _
  rw [medianOf_eq_median (slopes_ne_nil hlen), slopes_eq_map]
  exact Median.median_perm (hperm.map _)

end TheilSenSlopeAlgorithm

open TheilSenSlopeAlgorithm

/-- On an accepted input, every pair is used once exactly if there are at most 46341 samples. -/
theorem usesEveryPair_iff {current reference : List ℚ} {input : TrendInput}
    (h : TrendInput.of (some current) (some reference) = .ok input) :
    UsesEveryPair input ↔ current.length ≤ 46341 := by
  obtain ⟨⟨hlen, hthree, -, -⟩, rfl⟩ := TrendInput.of_eq_ok_iff.mp h
  have hdelta := TrendInput.length_delta_build hlen
  rw [← hdelta]
  constructor
  · rintro ⟨-, result, hresult, -⟩
    by_contra hlt
    obtain ⟨failure, hfailure⟩ := analyze_of_lt (Nat.lt_of_not_le hlt)
    cases hfailure.symm.trans hresult
  · intro hle
    exact ⟨⟨_, fill_of_le hle, filledOnce_filled _⟩, _, analyze_of_le hle,
      fun ps hnodup hmem => value_medianSlope (by omega) hnodup hmem⟩

/-- As many samples as the product is the first to wrap around for. -/
def zeros : List ℚ := List.replicate 46342 0

theorem of_zeros :
    TrendInput.of (some zeros) (some zeros) = .ok (TrendInput.build zeros zeros) := by
  have hrates : TrendInput.Rates zeros := by
    intro value hvalue
    rw [List.eq_of_mem_replicate hvalue]
    exact ⟨le_rfl, zero_le_one⟩
  have hlen : zeros.length = 46342 := List.length_replicate
  exact TrendInput.of_eq_ok_iff.mpr ⟨⟨rfl, by omega, hrates, hrates⟩, rfl⟩

/-- Four samples. -/
def rising : List ℚ := [0.1, 0.3, 0.2, 0.6]

theorem rates_rising : TrendInput.Rates rising := by
  unfold TrendInput.Rates
  decide +kernel

theorem of_rising :
    TrendInput.of (some rising) (some rising.reverse) =
      .ok (TrendInput.build rising rising.reverse) := by
  have hreverse : TrendInput.Rates rising.reverse := by
    intro value hvalue
    exact rates_rising value (List.mem_reverse.mp hvalue)
  exact TrendInput.of_eq_ok_iff.mpr ⟨⟨rfl, by decide, rates_rising, hreverse⟩, rfl⟩

/-- Of four samples every pair is used, of 46342 not. -/
theorem usesEveryPair_iff_rising_zeros :
    UsesEveryPair (TrendInput.build rising rising.reverse) ∧
      ¬UsesEveryPair (TrendInput.build zeros zeros) := by
  constructor
  · exact (usesEveryPair_iff of_rising).mpr (by decide)
  · rw [usesEveryPair_iff of_zeros, zeros, List.length_replicate]
    omega

/-- The array of their slopes has a negative size. -/
theorem not_usesEveryPair_zeros :
    analyze (TrendInput.build zeros zeros) = .error (.negativeArraySize (-1073716337)) ∧
      ¬∀ (current reference : List ℚ) (input : TrendInput), current.length < 2 ^ 31 →
        TrendInput.of (some current) (some reference) = .ok input → UsesEveryPair input := by
  have hlen : zeros.length = 46342 := List.length_replicate
  have hdelta : (TrendInput.build zeros zeros).delta.length = 46342 :=
    (TrendInput.length_delta_build rfl).trans hlen
  have hsize : size (TrendInput.build zeros zeros).delta.length = -1073716337 := by
    rw [hdelta]
    decide
  have hanalyze : analyze (TrendInput.build zeros zeros) =
      .error (.negativeArraySize (-1073716337)) := by
    rw [← hsize]
    exact analyze_of_error (fill_of_neg (by omega))
  refine ⟨hanalyze, fun hclaim => ?_⟩
  obtain ⟨-, result, hresult, -⟩ := hclaim zeros zeros _ (by omega) of_zeros
  cases hanalyze.symm.trans hresult

end Trend
