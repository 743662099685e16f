import JavaExamples.Common.CountVectors
import JavaExamples.SimMetrics.SetSimilarities

/-!
# Metrics of tokens as vectors

`CosineSimilarity` takes the vectors of two sets of tokens, and `EuclideanDistance` those that say
how often each token occurs. What is computed in `float` is taken as exact, what is computed in
`int` wraps around.

* `cosine_between`: the cosine lies between `DiceSimilarity` and `OverlapCoefficient`.
* `euclidean_metric`: the distance is a metric of the tokens as long as none of the strings has more
  than 46340 of them.
* `euclidean_similarity`: the similarity is `0` only for strings that repeat one token each, and it
  has no root to divide by once the squares of the lengths add up to `2 ^ 31`.
-/

namespace SimMetrics

open CountVectors

/-! ## The metrics -/

/-- What Java divides by zero here is zero, so there is no number. -/
noncomputable def CosineSimilarity.getSimilarity (tokeniser : Tokeniser)
    (string1 string2 : JavaString) : Option ℝ :=
  let str1Tokens := tokeniser string1
  let str2Tokens := tokeniser string2
  let denominator := √(termsInString str1Tokens : ℝ) * √(termsInString str2Tokens : ℝ)
  if denominator = 0 then none else some (commonTerms str1Tokens str2Tokens / denominator)

namespace EuclideanDistance

/-- The loop over all tokens of both strings, in which `int`s are multiplied. -/
def totalDistance (str1Tokens str2Tokens : List JavaString) : ℤ :=
  ∑ token ∈ (str1Tokens ++ str2Tokens).toFinset,
    let countInString1 : ℤ := str1Tokens.countP fun sToken => sToken = token
    let countInString2 : ℤ := str2Tokens.countP fun sToken => sToken = token
    ((countInString1 - countInString2) * (countInString1 - countInString2)).bmod (2 ^ 32)

/-- `Math.sqrt`, which gives no number for one below zero. -/
noncomputable def sqrt (x : ℤ) : Option ℝ := if x < 0 then none else some √(x : ℝ)

noncomputable def getUnNormalisedSimilarity (tokeniser : Tokeniser)
    (string1 string2 : JavaString) : Option ℝ :=
  sqrt (totalDistance (tokeniser string1) (tokeniser string2))

/-- The sum of the squares, as `int`. -/
def squaresOfSizes (n m : ℕ) : ℤ :=
  (((n : ℤ) * n).bmod (2 ^ 32) + ((m : ℤ) * m).bmod (2 ^ 32)).bmod (2 ^ 32)

noncomputable def getSimilarity (tokeniser : Tokeniser) (string1 string2 : JavaString) :
    Option ℝ := do
  let totalPossible ← sqrt
    (squaresOfSizes (tokeniser string1).length (tokeniser string2).length)
  let totalDistance ← getUnNormalisedSimilarity tokeniser string1 string2
  if totalPossible = 0 then none else some ((totalPossible - totalDistance) / totalPossible)

end EuclideanDistance

/-! ## The cosine -/

/-- The geometric mean lies between the smaller number and the arithmetic mean. -/
theorem geometric_mean_bounds (n m : ℕ) :
    ((min n m : ℕ) : ℝ) ≤ √(n : ℝ) * √(m : ℝ) ∧ 2 * (√(n : ℝ) * √(m : ℝ)) ≤ n + m := by
  have hn := Real.sq_sqrt (Nat.cast_nonneg n : (0 : ℝ) ≤ n)
  have hm := Real.sq_sqrt (Nat.cast_nonneg m : (0 : ℝ) ≤ m)
  constructor
  · have hmin := Real.mul_self_sqrt (Nat.cast_nonneg (min n m) : (0 : ℝ) ≤ (min n m : ℕ))
    rw [← hmin]
    exact mul_le_mul (Real.sqrt_le_sqrt (Nat.cast_le.mpr (min_le_left n m)))
      (Real.sqrt_le_sqrt (Nat.cast_le.mpr (min_le_right n m))) (Real.sqrt_nonneg _)
      (Real.sqrt_nonneg _)
  -- the square of what the roots differ by is not negative
  · linarith [sq_nonneg (√(n : ℝ) - √(m : ℝ)), sub_sq √(n : ℝ) √(m : ℝ)]

theorem cosine_shares {common first second : ℕ} (hfirst : 0 < first) (hsecond : 0 < second)
    (hl : common ≤ first) (hr : common ≤ second) :
    ((2 * common : ℕ) / (first + second : ℕ) : ℝ) ≤
        common / (√(first : ℝ) * √(second : ℝ)) ∧
      (common / (√(first : ℝ) * √(second : ℝ)) : ℝ) ≤ common / (min first second : ℕ) ∧
      ((common / (√(first : ℝ) * √(second : ℝ)) : ℝ) = 1 ↔ common = first ∧ common = second) := by
  obtain ⟨hmin, hmean⟩ := geometric_mean_bounds first second
  have hsum : (0 : ℝ) < (first + second : ℕ) := Nat.cast_pos.mpr (Nat.add_pos_left hfirst _)
  have hminpos : (0 : ℝ) < (min first second : ℕ) := Nat.cast_pos.mpr (lt_min hfirst hsecond)
  have hroot := hminpos.trans_le hmin
  have hcommon : (0 : ℝ) ≤ common := Nat.cast_nonneg _
  refine ⟨?_, div_le_div_of_nonneg_left hcommon hminpos hmin, ?_⟩
  · rw [div_le_div_iff₀ hsum hroot, Nat.cast_mul, Nat.cast_add, Nat.cast_two]
    calc 2 * (common : ℝ) * (√(first : ℝ) * √(second : ℝ))
        = common * (2 * (√(first : ℝ) * √(second : ℝ))) := by ring
      _ ≤ common * (first + second) := mul_le_mul_of_nonneg_left hmean hcommon
  · rw [div_eq_one_iff_eq hroot.ne']
    constructor
    · intro heq
      have hle : common ≤ min first second := le_min hl hr
      -- without the roots: the square of what is common is the product of both
      have hsquare : (common : ℝ) * common = first * second := by
        nth_rewrite 1 [heq]
        rw [heq, mul_mul_mul_comm, Real.mul_self_sqrt (Nat.cast_nonneg _),
          Real.mul_self_sqrt (Nat.cast_nonneg _)]
      have hproduct : common * common = first * second := by exact_mod_cast hsquare
      constructor
      · nlinarith
      · nlinarith
    · rintro ⟨rfl, heq⟩
      rw [← heq, Real.mul_self_sqrt hcommon]

/-- The cosine of two sets is `1` for the same sets only. -/
theorem cosine_between (tokeniser : Tokeniser) (s t : JavaString) (hs : tokeniser s ≠ [])
    (ht : tokeniser t ≠ []) :
    ∃ dice cosine overlap, DiceSimilarity.getSimilarity tokeniser s t = some dice ∧
      CosineSimilarity.getSimilarity tokeniser s t = some cosine ∧
      OverlapCoefficient.getSimilarity tokeniser s t = some overlap ∧
      (dice : ℝ) ≤ cosine ∧ cosine ≤ (overlap : ℝ) ∧
      (cosine = 1 ↔ tokeniser s ⊆ tokeniser t ∧ tokeniser t ⊆ tokeniser s) := by
  have hfirst := termsInString_pos hs
  have hsecond := termsInString_pos ht
  obtain ⟨hdice, hoverlap, hone⟩ := cosine_shares hfirst hsecond
    (commonTerms_le_left (tokeniser s) (tokeniser t))
    (commonTerms_le_right (tokeniser s) (tokeniser t))
  have hroot : √(termsInString (tokeniser s) : ℝ) * √(termsInString (tokeniser t) : ℝ) ≠ 0 :=
    mul_ne_zero (Real.sqrt_ne_zero'.mpr (Nat.cast_pos.mpr hfirst))
      (Real.sqrt_ne_zero'.mpr (Nat.cast_pos.mpr hsecond))
  refine ⟨_, _, _, quotient_eq_some (Nat.add_pos_left hfirst _), if_neg hroot,
    quotient_eq_some (lt_min hfirst hsecond), ?_, ?_, ?_⟩
  · rwa [Rat.cast_div, Rat.cast_natCast, Rat.cast_natCast]
  · rwa [Rat.cast_div, Rat.cast_natCast, Rat.cast_natCast]
  · rw [hone, commonTerms_eq_left_iff, commonTerms_eq_right_iff]

theorem cosine_between_bigrams :
    ∃ dice cosine, DiceSimilarity.getSimilarity (TokeniserQGram2 DummyStopTermHandler.isWord)
        [0x61, 0x62, 0x63] [0x61, 0x62] = some dice ∧
      CosineSimilarity.getSimilarity (TokeniserQGram2 DummyStopTermHandler.isWord)
        [0x61, 0x62, 0x63] [0x61, 0x62] = some cosine ∧ (dice : ℝ) ≤ cosine := by
  obtain ⟨dice, cosine, overlap, hdice, hcosine, -, hle, -⟩ := cosine_between
    (TokeniserQGram2 DummyStopTermHandler.isWord) [0x61, 0x62, 0x63] [0x61, 0x62] (by decide)
    (by decide)
  exact ⟨dice, cosine, hdice, hcosine, hle⟩

/-! ## The distance of the counts -/

namespace EuclideanDistance

variable {str1Tokens str2Tokens : List JavaString}

/-- Up to this many tokens, the square of a difference fits into an `int`. -/
theorem totalDistance_eq (h1 : str1Tokens.length ≤ 46340) (h2 : str2Tokens.length ≤ 46340) :
    totalDistance str1Tokens str2Tokens =
      squaredDistance (str1Tokens : Multiset JavaString) str2Tokens := by
  rw [← sum_eq_squaredDistance (S := (str1Tokens ++ str2Tokens).toFinset)
    (fun token h => List.mem_toFinset.mpr (List.mem_append_left _ (Multiset.mem_coe.mp h)))
    (fun token h => List.mem_toFinset.mpr (List.mem_append_right _ (Multiset.mem_coe.mp h))),
    totalDistance]
  refine Finset.sum_congr rfl fun token _ => ?_
  rw [← count_eq_countP, ← count_eq_countP]
  dsimp only
  have hcount1 := (Multiset.count_le_card token (str1Tokens : Multiset JavaString)).trans h1
  have hcount2 := (Multiset.count_le_card token (str2Tokens : Multiset JavaString)).trans h2
  -- neither count exceeds the number of tokens
  have habs : |((str1Tokens : Multiset JavaString).count token : ℤ) -
      (str2Tokens : Multiset JavaString).count token| ≤ 46340 := by
    rw [abs_le]
    omega
  rw [← sq]
  have hsquare := sq_le_sq' (abs_le.mp habs).1 (abs_le.mp habs).2
  refine Int.bmod_eq_of_le ?_ ?_
  · have hnonneg := sq_nonneg (((str1Tokens : Multiset JavaString).count token : ℤ) -
      (str2Tokens : Multiset JavaString).count token)
    omega
  · omega

theorem getUnNormalisedSimilarity_eq {tokeniser : Tokeniser} {s t : JavaString}
    (hs : (tokeniser s).length ≤ 46340) (ht : (tokeniser t).length ≤ 46340) :
    getUnNormalisedSimilarity tokeniser s t =
      some √(squaredDistance (tokeniser s : Multiset JavaString) (tokeniser t) : ℝ) := by
  rw [getUnNormalisedSimilarity, totalDistance_eq hs ht]
  exact if_neg (not_lt.mpr (squaredDistance_nonneg _ _))

/-- The distance of strings that do not have too many tokens. -/
theorem euclidean_metric (tokeniser : Tokeniser) (s t u : JavaString)
    (hs : (tokeniser s).length ≤ 46340) (ht : (tokeniser t).length ≤ 46340)
    (hu : (tokeniser u).length ≤ 46340) :
    ∃ x y z, getUnNormalisedSimilarity tokeniser s t = some x ∧
      getUnNormalisedSimilarity tokeniser t u = some y ∧
      getUnNormalisedSimilarity tokeniser s u = some z ∧
      getUnNormalisedSimilarity tokeniser t s = some x ∧
      (x = 0 ↔ (tokeniser s).Perm (tokeniser t)) ∧ z ≤ x + y := by
  refine ⟨_, _, _, getUnNormalisedSimilarity_eq hs ht, getUnNormalisedSimilarity_eq ht hu,
    getUnNormalisedSimilarity_eq hs hu, ?_, ?_, sqrt_squaredDistance_triangle _ _ _⟩
  · rw [getUnNormalisedSimilarity_eq ht hs, squaredDistance_comm]
  · rw [Real.sqrt_eq_zero (Int.cast_nonneg (squaredDistance_nonneg _ _)), Int.cast_eq_zero,
      squaredDistance_eq_zero_iff, Multiset.coe_eq_coe]

theorem euclidean_metric_bigrams :
    ∃ x y z, getUnNormalisedSimilarity (TokeniserQGram2 DummyStopTermHandler.isWord) [0x61, 0x62]
        [0x61, 0x62, 0x63] = some x ∧
      getUnNormalisedSimilarity (TokeniserQGram2 DummyStopTermHandler.isWord) [0x61, 0x62, 0x63]
        [0x62, 0x63] = some y ∧
      getUnNormalisedSimilarity (TokeniserQGram2 DummyStopTermHandler.isWord) [0x61, 0x62]
        [0x62, 0x63] = some z ∧ z ≤ x + y := by
  obtain ⟨x, y, z, hx, hy, hz, -, -, htriangle⟩ := euclidean_metric
    (TokeniserQGram2 DummyStopTermHandler.isWord) [0x61, 0x62] [0x61, 0x62, 0x63] [0x62, 0x63]
    (by decide +kernel) (by decide +kernel) (by decide +kernel)
  exact ⟨x, y, z, hx, hy, hz, htriangle⟩

/-! ## The similarity -/

theorem squaresOfSizes_eq (n m : ℕ) :
    squaresOfSizes n m = ((n : ℤ) ^ 2 + (m : ℤ) ^ 2).bmod (2 ^ 32) := by
  have hproducts : squaresOfSizes n m = ((n : ℤ) * n + (m : ℤ) * m).bmod (2 ^ 32) :=
    (Int.add_bmod _ _ _).symm
  rw [hproducts, pow_two, pow_two]

theorem sqrt_squaresOfSizes {n m : ℕ} (h : n ^ 2 + m ^ 2 < 2 ^ 32) :
    sqrt (squaresOfSizes n m) =
      if 2 ^ 31 ≤ n ^ 2 + m ^ 2 then none else some √((n : ℝ) ^ 2 + (m : ℝ) ^ 2) := by
  rw [squaresOfSizes_eq, sqrt]
  have hcast : (n : ℤ) ^ 2 + (m : ℤ) ^ 2 = (n ^ 2 + m ^ 2 : ℕ) := by push_cast; rfl
  rw [hcast]
  -- from `2 ^ 31` on the sum wraps round and has no root
  by_cases hlarge : 2 ^ 31 ≤ n ^ 2 + m ^ 2
  · have hneg : ((n ^ 2 + m ^ 2 : ℕ) : ℤ).bmod (2 ^ 32) < 0 := by
      rw [Int.bmod_def]
      split <;> omega
    rw [if_pos hlarge, if_pos hneg]
  · rw [if_neg hlarge, Int.bmod_eq_of_le (by omega) (by omega), if_neg (by omega),
      Int.cast_natCast, Nat.cast_add, Nat.cast_pow, Nat.cast_pow]

/-- What is left of the root of the greatest distance. -/
theorem root_share {possible distance : ℝ} (hpos : 0 < possible) (hnonneg : 0 ≤ distance)
    (hle : distance ≤ possible) :
    0 ≤ (√possible - √distance) / √possible ∧ (√possible - √distance) / √possible ≤ 1 ∧
      ((√possible - √distance) / √possible = 1 ↔ distance = 0) ∧
      ((√possible - √distance) / √possible = 0 ↔ distance = possible) := by
  have hroot : 0 < √possible := Real.sqrt_pos.mpr hpos
  refine ⟨div_nonneg (sub_nonneg.mpr (Real.sqrt_le_sqrt hle)) hroot.le,
    div_le_one_of_le₀ (sub_le_self _ (Real.sqrt_nonneg _)) hroot.le, ?_, ?_⟩
  · rw [div_eq_one_iff_eq hroot.ne', sub_eq_self, Real.sqrt_eq_zero hnonneg]
  · rw [div_eq_zero_iff, or_iff_left hroot.ne', sub_eq_zero, eq_comm,
      Real.sqrt_inj hnonneg hpos.le]

theorem getSimilarity_eq {tokeniser : Tokeniser} {s t : JavaString}
    (h : (tokeniser s).length ^ 2 + (tokeniser t).length ^ 2 < 2 ^ 31) :
    getSimilarity tokeniser s t =
      if √(((tokeniser s).length : ℝ) ^ 2 + ((tokeniser t).length : ℝ) ^ 2) = 0 then none
      else some ((√(((tokeniser s).length : ℝ) ^ 2 + ((tokeniser t).length : ℝ) ^ 2) -
          √(squaredDistance (tokeniser s : Multiset JavaString) (tokeniser t) : ℝ)) /
        √(((tokeniser s).length : ℝ) ^ 2 + ((tokeniser t).length : ℝ) ^ 2)) := by
  have hpossible := sqrt_squaresOfSizes (h.trans (by norm_num))
  rw [if_neg (not_le.mpr h)] at hpossible
  rw [getSimilarity, hpossible,
    getUnNormalisedSimilarity_eq (by nlinarith) (by nlinarith)]
  rfl

/-- The root of a sum that has wrapped round is no number. -/
theorem getSimilarity_of_large {tokeniser : Tokeniser} {s t : JavaString}
    (h : (tokeniser s).length ^ 2 + (tokeniser t).length ^ 2 < 2 ^ 32)
    (hlarge : 2 ^ 31 ≤ (tokeniser s).length ^ 2 + (tokeniser t).length ^ 2) :
    getSimilarity tokeniser s t = none := by
  have hpossible := sqrt_squaresOfSizes h
  rw [if_pos hlarge] at hpossible
  rw [getSimilarity, hpossible]
  rfl

theorem getSimilarity_eq_none_iff {tokeniser : Tokeniser} {s t : JavaString}
    (h : (tokeniser s).length ^ 2 + (tokeniser t).length ^ 2 < 2 ^ 31) :
    getSimilarity tokeniser s t = none ↔ tokeniser s = [] ∧ tokeniser t = [] := by
  have hroot : √(((tokeniser s).length : ℝ) ^ 2 + ((tokeniser t).length : ℝ) ^ 2) = 0 ↔
      tokeniser s = [] ∧ tokeniser t = [] := by
    have hcast : ((tokeniser s).length : ℝ) ^ 2 + ((tokeniser t).length : ℝ) ^ 2 =
        ((tokeniser s).length ^ 2 + (tokeniser t).length ^ 2 : ℕ) := by
      push_cast
      rfl
    rw [hcast, Real.sqrt_eq_zero (Nat.cast_nonneg _), Nat.cast_eq_zero, Nat.add_eq_zero_iff,
      sq_eq_zero_iff, sq_eq_zero_iff, List.length_eq_zero_iff, List.length_eq_zero_iff]
  rw [getSimilarity_eq h, ← hroot]
  split
  · rename_i hzero
    exact iff_of_true rfl hzero
  · rename_i hne
    exact iff_of_false (Option.some_ne_none _) hne

/-- The similarity is what the distance leaves of the greatest one for so many tokens. -/
theorem getSimilarity_bounds {tokeniser : Tokeniser} {s t : JavaString}
    (h : (tokeniser s).length ^ 2 + (tokeniser t).length ^ 2 < 2 ^ 31) {x : ℝ}
    (hx : getSimilarity tokeniser s t = some x) : 0 ≤ x ∧ x ≤ 1 ∧
      (x = 1 ↔ (tokeniser s).Perm (tokeniser t)) ∧
      (x = 0 ↔ (∀ a ∈ tokeniser s, ∀ b ∈ tokeniser s, a = b) ∧
        (∀ a ∈ tokeniser t, ∀ b ∈ tokeniser t, a = b) ∧
        ∀ a ∈ tokeniser s, a ∉ tokeniser t) := by
  have hle : (squaredDistance (tokeniser s : Multiset JavaString) (tokeniser t) : ℝ) ≤
      ((tokeniser s).length : ℝ) ^ 2 + ((tokeniser t).length : ℝ) ^ 2 := by
    exact_mod_cast squaredDistance_le (tokeniser s : Multiset JavaString) (tokeniser t)
  have hnonneg : (0 : ℝ) ≤ squaredDistance (tokeniser s : Multiset JavaString) (tokeniser t) :=
    Int.cast_nonneg (squaredDistance_nonneg _ _)
  have hgreatest := squaredDistance_eq_iff (A := (tokeniser s : Multiset JavaString))
    (B := (tokeniser t : Multiset JavaString))
  simp only [Multiset.mem_coe, Multiset.coe_card] at hgreatest
  rw [getSimilarity_eq h, Option.ite_none_left_eq_some] at hx
  obtain ⟨hroot, hx⟩ := hx
  obtain ⟨hshare, hshareLe, hone, hnone⟩ := root_share (Real.sqrt_ne_zero'.mp hroot) hnonneg hle
  rw [← Option.some.inj hx]
  refine ⟨hshare, hshareLe, hone.trans ?_, hnone.trans ?_⟩
  · rw [Int.cast_eq_zero, squaredDistance_eq_zero_iff, Multiset.coe_eq_coe]
  · rw [← hgreatest]
    norm_cast

/-- With squares below `2 ^ 32`, the similarity is a number if they stay below `2 ^ 31` and there
are tokens at all. It is `1` for the same tokens, and `0` for strings that are as far apart as their
lengths allow. -/
theorem euclidean_similarity (tokeniser : Tokeniser) (s t : JavaString)
    (h : (tokeniser s).length ^ 2 + (tokeniser t).length ^ 2 < 2 ^ 32) :
    (getSimilarity tokeniser s t = none ↔ (tokeniser s = [] ∧ tokeniser t = []) ∨
      2 ^ 31 ≤ (tokeniser s).length ^ 2 + (tokeniser t).length ^ 2) ∧
    ∀ x, getSimilarity tokeniser s t = some x → 0 ≤ x ∧ x ≤ 1 ∧
      (x = 1 ↔ (tokeniser s).Perm (tokeniser t)) ∧
      (x = 0 ↔ (∀ a ∈ tokeniser s, ∀ b ∈ tokeniser s, a = b) ∧
        (∀ a ∈ tokeniser t, ∀ b ∈ tokeniser t, a = b) ∧
        ∀ a ∈ tokeniser s, a ∉ tokeniser t) := by
  by_cases hlarge : 2 ^ 31 ≤ (tokeniser s).length ^ 2 + (tokeniser t).length ^ 2
  · rw [getSimilarity_of_large h hlarge]
    exact ⟨iff_of_true rfl (.inr hlarge), fun x hx => nomatch hx⟩
  · rw [or_iff_left hlarge]
    exact ⟨getSimilarity_eq_none_iff (not_le.mp hlarge), fun x hx =>
      getSimilarity_bounds (not_le.mp hlarge) hx⟩

theorem euclidean_similarity_bigrams :
    getSimilarity (TokeniserQGram2 DummyStopTermHandler.isWord) [0x61, 0x62] [0x62, 0x63] ≠
      none := by
  refine mt (euclidean_similarity (TokeniserQGram2 DummyStopTermHandler.isWord) [0x61, 0x62]
    [0x62, 0x63] (by decide +kernel)).1.mp (not_or.mpr ⟨?_, by decide +kernel⟩)
  exact fun h => absurd h.1 (by decide)

end EuclideanDistance

end SimMetrics
