import JavaExamples.Common.QGrams
import JavaExamples.SimMetrics.Levenshtein

/-!
# Metrics that count tokens

`BlockDistance` and `QGramsDistance`, and the tokenisers that cut a string into q-grams.

* `countDifference_eq`: what both metrics count is the number of tokens that only one string has.
* `tokenMetric`: it is a metric of the tokens, whatever the tokeniser, and the similarities go from
  `0` to `1`. Only `QGramsDistance` looks out for strings without tokens.
* `qGrams_le_levenshtein`: three edited letters at most for each.
-/

namespace SimMetrics

open QGrams EditDistance

/-! ## Tokenisers -/

/-- `tokenizeToArrayList` of an `InterfaceTokeniser`. -/
abbrev Tokeniser := JavaString → List JavaString

/-- The loop over the positions of a string. The stop word handler `isWord` leaves terms out;
`DummyStopTermHandler` knows no stop words. -/
def tokenizeQGrams (isWord : JavaString → Bool) (q : ℕ) (adjustedString : JavaString) :
    List JavaString :=
  ((List.range (adjustedString.length - (q - 1))).map fun curPos =>
    (adjustedString.drop curPos).take q).filter fun term => ¬isWord term

/-- `'#'`. -/
def QGRAMPADDING : JavaChar := 0x23

def TokeniserQGram2 (isWord : JavaString → Bool) : Tokeniser := tokenizeQGrams isWord 2

def TokeniserQGram3 (isWord : JavaString → Bool) : Tokeniser := tokenizeQGrams isWord 3

def TokeniserQGram2Extended (isWord : JavaString → Bool) : Tokeniser := fun input =>
  tokenizeQGrams isWord 2 ([QGRAMPADDING] ++ input ++ [QGRAMPADDING])

def TokeniserQGram3Extended (isWord : JavaString → Bool) : Tokeniser := fun input =>
  tokenizeQGrams isWord 3 ([QGRAMPADDING, QGRAMPADDING] ++ input ++ [QGRAMPADDING, QGRAMPADDING])

def DummyStopTermHandler.isWord : JavaString → Bool := fun _ => false

/-! ## The metrics -/

/-- The loop over all tokens of both strings, which counts them in each. -/
def countDifference (str1Tokens str2Tokens : List JavaString) : ℕ :=
  ∑ token ∈ (str1Tokens ++ str2Tokens).toFinset,
    let matching1 := str1Tokens.countP fun str1Token => str1Token = token
    let matching2 := str2Tokens.countP fun str2Token => str2Token = token
    if matching1 > matching2 then matching1 - matching2 else matching2 - matching1

namespace BlockDistance

def getUnNormalisedSimilarity (tokeniser : Tokeniser) (string1 string2 : JavaString) : ℕ :=
  countDifference (tokeniser string1) (tokeniser string2)

/-- `none` is `NaN`, the result of dividing zero by zero. -/
def getSimilarity (tokeniser : Tokeniser) (string1 string2 : JavaString) : Option ℚ :=
  let totalPossible := (tokeniser string1).length + (tokeniser string2).length
  let totalDistance := getUnNormalisedSimilarity tokeniser string1 string2
  if totalPossible = 0 then none
  else some (((totalPossible : ℚ) - totalDistance) / totalPossible)

end BlockDistance

namespace QGramsDistance

def getUnNormalisedSimilarity (tokeniser : Tokeniser) (string1 string2 : JavaString) : ℕ :=
  countDifference (tokeniser string1) (tokeniser string2)

def getSimilarity (tokeniser : Tokeniser) (string1 string2 : JavaString) : ℚ :=
  let maxQGramsMatching := (tokeniser string1).length + (tokeniser string2).length
  if maxQGramsMatching = 0 then 0
  else ((maxQGramsMatching : ℚ) - getUnNormalisedSimilarity tokeniser string1 string2) /
    maxQGramsMatching

end QGramsDistance

theorem count_eq_countP (tokens : List JavaString) (token : JavaString) :
    (tokens : Multiset JavaString).count token =
      tokens.countP fun strToken => strToken = token := by
  rw [Multiset.count, Multiset.coe_countP]
  exact List.countP_congr fun strToken _ => by simp only [eq_comm]

theorem countDifference_eq (str1Tokens str2Tokens : List JavaString) :
    countDifference str1Tokens str2Tokens =
      difference (str1Tokens : Multiset JavaString) str2Tokens := by
  rw [← sum_eq_difference (S := (str1Tokens ++ str2Tokens).toFinset)
    (fun token h => List.mem_toFinset.mpr (List.mem_append_left _ (Multiset.mem_coe.mp h)))
    (fun token h => List.mem_toFinset.mpr (List.mem_append_right _ (Multiset.mem_coe.mp h))),
    countDifference]
  refine Finset.sum_congr rfl fun token _ => ?_
  rw [count_eq_countP, count_eq_countP]
  dsimp only
  split <;> omega

theorem countDifference_eq_zero_iff {str1Tokens str2Tokens : List JavaString} :
    countDifference str1Tokens str2Tokens = 0 ↔ str1Tokens.Perm str2Tokens := by
  rw [countDifference_eq, difference_eq_zero_iff, Multiset.coe_eq_coe]

theorem countDifference_le (str1Tokens str2Tokens : List JavaString) :
    countDifference str1Tokens str2Tokens ≤ str1Tokens.length + str2Tokens.length := by
  rw [countDifference_eq]
  exact difference_le_card _ _

theorem QGramsDistance.getSimilarity_bounds (tokeniser : Tokeniser) (s t : JavaString) :
    0 ≤ getSimilarity tokeniser s t ∧ getSimilarity tokeniser s t ≤ 1 ∧
      (getSimilarity tokeniser s t = 1 ↔ (tokeniser s).Perm (tokeniser t) ∧ tokeniser s ≠ []) := by
  have hle := countDifference_le (tokeniser s) (tokeniser t)
  have hperm : countDifference (tokeniser s) (tokeniser t) = 0 ↔ _ := countDifference_eq_zero_iff
  rw [getSimilarity, getUnNormalisedSimilarity]
  rcases Nat.eq_zero_or_pos ((tokeniser s).length + (tokeniser t).length) with hzero | hpos
  · rw [if_pos hzero]
    have hempty : tokeniser s = [] := List.length_eq_zero_iff.mp (Nat.add_eq_zero_iff.mp hzero).1
    exact ⟨le_rfl, zero_le_one, iff_of_false zero_ne_one fun h => h.2 hempty⟩
  · have hcast : (0 : ℚ) < ((tokeniser s).length + (tokeniser t).length : ℕ) :=
      Nat.cast_pos.mpr hpos
    have hdifference : (0 : ℚ) ≤ countDifference (tokeniser s) (tokeniser t) := Nat.cast_nonneg _
    rw [if_neg hpos.ne']
    refine ⟨div_nonneg (sub_nonneg.mpr (Nat.cast_le.mpr hle)) hcast.le,
      div_le_one_of_le₀ (sub_le_self _ hdifference) hcast.le, ?_⟩
    rw [div_eq_one_iff_eq hcast.ne', sub_eq_self, Nat.cast_eq_zero, hperm]
    -- there are tokens at all, so the same tokens are not none
    refine ⟨fun h => ⟨h, fun hempty => ?_⟩, fun h => h.1⟩
    rw [hempty] at h hpos
    rw [List.nil_perm.mp h] at hpos
    exact lt_irrefl _ hpos

/-- The number of tokens that only one list has is a metric of their multisets. -/
theorem countDifference_metric (str1Tokens str2Tokens str3Tokens : List JavaString) :
    countDifference str1Tokens str2Tokens = countDifference str2Tokens str1Tokens ∧
      (countDifference str1Tokens str2Tokens = 0 ↔ str1Tokens.Perm str2Tokens) ∧
      countDifference str1Tokens str3Tokens ≤
        countDifference str1Tokens str2Tokens + countDifference str2Tokens str3Tokens := by
  refine ⟨?_, countDifference_eq_zero_iff, ?_⟩
  · rw [countDifference_eq, countDifference_eq, difference_comm]
  · rw [countDifference_eq, countDifference_eq, countDifference_eq]
    exact difference_triangle _ _ _

/-- Both distances are metrics of the tokens; what `QGramsDistance` makes of its own goes from `0`
to `1`, which strings with the same tokens have, and `BlockDistance` makes the same of it unless
there are no tokens at all. -/
theorem tokenMetric (tokeniser : Tokeniser) (s t u : JavaString) :
    (QGramsDistance.getUnNormalisedSimilarity tokeniser s t =
        QGramsDistance.getUnNormalisedSimilarity tokeniser t s ∧
      (QGramsDistance.getUnNormalisedSimilarity tokeniser s t = 0 ↔
        (tokeniser s).Perm (tokeniser t)) ∧
      QGramsDistance.getUnNormalisedSimilarity tokeniser s u ≤
        QGramsDistance.getUnNormalisedSimilarity tokeniser s t +
          QGramsDistance.getUnNormalisedSimilarity tokeniser t u) ∧
    (BlockDistance.getUnNormalisedSimilarity tokeniser s t =
        BlockDistance.getUnNormalisedSimilarity tokeniser t s ∧
      (BlockDistance.getUnNormalisedSimilarity tokeniser s t = 0 ↔
        (tokeniser s).Perm (tokeniser t)) ∧
      BlockDistance.getUnNormalisedSimilarity tokeniser s u ≤
        BlockDistance.getUnNormalisedSimilarity tokeniser s t +
          BlockDistance.getUnNormalisedSimilarity tokeniser t u) ∧
    (0 ≤ QGramsDistance.getSimilarity tokeniser s t ∧
      QGramsDistance.getSimilarity tokeniser s t ≤ 1 ∧
      (QGramsDistance.getSimilarity tokeniser s t = 1 ↔
        (tokeniser s).Perm (tokeniser t) ∧ tokeniser s ≠ [])) ∧
    BlockDistance.getSimilarity tokeniser s t =
      if tokeniser s = [] ∧ tokeniser t = [] then none
      else some (QGramsDistance.getSimilarity tokeniser s t) := by
  refine ⟨countDifference_metric _ _ _, countDifference_metric _ _ _,
    QGramsDistance.getSimilarity_bounds tokeniser s t, ?_⟩
  have hempty : (tokeniser s).length + (tokeniser t).length = 0 ↔
      tokeniser s = [] ∧ tokeniser t = [] := by
    rw [Nat.add_eq_zero_iff, List.length_eq_zero_iff, List.length_eq_zero_iff]
  simp only [BlockDistance.getSimilarity, QGramsDistance.getSimilarity, hempty]
  split
  · rfl
  · rfl

/-- An edit of a letter changes at most three trigrams of either string, so `QGramsDistance` is at
most six times `Levenshtein`, whatever stop words are left out. -/
theorem qGrams_le_levenshtein (isWord : JavaString → Bool) (s t : JavaString) :
    (QGramsDistance.getUnNormalisedSimilarity (TokeniserQGram3Extended isWord) s t : ℚ) ≤
      6 * Levenshtein.getUnNormalisedSimilarity s t := by
  obtain ⟨d, hd, hdistance⟩ := Levenshtein.isDistance s t
  have htokens : ∀ input, (TokeniserQGram3Extended isWord input : Multiset JavaString) =
      (qGrams 3 ([QGRAMPADDING, QGRAMPADDING] ++ input ++ [QGRAMPADDING, QGRAMPADDING]) :
        Multiset JavaString).filter fun term => ¬isWord term := fun input => rfl
  -- every edit lies between the paddings, which are as long as a trigram needs
  have hedits := Edits.difference_le (q := 3)
    (show 3 - 1 ≤ [QGRAMPADDING, QGRAMPADDING].length from le_rfl)
    (show 3 - 1 ≤ [QGRAMPADDING, QGRAMPADDING].length from le_rfl) hdistance.1.edits
  have hle : QGramsDistance.getUnNormalisedSimilarity (TokeniserQGram3Extended isWord) s t ≤
      d * 6 := by
    rw [QGramsDistance.getUnNormalisedSimilarity, countDifference_eq, htokens, htokens]
    exact (difference_filter_le _ _ _).trans hedits
  rw [hd, mul_comm]
  exact_mod_cast hle

end SimMetrics
