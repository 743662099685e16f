import JavaExamples.Common.WeightedSum
import JavaExamples.SimMetrics.SmithWatermanGotoh
import JavaExamples.SimMetrics.Soundex
import JavaExamples.SimMetrics.TokeniserWhitespace

/-!
# Monge-Elkan

Every token of the first string is looked for in the second one, and the best it finds counts.

* `mongeElkan_words`: with what is set by default, the similarity is `1` just if every word of the
  first string is a part of a word of the second one or has one as a part of it. What else the
  second string has to offer does not matter.
* `chapmanMatchingSoundex_words`: with `Soundex` instead, every word has to find one of its code,
  and the similarity ends at `43/45`.
-/

namespace SimMetrics

/-- A tokeniser that does not come to an end gives `none`. -/
structure MongeElkan where
  tokeniser : JavaString → Option (List JavaString)
  internalStringMetric : JavaString → JavaString → ℚ

namespace MongeElkan

variable {metric : MongeElkan} {str1Token : JavaString} {str1Tokens str2Tokens : List JavaString}

/-- What is kept of the best match so far and the one that is found. -/
def better (metric : MongeElkan) (str1Token : JavaString) (maxFound : ℚ) (str2Token : JavaString) :
    ℚ :=
  let found := metric.internalStringMetric str1Token str2Token
  if found > maxFound then found else maxFound

/-- The inner loop. -/
def maxFound (metric : MongeElkan) (str2Tokens : List JavaString) (str1Token : JavaString) : ℚ :=
  str2Tokens.foldl (metric.better str1Token) 0

/-- The outer loop. -/
def sumMatches (metric : MongeElkan) (str1Tokens str2Tokens : List JavaString) : ℚ :=
  str1Tokens.foldl (fun sum str1Token => sum + metric.maxFound str2Tokens str1Token) 0

/-- The inner `none` is `NaN`, the result of dividing zero by zero. -/
def getSimilarity (metric : MongeElkan) (string1 string2 : JavaString) : Option (Option ℚ) := do
  let str1Tokens ← metric.tokeniser string1
  let str2Tokens ← metric.tokeniser string2
  return if str1Tokens.length = 0 then none
    else some (metric.sumMatches str1Tokens str2Tokens / str1Tokens.length)

/-- The constructor that takes a metric only. -/
def ofMetric (isWord : JavaString → Bool) (fuel : ℕ)
    (metricToUse : JavaString → JavaString → ℚ) : MongeElkan where
  tokeniser input := TokeniserWhitespace.tokenize isWord input fuel ([], 0)
  internalStringMetric := metricToUse

/-- The constructor without arguments. -/
def withDefaults (toLowerCase : JavaChar → JavaChar) (isWord : JavaString → Bool) (fuel : ℕ) :
    MongeElkan :=
  ofMetric isWord fuel
    (SmithWatermanGotoh AffineGap5_1 (SubCost5_3_Minus3 toLowerCase)).getSimilarity

end MongeElkan

/-- The constructor without arguments. -/
def ChapmanMatchingSoundex (toUpperCase : JavaString → JavaString) (isWord : JavaString → Bool)
    (fuel : ℕ) : MongeElkan :=
  MongeElkan.ofMetric isWord fuel (Soundex.getSimilarity {} toUpperCase)

namespace MongeElkan

open TableFill (isGreatest_foldl_max)

open WeightedSum

variable {metric : MongeElkan} {str1Token : JavaString} {str1Tokens str2Tokens : List JavaString}
  {cap : ℚ} {Alike : JavaString → JavaString → Prop}

/-! ## The best match -/

theorem better_eq (metric : MongeElkan) (str1Token : JavaString) :
    metric.better str1Token = fun maxFound str2Token =>
      max maxFound (metric.internalStringMetric str1Token str2Token) := by
  funext maxFound str2Token
  unfold better
  dsimp only
  split
  · rename_i hlt
    exact (max_eq_right hlt.le).symm
  · rename_i hle
    exact (max_eq_left (not_lt.mp hle)).symm

theorem isGreatest_maxFound (metric : MongeElkan) (str2Tokens : List JavaString)
    (str1Token : JavaString) :
    IsGreatest (insert 0 {found | ∃ str2Token ∈ str2Tokens,
      metric.internalStringMetric str1Token str2Token = found})
      (metric.maxFound str2Tokens str1Token) := by
  rw [maxFound, better_eq]
  exact isGreatest_foldl_max _ _ _

/-- What a metric does not exceed, and the strings for which it gets there. -/
structure Capped (metric : JavaString → JavaString → ℚ) (cap : ℚ)
    (Alike : JavaString → JavaString → Prop) : Prop where
  pos : 0 < cap
  le : ∀ s t, metric s t ≤ cap
  eq_iff : ∀ s t, metric s t = cap ↔ Alike s t

theorem maxFound_bounds (hcap : Capped metric.internalStringMetric cap Alike)
    (str2Tokens : List JavaString) (str1Token : JavaString) :
    0 ≤ metric.maxFound str2Tokens str1Token ∧ metric.maxFound str2Tokens str1Token ≤ cap ∧
      (metric.maxFound str2Tokens str1Token = cap ↔
        ∃ str2Token ∈ str2Tokens, Alike str1Token str2Token) := by
  obtain ⟨hmem, hbound⟩ := isGreatest_maxFound metric str2Tokens str1Token
  have hle : metric.maxFound str2Tokens str1Token ≤ cap := by
    rcases hmem with heq | ⟨str2Token, -, heq⟩
    · exact heq ▸ hcap.pos.le
    · exact heq ▸ hcap.le str1Token str2Token
  refine ⟨hbound (Set.mem_insert _ _), hle, fun heq => ?_, ?_⟩
  -- the cap is positive, so it is not where the loop starts
  · rw [heq] at hmem
    obtain ⟨str2Token, htoken, hfound⟩ := hmem.resolve_left hcap.pos.ne'
    exact ⟨str2Token, htoken, (hcap.eq_iff _ _).mp hfound⟩
  · rintro ⟨str2Token, htoken, halike⟩
    exact le_antisymm hle (hbound (.inr ⟨str2Token, htoken, (hcap.eq_iff _ _).mpr halike⟩))

/-! ## The average -/

theorem sumMatches_eq (str1Tokens str2Tokens : List JavaString) :
    metric.sumMatches str1Tokens str2Tokens =
      (str1Tokens.map (metric.maxFound str2Tokens)).sum := by
  rw [sumMatches, List.sum_eq_foldl, List.foldl_map]

theorem average_bounds (hcap : Capped metric.internalStringMetric cap Alike)
    (h : str1Tokens ≠ []) (str2Tokens : List JavaString) :
    0 ≤ metric.sumMatches str1Tokens str2Tokens / str1Tokens.length ∧
      metric.sumMatches str1Tokens str2Tokens / str1Tokens.length ≤ cap ∧
      (metric.sumMatches str1Tokens str2Tokens / str1Tokens.length = cap ↔
        ∀ str1Token ∈ str1Tokens, ∃ str2Token ∈ str2Tokens, Alike str1Token str2Token) := by
  have hpos : (0 : ℚ) < str1Tokens.length := Nat.cast_pos.mpr (List.length_pos_iff.mpr h)
  have hbounds := maxFound_bounds hcap str2Tokens
  have hnonneg : ∀ str1Token ∈ str1Tokens, 0 ≤ metric.maxFound str2Tokens str1Token :=
    fun str1Token _ => (hbounds str1Token).1
  have hcapped : ∀ str1Token ∈ str1Tokens, metric.maxFound str2Tokens str1Token ≤ cap :=
    fun str1Token _ => (hbounds str1Token).2.1
  -- every token weighs the same
  have hsum := sum_mul_nonneg (fun _ _ => zero_le_one) hnonneg
  have hle := sum_mul_le (fun _ _ => zero_le_one) hcapped
  have hiff := sum_mul_eq_iff (fun _ _ => one_pos) hcapped
  simp only [one_mul, List.map_const', List.sum_replicate, nsmul_eq_mul, mul_one]
    at hsum hle hiff
  rw [sumMatches_eq, div_le_iff₀ hpos, div_eq_iff hpos.ne', mul_comm cap]
  exact ⟨div_nonneg hsum hpos.le, hle,
    hiff.trans (forall₂_congr fun str1Token _ => (hbounds str1Token).2.2)⟩

/-! ## The words of two strings -/

section Words

open SmithWatermanGotohWindowedAffine (getSimilarity_bounds)

open TokeniserWhitespace

variable {metricToUse : JavaString → JavaString → ℚ} {isWord : JavaString → Bool} {fuel : ℕ}
  {string1 string2 : JavaString} {result : Option ℚ}

/-- The strings have a similarity if both are free of non-breaking spaces and there are words in the
first one, and then it is the greatest just if every word finds one that is alike. -/
theorem similarity_words (hcap : Capped metricToUse cap Alike) (isWord : JavaString → Bool)
    (string1 string2 : JavaString) :
    ((∃ fuel result, (ofMetric isWord fuel metricToUse).getSimilarity string1 string2 =
        some result) ↔ 0xA0 ∉ string1 ∧ 0xA0 ∉ string2) ∧
      ∀ fuel result,
        (ofMetric isWord fuel metricToUse).getSimilarity string1 string2 = some result →
        (result = none ↔ words isWord string1 = []) ∧
        ∀ similarity, result = some similarity → 0 ≤ similarity ∧ similarity ≤ cap ∧
          (similarity = cap ↔ ∀ word ∈ words isWord string1, ∃ other ∈ words isWord string2,
            Alike word other) := by
  refine tokenize_both isWord string1 string2 (fun fuel str1Tokens str2Tokens =>
    if str1Tokens.length = 0 then none
    else some ((ofMetric isWord fuel metricToUse).sumMatches str1Tokens str2Tokens /
      str1Tokens.length)) fun fuel => ?_
  -- without words the sum is divided by zero
  rcases eq_or_ne (words isWord string1) [] with hnil | hwords
  · rw [if_pos (List.length_eq_zero_iff.mpr hnil)]
    exact ⟨iff_of_true rfl hnil, fun similarity hsome => absurd hsome (by simp)⟩
  · rw [if_neg (mt List.length_eq_zero_iff.mp hwords)]
    refine ⟨iff_of_false (Option.some_ne_none _) hwords, fun similarity hsome => ?_⟩
    rw [← Option.some.inj hsome]
    exact average_bounds hcap hwords (words isWord string2)

theorem capped_default (toLowerCase : JavaChar → JavaChar) :
    Capped (SmithWatermanGotoh AffineGap5_1 (SubCost5_3_Minus3 toLowerCase)).getSimilarity 1
      fun s t => s <:+: t ∨ t <:+: s := by
  have hdefaults : SmithWatermanGotoh AffineGap5_1 (SubCost5_3_Minus3 toLowerCase) =
      SmithWatermanGotohWindowedAffine.withDefaults toLowerCase 5 1 2147483647 := rfl
  rw [hdefaults]
  exact ⟨one_pos, fun s t => (getSimilarity_bounds (by norm_num) zero_le_one s t).2.1,
    fun s t => (getSimilarity_bounds (by norm_num) zero_le_one s t).2.2⟩

theorem capped_soundex (toUpperCase : JavaString → JavaString) :
    Capped (Soundex.getSimilarity {} toUpperCase) (43 / 45) (Soundex.SameCode toUpperCase) :=
  ⟨by norm_num, Soundex.getSimilarity_le toUpperCase, fun _ _ => Soundex.getSimilarity_eq_iff⟩

theorem mongeElkan_words (toLowerCase : JavaChar → JavaChar) (isWord : JavaString → Bool)
    (string1 string2 : JavaString) :
    ((∃ fuel result, (withDefaults toLowerCase isWord fuel).getSimilarity string1 string2 =
        some result) ↔ 0xA0 ∉ string1 ∧ 0xA0 ∉ string2) ∧
      ∀ fuel result,
        (withDefaults toLowerCase isWord fuel).getSimilarity string1 string2 = some result →
        (result = none ↔ words isWord string1 = []) ∧
        ∀ similarity, result = some similarity → 0 ≤ similarity ∧ similarity ≤ 1 ∧
          (similarity = 1 ↔ ∀ word ∈ words isWord string1, ∃ other ∈ words isWord string2,
            word <:+: other ∨ other <:+: word) :=
  similarity_words (capped_default toLowerCase) isWord string1 string2

theorem chapmanMatchingSoundex_words (toUpperCase : JavaString → JavaString)
    (isWord : JavaString → Bool) (string1 string2 : JavaString) :
    ((∃ fuel result, (ChapmanMatchingSoundex toUpperCase isWord fuel).getSimilarity string1
        string2 = some result) ↔ 0xA0 ∉ string1 ∧ 0xA0 ∉ string2) ∧
      ∀ fuel result, (ChapmanMatchingSoundex toUpperCase isWord fuel).getSimilarity string1
          string2 = some result →
        (result = none ↔ words isWord string1 = []) ∧
        ∀ similarity, result = some similarity → 0 ≤ similarity ∧ similarity ≤ 43 / 45 ∧
          (similarity = 43 / 45 ↔
            ∀ word ∈ words isWord string1, ∃ other ∈ words isWord string2,
              Soundex.SameCode toUpperCase word other) :=
  similarity_words (capped_soundex toUpperCase) isWord string1 string2

end Words

end MongeElkan

end SimMetrics
