import JavaExamples.Common.WeightedSum
import JavaExamples.SimMetrics.SmithWaterman
import JavaExamples.SimMetrics.Soundex
import JavaExamples.SimMetrics.TokeniserWhitespace

/-!
# Names compared from the end

The words of two strings are compared in pairs, the last ones first, by `Soundex` and by
`SmithWaterman`, and a pair counts less the further in front it stands.

* `sum_strWeightingAdjustment`: what the pairs count adds up to `1`, however many there are.
* `chapmanOrdered_words`: the similarity ends at `44/45`, and gets there just if the words of every
  pair have the same code and one is a part of the other.
-/

namespace SimMetrics

/-- A tokeniser that does not come to an end gives `none`. -/
structure ChapmanOrderedNameCompoundSimilarity where
  tokeniser : JavaString → Option (List JavaString)
  internalStringMetric1 : JavaString → JavaString → ℚ
  internalStringMetric2 : JavaString → JavaString → ℚ

namespace ChapmanOrderedNameCompoundSimilarity

def SKEW_AMMOUNT : ℚ := 1

def strWeightingAdjustment (minTokens i : ℕ) : ℚ :=
  1 / minTokens +
    ((minTokens - i + 1 / 2 - minTokens / 2) / minTokens) * SKEW_AMMOUNT * (1 / minTokens)

/-- What the metrics find for the `i`-th words from the end. -/
def found (metric : ChapmanOrderedNameCompoundSimilarity) (str1Tokens str2Tokens : List JavaString)
    (i : ℕ) : ℚ :=
  let sToken := str1Tokens.getD (str1Tokens.length - i) []
  let tToken := str2Tokens.getD (str2Tokens.length - i) []
  let found1 := metric.internalStringMetric1 sToken tToken
  let found2 := metric.internalStringMetric2 sToken tToken
  1 / 2 * (found1 + found2)

def sumMatches (metric : ChapmanOrderedNameCompoundSimilarity)
    (str1Tokens str2Tokens : List JavaString) : ℚ :=
  let minTokens := min str1Tokens.length str2Tokens.length
  (List.range' 1 minTokens).foldl (fun sumMatches i =>
    sumMatches + metric.found str1Tokens str2Tokens i * strWeightingAdjustment minTokens i) 0

def getSimilarity (metric : ChapmanOrderedNameCompoundSimilarity) (string1 string2 : JavaString) :
    Option ℚ := do
  let str1Tokens ← metric.tokeniser string1
  let str2Tokens ← metric.tokeniser string2
  return metric.sumMatches str1Tokens str2Tokens

/-- The constructor without arguments. -/
def withDefaults (toUpperCase : JavaString → JavaString) (isWord : JavaString → Bool) (fuel : ℕ) :
    ChapmanOrderedNameCompoundSimilarity where
  tokeniser input := TokeniserWhitespace.tokenize isWord input fuel ([], 0)
  internalStringMetric1 := Soundex.getSimilarity {} toUpperCase
  internalStringMetric2 := SmithWaterman.getSimilarity {}

/-! ## What the pairs count -/

section Weights

variable {minTokens : ℕ}

theorem strWeightingAdjustment_eq (h : 0 < minTokens) (i : ℕ) :
    strWeightingAdjustment minTokens i = (3 * minTokens + 1 - 2 * i) / (2 * minTokens ^ 2) := by
  have hne : (minTokens : ℚ) ≠ 0 := Nat.cast_ne_zero.mpr h.ne'
  rw [strWeightingAdjustment, SKEW_AMMOUNT]
  field_simp
  ring

theorem strWeightingAdjustment_pos {i : ℕ} (h : i ∈ List.range' 1 minTokens) :
    0 < strWeightingAdjustment minTokens i := by
  rw [List.mem_range'_1] at h
  have hpos : 0 < minTokens := by omega
  have hi : (i : ℚ) ≤ minTokens := by exact_mod_cast (by omega : i ≤ minTokens)
  have hmin : (0 : ℚ) < minTokens := Nat.cast_pos.mpr hpos
  rw [strWeightingAdjustment_eq hpos]
  exact div_pos (by linarith) (by positivity)

theorem sum_range'_strWeightingAdjustment (h : 0 < minTokens) (n : ℕ) :
    ((List.range' 1 n).map (strWeightingAdjustment minTokens)).sum =
      n * (3 * minTokens - n) / (2 * minTokens ^ 2) := by
  -- the weights go down by the same amount, so their sums are quadratic
  induction n with
  | zero => simp
  | succ n ih =>
    rw [List.range'_concat, List.map_append, List.sum_append, ih, List.map_singleton,
      List.sum_singleton, strWeightingAdjustment_eq h]
    push_cast
    ring

theorem sum_strWeightingAdjustment (h : 0 < minTokens) :
    ((List.range' 1 minTokens).map (strWeightingAdjustment minTokens)).sum = 1 := by
  have hne : (minTokens : ℚ) ≠ 0 := Nat.cast_ne_zero.mpr h.ne'
  rw [sum_range'_strWeightingAdjustment h]
  field_simp
  ring

end Weights

/-! ## Pairs of words -/

open WeightedSum TokeniserWhitespace

/-- Words with the same code, one of which is a part of the other. -/
def Alike (toUpperCase : JavaString → JavaString) (s t : JavaString) : Prop :=
  Soundex.SameCode toUpperCase s t ∧ (s <:+: t ∨ t <:+: s)

variable {toUpperCase : JavaString → JavaString} {isWord : JavaString → Bool} {fuel : ℕ}

theorem pair_bounds (toUpperCase : JavaString → JavaString) (s t : JavaString) :
    0 ≤ 1 / 2 * (Soundex.getSimilarity {} toUpperCase s t + SmithWaterman.getSimilarity {} s t) ∧
      1 / 2 * (Soundex.getSimilarity {} toUpperCase s t + SmithWaterman.getSimilarity {} s t) ≤
        44 / 45 ∧
      (1 / 2 * (Soundex.getSimilarity {} toUpperCase s t + SmithWaterman.getSimilarity {} s t) =
        44 / 45 ↔ Alike toUpperCase s t) := by
  have hcode := Soundex.getSimilarity_le toUpperCase s t
  have hcodeNonneg := Soundex.getSimilarity_nonneg toUpperCase s t
  obtain ⟨hpartNonneg, hpart, hpartIff⟩ :=
    SmithWaterman.getSimilarity_bounds (show (0 : ℚ) < 1 / 2 by norm_num) s t
  rw [Alike, ← Soundex.getSimilarity_eq_iff, ← hpartIff]
  -- both parts end at their own greatest value
  refine ⟨by linarith, by linarith, fun heq => ⟨by linarith, by linarith⟩, fun ⟨h1, h2⟩ => ?_⟩
  rw [h1, h2]
  norm_num

variable {str1Tokens str2Tokens : List JavaString}

/-- The pairs are those of the two lists read backwards. -/
theorem forall_pair_iff {P : JavaString → JavaString → Prop} :
    (∀ i ∈ List.range' 1 (min str1Tokens.length str2Tokens.length),
      P (str1Tokens.getD (str1Tokens.length - i) []) (str2Tokens.getD (str2Tokens.length - i) [])) ↔
      ∀ pair ∈ str1Tokens.reverse.zip str2Tokens.reverse, P pair.1 pair.2 := by
  have hget : ∀ (tokens : List JavaString) (i : ℕ) (h : i < tokens.reverse.length),
      tokens.reverse[i] = tokens.getD (tokens.length - (1 + i)) [] := by
    intro tokens i h
    rw [List.length_reverse] at h
    rw [List.getD_eq_getElem?_getD, List.getElem?_eq_getElem (by omega), Option.getD_some,
      List.getElem_reverse]
    simp only [Nat.sub_sub]
  have hlength : (str1Tokens.reverse.zip str2Tokens.reverse).length =
      min str1Tokens.length str2Tokens.length := by
    rw [List.length_zip, List.length_reverse, List.length_reverse]
  constructor
  · intro h
    rw [List.forall_mem_iff_forall_getElem]
    intro i hi
    rw [hlength] at hi
    rw [List.getElem_zip, hget, hget]
    exact h (1 + i) (List.mem_range'_1.mpr ⟨by omega, by omega⟩)
  · intro h i hi
    obtain ⟨hfirst, hlast⟩ := List.mem_range'_1.mp hi
    -- the pair `i` from the end is number `i - 1` backwards
    have hpair := h _ (List.getElem_mem (n := i - 1) (by omega))
    rw [List.getElem_zip, hget, hget, Nat.add_sub_cancel' hfirst] at hpair
    exact hpair

/-- Without pairs nothing is added up. -/
theorem sumMatches_of_nil (metric : ChapmanOrderedNameCompoundSimilarity)
    (h : str1Tokens = [] ∨ str2Tokens = []) : metric.sumMatches str1Tokens str2Tokens = 0 := by
  have hmin : min str1Tokens.length str2Tokens.length = 0 := by
    rcases h with rfl | rfl
    · exact Nat.zero_min _
    · exact Nat.min_zero _
  rw [sumMatches, hmin]
  rfl

theorem sumMatches_eq (metric : ChapmanOrderedNameCompoundSimilarity) :
    metric.sumMatches str1Tokens str2Tokens =
      ((List.range' 1 (min str1Tokens.length str2Tokens.length)).map fun i =>
        strWeightingAdjustment (min str1Tokens.length str2Tokens.length) i *
          metric.found str1Tokens str2Tokens i).sum := by
  rw [sumMatches, List.sum_eq_foldl, List.foldl_map]
  simp only [mul_comm]

theorem sumMatches_bounds (toUpperCase : JavaString → JavaString) (isWord : JavaString → Bool)
    (fuel : ℕ) (h1 : str1Tokens ≠ []) (h2 : str2Tokens ≠ []) :
    0 ≤ (withDefaults toUpperCase isWord fuel).sumMatches str1Tokens str2Tokens ∧
      (withDefaults toUpperCase isWord fuel).sumMatches str1Tokens str2Tokens ≤ 44 / 45 ∧
      ((withDefaults toUpperCase isWord fuel).sumMatches str1Tokens str2Tokens = 44 / 45 ↔
        ∀ pair ∈ str1Tokens.reverse.zip str2Tokens.reverse, Alike toUpperCase pair.1 pair.2) := by
  have hpos : 0 < min str1Tokens.length str2Tokens.length :=
    lt_min (List.length_pos_iff.mpr h1) (List.length_pos_iff.mpr h2)
  have hbounds := fun i : ℕ =>
    pair_bounds toUpperCase (str1Tokens.getD (str1Tokens.length - i) [])
      (str2Tokens.getD (str2Tokens.length - i) [])
  have hweight : ∀ i ∈ List.range' 1 (min str1Tokens.length str2Tokens.length),
      0 < strWeightingAdjustment (min str1Tokens.length str2Tokens.length) i := fun _ hi =>
    strWeightingAdjustment_pos hi
  have hcapped : ∀ i ∈ List.range' 1 (min str1Tokens.length str2Tokens.length),
      (withDefaults toUpperCase isWord fuel).found str1Tokens str2Tokens i ≤ 44 / 45 := fun i _ =>
    (hbounds i).2.1
  -- the weights add up to one, so the sum is an average
  have hle := sum_mul_le (fun i hi => (hweight i hi).le) hcapped
  have hiff := sum_mul_eq_iff hweight hcapped
  rw [sum_strWeightingAdjustment hpos, one_mul] at hle hiff
  rw [sumMatches_eq]
  refine ⟨?_, hle, hiff.trans ?_⟩
  · exact sum_mul_nonneg (fun i hi => (hweight i hi).le) fun i _ => (hbounds i).1
  · rw [← forall_pair_iff]
    exact forall₂_congr fun i _ => (hbounds i).2.2

/-! ## The words of two strings -/

/-- The strings have a similarity if both are free of non-breaking spaces. As `Soundex` ends at
`43/45`, it is never `1`, not even for a string and itself. -/
theorem chapmanOrdered_words (toUpperCase : JavaString → JavaString) (isWord : JavaString → Bool)
    (string1 string2 : JavaString) :
    ((∃ fuel similarity, (withDefaults toUpperCase isWord fuel).getSimilarity string1 string2 =
        some similarity) ↔ 0xA0 ∉ string1 ∧ 0xA0 ∉ string2) ∧
      ∀ fuel similarity,
        (withDefaults toUpperCase isWord fuel).getSimilarity string1 string2 = some similarity →
        0 ≤ similarity ∧ similarity ≤ 44 / 45 ∧
        (similarity = 44 / 45 ↔ words isWord string1 ≠ [] ∧ words isWord string2 ≠ [] ∧
          ∀ pair ∈ (words isWord string1).reverse.zip (words isWord string2).reverse,
            Alike toUpperCase pair.1 pair.2) := by
  refine tokenize_both isWord string1 string2 (fun fuel =>
    (withDefaults toUpperCase isWord fuel).sumMatches) fun fuel => ?_
  by_cases hnil : words isWord string1 = [] ∨ words isWord string2 = []
  · rw [sumMatches_of_nil _ hnil]
    refine ⟨le_rfl, by norm_num, iff_of_false (by norm_num) fun ⟨h1, h2, _⟩ => ?_⟩
    exact hnil.elim h1 h2
  · obtain ⟨h1, h2⟩ := not_or.mp hnil
    obtain ⟨hnonneg, hle, hiff⟩ := sumMatches_bounds toUpperCase isWord fuel h1 h2
    exact ⟨hnonneg, hle, hiff.trans ⟨fun h => ⟨h1, h2, h⟩, fun h => h.2.2⟩⟩

end ChapmanOrderedNameCompoundSimilarity

end SimMetrics
