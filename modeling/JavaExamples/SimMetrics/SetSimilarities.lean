import Mathlib.Tactic.FieldSimp
import Mathlib.Tactic.Linarith
import JavaExamples.Common.RelativeDistance
import JavaExamples.SimMetrics.QGramsDistance

/-!
# Metrics of sets of tokens

`JaccardSimilarity`, `DiceSimilarity` and `OverlapCoefficient` put the tokens into a `HashSet`, and
`MatchingCoefficient` looks the ones up in the others.

* `similarities_ordered`: where all are defined, they lie in a fixed order between `0` and `1`.
* `jaccard_triangle`: what two strings lack in `JaccardSimilarity` is a distance.
* `matching_bounds`: `MatchingCoefficient` depends on which string comes first.
-/

namespace SimMetrics

open QGrams RelativeDistance

/-! ## The metrics -/

/-- The size of a set to which all tokens have been added. -/
def termsInString (tokens : List JavaString) : ℕ := tokens.toFinset.card

def allTerms (str1Tokens str2Tokens : List JavaString) : ℕ :=
  (str1Tokens.toFinset ∪ str2Tokens.toFinset).card

def commonTerms (str1Tokens str2Tokens : List JavaString) : ℕ :=
  termsInString str1Tokens + termsInString str2Tokens - allTerms str1Tokens str2Tokens

/-- What Java divides by zero here is zero, so there is no number. -/
def quotient (numerator denominator : ℕ) : Option ℚ :=
  if denominator = 0 then none else some (numerator / denominator)

def JaccardSimilarity.getSimilarity (tokeniser : Tokeniser) (string1 string2 : JavaString) :
    Option ℚ :=
  let str1Tokens := tokeniser string1
  let str2Tokens := tokeniser string2
  quotient (commonTerms str1Tokens str2Tokens) (allTerms str1Tokens str2Tokens)

def DiceSimilarity.getSimilarity (tokeniser : Tokeniser) (string1 string2 : JavaString) :
    Option ℚ :=
  let str1Tokens := tokeniser string1
  let str2Tokens := tokeniser string2
  quotient (2 * commonTerms str1Tokens str2Tokens)
    (termsInString str1Tokens + termsInString str2Tokens)

def OverlapCoefficient.getSimilarity (tokeniser : Tokeniser) (string1 string2 : JavaString) :
    Option ℚ :=
  let str1Tokens := tokeniser string1
  let str2Tokens := tokeniser string2
  quotient (commonTerms str1Tokens str2Tokens)
    (min (termsInString str1Tokens) (termsInString str2Tokens))

def MatchingCoefficient.getUnNormalisedSimilarity (tokeniser : Tokeniser)
    (string1 string2 : JavaString) : ℕ :=
  (tokeniser string1).countP fun sToken => (tokeniser string2).any fun tToken => sToken = tToken

def MatchingCoefficient.getSimilarity (tokeniser : Tokeniser) (string1 string2 : JavaString) :
    Option ℚ :=
  let totalPossible := max (tokeniser string1).length (tokeniser string2).length
  quotient (getUnNormalisedSimilarity tokeniser string1 string2) totalPossible

/-! ## Sets of tokens -/

section Sets

variable {a b c : List JavaString}

theorem commonTerms_eq (a b : List JavaString) :
    commonTerms a b = (a.toFinset ∩ b.toFinset).card := by
  have hcard := Finset.card_union_add_card_inter a.toFinset b.toFinset
  rw [commonTerms, termsInString, termsInString, allTerms]
  omega

theorem allTerms_add_commonTerms (a b : List JavaString) :
    allTerms a b + commonTerms a b = termsInString a + termsInString b := by
  rw [commonTerms_eq]
  exact Finset.card_union_add_card_inter _ _

theorem commonTerms_le_left (a b : List JavaString) : commonTerms a b ≤ termsInString a := by
  rw [commonTerms_eq]
  exact Finset.card_le_card Finset.inter_subset_left

theorem commonTerms_le_right (a b : List JavaString) : commonTerms a b ≤ termsInString b := by
  rw [commonTerms_eq]
  exact Finset.card_le_card Finset.inter_subset_right

theorem termsInString_pos (h : a ≠ []) : 0 < termsInString a :=
  Finset.card_pos.mpr (List.toFinset_nonempty_iff a |>.mpr h)

/-- All terms of a list are common if it is a part of the other one. -/
theorem commonTerms_eq_left_iff : commonTerms a b = termsInString a ↔ a ⊆ b := by
  have hsubset : a.toFinset ⊆ b.toFinset ↔ a ⊆ b := by
    simp only [Finset.subset_iff, List.mem_toFinset, List.subset_def]
  rw [commonTerms_eq, termsInString, ← hsubset]
  constructor
  · intro hcard
    rw [← Finset.inter_eq_left]
    exact Finset.eq_of_subset_of_card_le Finset.inter_subset_left hcard.ge
  · intro hsubset
    rw [Finset.inter_eq_left.mpr hsubset]

theorem commonTerms_comm (a b : List JavaString) : commonTerms a b = commonTerms b a := by
  rw [commonTerms_eq, commonTerms_eq, Finset.inter_comm]

theorem commonTerms_eq_right_iff : commonTerms a b = termsInString b ↔ b ⊆ a := by
  rw [commonTerms_comm, commonTerms_eq_left_iff]

end Sets

theorem quotient_eq_some {numerator denominator : ℕ} (h : 0 < denominator) :
    quotient numerator denominator = some (numerator / denominator : ℚ) :=
  if_neg h.ne'

/-- The three shares of the common terms, with the numbers they are made of. -/
theorem shares_ordered {common first second all : ℕ} (hfirst : 0 < first) (hsecond : 0 < second)
    (hall : all + common = first + second) (hl : common ≤ first) (hr : common ≤ second) :
    (0 : ℚ) ≤ common / all ∧ (common / all : ℚ) ≤ (2 * common : ℕ) / (first + second : ℕ) ∧
      ((2 * common : ℕ) / (first + second : ℕ) : ℚ) ≤ common / (min first second : ℕ) ∧
      (common / (min first second : ℕ) : ℚ) ≤ 1 ∧
      ((2 * common : ℕ) / (first + second : ℕ) : ℚ) = 2 * (common / all) / (1 + common / all) := by
  have hallpos : (0 : ℚ) < all := Nat.cast_pos.mpr (by omega)
  have hsumpos : (0 : ℚ) < (first + second : ℕ) := Nat.cast_pos.mpr (by omega)
  have hminpos : (0 : ℚ) < (min first second : ℕ) := Nat.cast_pos.mpr (lt_min hfirst hsecond)
  refine ⟨div_nonneg (Nat.cast_nonneg _) hallpos.le, ?_, ?_, ?_, ?_⟩
  · rw [div_le_div_iff₀ hallpos hsumpos]
    exact_mod_cast (by nlinarith : common * (first + second) ≤ 2 * common * all)
  · rw [div_le_div_iff₀ hsumpos hminpos]
    have hmin : 2 * min first second ≤ first + second := by omega
    exact_mod_cast (by nlinarith : 2 * common * min first second ≤ common * (first + second))
  · exact div_le_one_of_le₀ (Nat.cast_le.mpr (le_min hl hr)) hminpos.le
  · have hcast : ((first + second : ℕ) : ℚ) = all + common := by
      rw [← hall, Nat.cast_add]
    rw [hcast] at hsumpos ⊢
    push_cast
    field_simp

/-- The three metrics lie in a fixed order, and the first two are given by each other. The first is
`1` for the same sets of tokens, the last already if one set is a part of the other. -/
theorem similarities_ordered (tokeniser : Tokeniser) (s t : JavaString) (hs : tokeniser s ≠ [])
    (ht : tokeniser t ≠ []) :
    ∃ jaccard dice overlap, JaccardSimilarity.getSimilarity tokeniser s t = some jaccard ∧
      DiceSimilarity.getSimilarity tokeniser s t = some dice ∧
      OverlapCoefficient.getSimilarity tokeniser s t = some overlap ∧
      (0 ≤ jaccard ∧ jaccard ≤ dice ∧ dice ≤ overlap ∧ overlap ≤ 1) ∧
      dice = 2 * jaccard / (1 + jaccard) ∧
      (jaccard = 1 ↔ tokeniser s ⊆ tokeniser t ∧ tokeniser t ⊆ tokeniser s) ∧
      (overlap = 1 ↔ tokeniser s ⊆ tokeniser t ∨ tokeniser t ⊆ tokeniser s) := by
  have hfirst := termsInString_pos hs
  have hsecond := termsInString_pos ht
  have hall := allTerms_add_commonTerms (tokeniser s) (tokeniser t)
  have hl := commonTerms_le_left (tokeniser s) (tokeniser t)
  have hr := commonTerms_le_right (tokeniser s) (tokeniser t)
  obtain ⟨hnonneg, hjaccard, hdice, hoverlap, heq⟩ := shares_ordered hfirst hsecond hall hl hr
  have hallpos : 0 < allTerms (tokeniser s) (tokeniser t) := by omega
  have hminpos := lt_min hfirst hsecond
  refine ⟨_, _, _, quotient_eq_some hallpos, quotient_eq_some (Nat.add_pos_left hfirst _),
    quotient_eq_some hminpos, ⟨hnonneg, hjaccard, hdice, hoverlap⟩, heq, ?_, ?_⟩
  -- all terms are common
  · rw [div_eq_one_iff_eq (Nat.cast_ne_zero.mpr hallpos.ne'), Nat.cast_inj,
      ← commonTerms_eq_left_iff, ← commonTerms_eq_right_iff]
    omega
  -- all terms of the smaller set are common
  · rw [div_eq_one_iff_eq (Nat.cast_ne_zero.mpr hminpos.ne'), Nat.cast_inj,
      ← commonTerms_eq_left_iff, ← commonTerms_eq_right_iff]
    omega

theorem similarities_ordered_bigrams :
    ∃ jaccard dice,
      JaccardSimilarity.getSimilarity (TokeniserQGram2 DummyStopTermHandler.isWord)
        [0x61, 0x62, 0x63] [0x61, 0x62] = some jaccard ∧
      DiceSimilarity.getSimilarity (TokeniserQGram2 DummyStopTermHandler.isWord)
        [0x61, 0x62, 0x63] [0x61, 0x62] = some dice ∧ jaccard ≤ dice := by
  obtain ⟨jaccard, dice, overlap, hjaccard, hdice, -, horder, -⟩ := similarities_ordered
    (TokeniserQGram2 DummyStopTermHandler.isWord) [0x61, 0x62, 0x63] [0x61, 0x62] (by decide)
    (by decide)
  exact ⟨jaccard, dice, hjaccard, hdice, horder.2.1⟩

/-! ## The distance -/

theorem card_le_card_add_difference {β : Type*} [DecidableEq β] (A B : Multiset β) :
    A.card ≤ B.card + difference A B := by
  have hcard : A.card ≤ (A - B).card + B.card := by
    rw [← Multiset.card_add]
    exact Multiset.card_le_card le_tsub_add
  rw [difference]
  omega

theorem sized_difference {β : Type*} [DecidableEq β] :
    Sized (fun A B : Multiset β => (difference A B : ℚ)) (fun A => (A.card : ℚ)) where
  nonneg _ _ := Nat.cast_nonneg _
  size_nonneg _ := Nat.cast_nonneg _
  triangle A B C := by exact_mod_cast difference_triangle A B C
  left_le A B := by exact_mod_cast card_le_card_add_difference A B
  right_le A B := by
    rw [difference_comm]
    exact_mod_cast card_le_card_add_difference B A

/-- The difference of the sets is what is not common. -/
theorem difference_add_commonTerms (a b : List JavaString) :
    difference a.toFinset.val b.toFinset.val + 2 * commonTerms a b =
      termsInString a + termsInString b := by
  have ha := Finset.card_sdiff_add_card_inter a.toFinset b.toFinset
  have hb := Finset.card_sdiff_add_card_inter b.toFinset a.toFinset
  rw [Finset.inter_comm] at hb
  rw [difference, ← Finset.sdiff_val, ← Finset.sdiff_val, Finset.card_val, Finset.card_val,
    commonTerms_eq, termsInString, termsInString]
  omega

/-- What two strings lack in similarity is the difference of their sets, relative to their sizes. -/
theorem one_sub_jaccard {tokeniser : Tokeniser} {s t : JavaString} {x : ℚ}
    (h : JaccardSimilarity.getSimilarity tokeniser s t = some x) :
    1 - x = relative (fun A B : Multiset JavaString => (difference A B : ℚ)) (fun A => (A.card : ℚ))
      (tokeniser s).toFinset.val (tokeniser t).toFinset.val := by
  have hall := allTerms_add_commonTerms (tokeniser s) (tokeniser t)
  have hdifference := difference_add_commonTerms (tokeniser s) (tokeniser t)
  unfold JaccardSimilarity.getSimilarity quotient at h
  simp only [Option.ite_none_left_eq_some, Option.some.injEq] at h
  obtain ⟨hne, rfl⟩ := h
  have hallne : (allTerms (tokeniser s) (tokeniser t) : ℚ) ≠ 0 := Nat.cast_ne_zero.mpr hne
  -- sizes and difference together count all terms twice
  have hsizes : (termsInString (tokeniser s) + termsInString (tokeniser t) +
      difference (tokeniser s).toFinset.val (tokeniser t).toFinset.val : ℚ) =
        2 * allTerms (tokeniser s) (tokeniser t) := by
    exact_mod_cast (by omega : termsInString (tokeniser s) + termsInString (tokeniser t) +
      difference (tokeniser s).toFinset.val (tokeniser t).toFinset.val =
        2 * allTerms (tokeniser s) (tokeniser t))
  -- what is not common makes the difference
  have hlack : (allTerms (tokeniser s) (tokeniser t) : ℚ) -
      commonTerms (tokeniser s) (tokeniser t) =
        difference (tokeniser s).toFinset.val (tokeniser t).toFinset.val := by
    rw [sub_eq_iff_eq_add]
    exact_mod_cast (by omega : allTerms (tokeniser s) (tokeniser t) =
      difference (tokeniser s).toFinset.val (tokeniser t).toFinset.val +
        commonTerms (tokeniser s) (tokeniser t))
  rw [relative_eq]
  change _ = 2 * (difference (tokeniser s).toFinset.val (tokeniser t).toFinset.val : ℚ) /
    (termsInString (tokeniser s) + termsInString (tokeniser t) +
      difference (tokeniser s).toFinset.val (tokeniser t).toFinset.val)
  rw [hsizes, ← hlack]
  field_simp

/-- What two strings lack in similarity is at most what they lack in similarity to a third one. -/
theorem jaccard_triangle (tokeniser : Tokeniser) (s t u : JavaString) (x y z : ℚ)
    (hst : JaccardSimilarity.getSimilarity tokeniser s t = some x)
    (htu : JaccardSimilarity.getSimilarity tokeniser t u = some y)
    (hsu : JaccardSimilarity.getSimilarity tokeniser s u = some z) :
    1 - z ≤ (1 - x) + (1 - y) := by
  rw [one_sub_jaccard hst, one_sub_jaccard htu, one_sub_jaccard hsu]
  exact relative_triangle sized_difference _ _ _

theorem jaccard_triangle_bigrams :
    ∃ x y z, JaccardSimilarity.getSimilarity (TokeniserQGram2 DummyStopTermHandler.isWord)
        [0x61, 0x62] [0x61, 0x62, 0x63] = some x ∧
      JaccardSimilarity.getSimilarity (TokeniserQGram2 DummyStopTermHandler.isWord)
        [0x61, 0x62, 0x63] [0x62, 0x63] = some y ∧
      JaccardSimilarity.getSimilarity (TokeniserQGram2 DummyStopTermHandler.isWord)
        [0x61, 0x62] [0x62, 0x63] = some z ∧ 1 - z ≤ (1 - x) + (1 - y) :=
  ⟨_, _, _, rfl, rfl, rfl, jaccard_triangle (TokeniserQGram2 DummyStopTermHandler.isWord)
    [0x61, 0x62] [0x61, 0x62, 0x63] [0x62, 0x63] _ _ _ rfl rfl rfl⟩

/-! ## Tokens that are looked up -/

theorem found_eq_length_iff {tokeniser : Tokeniser} {s t : JavaString} :
    MatchingCoefficient.getUnNormalisedSimilarity tokeniser s t = (tokeniser s).length ↔
      tokeniser s ⊆ tokeniser t := by
  rw [MatchingCoefficient.getUnNormalisedSimilarity, List.countP_eq_length]
  simp only [List.any_eq_true, decide_eq_true_eq, exists_eq_right', List.subset_def]

/-- The share of the first string's tokens that are found goes from `0` to `1`. It is `1` if all are
found and the second string has no more of them, whatever else it has. -/
theorem matching_bounds (tokeniser : Tokeniser) (s t : JavaString) :
    (MatchingCoefficient.getSimilarity tokeniser s t = none ↔
      tokeniser s = [] ∧ tokeniser t = []) ∧
    ∀ x, MatchingCoefficient.getSimilarity tokeniser s t = some x → 0 ≤ x ∧ x ≤ 1 ∧
      (x = 1 ↔ tokeniser s ⊆ tokeniser t ∧ (tokeniser t).length ≤ (tokeniser s).length) := by
  have hfound : MatchingCoefficient.getUnNormalisedSimilarity tokeniser s t ≤
      (tokeniser s).length := List.countP_le_length
  unfold MatchingCoefficient.getSimilarity quotient
  constructor
  · simp only [ite_eq_left_iff, reduceCtorEq, imp_false, not_not, Nat.max_eq_zero_iff,
      List.length_eq_zero_iff]
  · intro x hx
    simp only [Option.ite_none_left_eq_some, Option.some.injEq] at hx
    obtain ⟨hne, rfl⟩ := hx
    have hpos : (0 : ℚ) < (max (tokeniser s).length (tokeniser t).length : ℕ) :=
      Nat.cast_pos.mpr (Nat.pos_of_ne_zero hne)
    have hle := hfound.trans (le_max_left (tokeniser s).length (tokeniser t).length)
    refine ⟨div_nonneg (Nat.cast_nonneg _) hpos.le, div_le_one_of_le₀ (Nat.cast_le.mpr hle) hpos.le,
      ?_⟩
    rw [div_eq_one_iff_eq hpos.ne', Nat.cast_inj, ← found_eq_length_iff]
    omega

end SimMetrics
