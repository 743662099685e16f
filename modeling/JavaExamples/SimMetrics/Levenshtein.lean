import Mathlib.Data.List.Intervals
import Mathlib.Algebra.Order.Field.Basic
import JavaExamples.Common.EditDistance
import JavaExamples.Common.TableFill
import JavaExamples.SimMetrics.CostFunctions

/-!
# Levenshtein

The table that `Levenshtein` and `NeedlemanWunch` fill, and what the first of them computes.

* `editTable_row`, `editTable_column`, `editTable_cell`: the recurrence that the table satisfies.
* `Levenshtein.isDistance`: the number in its last cell is the edit distance of the strings.
* `Levenshtein.least_edits`: it is the least number of edits from one string to the other.
* `Levenshtein.metric`: it is a metric, and the similarity lies between `0` and `1`.
-/

namespace SimMetrics

open TableFill EditDistance MathFuncs

variable {dCostFunc : AbstractSubstitutionCost} {gapCost : ℚ} {s t : JavaString}

/-! ## The table -/

/-- The loops over the table, which begin after row and column numbers have been put in place. -/
def editTable (dCostFunc : AbstractSubstitutionCost) (gapCost : ℚ) (s t : JavaString) :
    ℕ × ℕ → ℚ :=
  let n := s.length
  let m := t.length
  let d : ℕ × ℕ → ℚ := fun _ => 0
  let d := fill (fun _ cell => cell.1) d ((List.Ico 0 (n + 1)).map fun i => (i, 0))
  let d := fill (fun _ cell => cell.2) d ((List.Ico 0 (m + 1)).map fun j => (0, j))
  fill (fun d cell => min3 (d (cell.1 - 1, cell.2) + gapCost) (d (cell.1, cell.2 - 1) + gapCost)
      (d (cell.1 - 1, cell.2 - 1) + dCostFunc.getCost s (cell.1 - 1) t (cell.2 - 1))) d
    (grid (List.Ico 1 (n + 1)) (List.Ico 1 (m + 1)))

/-- The value in the last cell; strings without letters are not compared. -/
def editCost (dCostFunc : AbstractSubstitutionCost) (gapCost : ℚ) (s t : JavaString) : ℚ :=
  let n := s.length
  let m := t.length
  if n = 0 then m
  else if m = 0 then n
  else editTable dCostFunc gapCost s t (n, m)

theorem editTable_column {j : ℕ} (hj : j ≤ t.length) :
    editTable dCostFunc gapCost s t (0, j) = j := by
  have hmem : (0, j) ∈ (List.Ico 0 (t.length + 1)).map fun j => (0, j) :=
    List.mem_map_of_mem (List.Ico.mem.mpr ⟨Nat.zero_le j, Nat.lt_succ_of_le hj⟩)
  rw [editTable, fill_of_notMem (by simp), fill_const, if_pos hmem]

theorem editTable_row {i : ℕ} (hi : i ≤ s.length) :
    editTable dCostFunc gapCost s t (i, 0) = i := by
  rcases i.eq_zero_or_pos with rfl | hpos
  · exact editTable_column (Nat.zero_le _)
  · have hmem : (i, 0) ∈ (List.Ico 0 (s.length + 1)).map fun i => (i, 0) :=
      List.mem_map_of_mem (List.Ico.mem.mpr ⟨Nat.zero_le i, Nat.lt_succ_of_le hi⟩)
    -- the second loop leaves these cells as they are
    have hnotMem : (i, 0) ∉ (List.Ico 0 (t.length + 1)).map fun j => (0, j) := by
      intro h
      obtain ⟨j, -, heq⟩ := List.mem_map.mp h
      exact hpos.ne (Prod.mk.inj heq).1
    rw [editTable, fill_of_notMem (by simp), fill_const, if_neg hnotMem, fill_const, if_pos hmem]

theorem editTable_cell {i j : ℕ} (hi : i < s.length) (hj : j < t.length) :
    editTable dCostFunc gapCost s t (i + 1, j + 1) =
      min3 (editTable dCostFunc gapCost s t (i, j + 1) + gapCost)
        (editTable dCostFunc gapCost s t (i + 1, j) + gapCost)
        (editTable dCostFunc gapCost s t (i, j) + dCostFunc.getCost s i t j) := by
  have hordered : Ordered (fun (d : ℕ × ℕ → ℚ) cell => min3 (d (cell.1 - 1, cell.2) + gapCost)
      (d (cell.1, cell.2 - 1) + gapCost)
      (d (cell.1 - 1, cell.2 - 1) + dCostFunc.getCost s (cell.1 - 1) t (cell.2 - 1))) rowMajor
      (grid (List.Ico 1 (s.length + 1)) (List.Ico 1 (t.length + 1))) := by
    refine ordered_grid (List.Ico.pairwise_lt _ _) (List.Ico.pairwise_lt _ _)
      fun k hk l hl f g hread => ?_
    rw [List.Ico.mem] at hk hl
    simp only [hread (k - 1) l (by omega), hread k (l - 1) (by omega),
      hread (k - 1) (l - 1) (by omega)]
  have hcell : (i + 1, j + 1) ∈ grid (List.Ico 1 (s.length + 1)) (List.Ico 1 (t.length + 1)) := by
    simp; omega
  exact fill_eq hordered hcell

/-- The empty strings are no exception. -/
theorem editCost_eq :
    editCost dCostFunc gapCost s t = editTable dCostFunc gapCost s t (s.length, t.length) := by
  rw [editCost]
  split
  · rw [‹s.length = 0›, editTable_column le_rfl]
  · split
    · rw [‹t.length = 0›, editTable_row le_rfl]
    · rfl

namespace Levenshtein

def getUnNormalisedSimilarity (s t : JavaString) : ℚ := editCost SubCost01 1 s t

def getSimilarity (string1 string2 : JavaString) : ℚ :=
  let levensteinDistance := getUnNormalisedSimilarity string1 string2
  let maxLen := if string1.length < string2.length then string2.length else string1.length
  if maxLen = 0 then 1 else 1 - levensteinDistance / maxLen

/-- The table holds the edit distances of all prefixes. -/
theorem isDistance_editTable {i j : ℕ} (hi : i ≤ s.length) (hj : j ≤ t.length) :
    ∃ d : ℕ, editTable SubCost01 1 s t (i, j) = d ∧ IsDistance (s.take i) (t.take j) d := by
  induction i generalizing j with
  | zero => exact ⟨j, editTable_column hj, by simpa [hj] using IsDistance.nil_left (t.take j)⟩
  | succ i ihi =>
    induction j with
    | zero =>
      exact ⟨i + 1, editTable_row hi, by simpa [hi] using IsDistance.nil_right (s.take (i + 1))⟩
    | succ j ihj =>
      obtain ⟨d, hd, hdelete⟩ := ihi (Nat.le_of_succ_le hi) hj
      obtain ⟨e, he, hinsert⟩ := ihj (Nat.le_of_succ_le hj)
      obtain ⟨f, hf, hpair⟩ := ihi (Nat.le_of_succ_le hi) (Nat.le_of_succ_le hj)
      -- the last letters are deleted, inserted or put in the place of each other
      have hs : s.take (i + 1) = s.take i ++ [s[i]] := (List.take_append_getElem hi).symm
      have ht : t.take (j + 1) = t.take j ++ [t[j]] := (List.take_append_getElem hj).symm
      rw [ht] at hdelete ⊢
      rw [hs] at hinsert ⊢
      refine ⟨_, ?_, hdelete.concat hinsert hpair⟩
      rw [editTable_cell hi hj, hd, he, hf, min3]
      have hprice : SubCost01.getCost s i t j = (price s[i] t[j] : ℕ) := by
        simp [SubCost01, price, List.getElem?_eq_getElem hi, List.getElem?_eq_getElem hj]
      rw [hprice]
      push_cast
      rfl

theorem isDistance (s t : JavaString) :
    ∃ d : ℕ, getUnNormalisedSimilarity s t = d ∧ IsDistance s t d := by
  obtain ⟨d, hd, hdistance⟩ := isDistance_editTable (s := s) (t := t) le_rfl le_rfl
  rw [List.take_length, List.take_length] at hdistance
  exact ⟨d, editCost_eq.trans hd, hdistance⟩

/-- What is computed is the least number of letters that have to be deleted, inserted or replaced,
one after the other and in any places, to turn one string into the other. -/
theorem least_edits (s t : JavaString) :
    ∃ d : ℕ, getUnNormalisedSimilarity s t = d ∧ IsLeast {n | Edits n s t} d := by
  obtain ⟨d, hd, hdistance⟩ := isDistance s t
  exact ⟨d, hd, hdistance.isLeast_edits⟩

theorem getUnNormalisedSimilarity_comm (s t : JavaString) :
    getUnNormalisedSimilarity s t = getUnNormalisedSimilarity t s := by
  obtain ⟨d, hd, hdistance⟩ := isDistance s t
  obtain ⟨e, he, hdistance'⟩ := isDistance t s
  rw [hd, he, hdistance.unique hdistance'.symm]

theorem getUnNormalisedSimilarity_eq_zero_iff (s t : JavaString) :
    getUnNormalisedSimilarity s t = 0 ↔ s = t := by
  obtain ⟨d, hd, hdistance⟩ := isDistance s t
  rw [hd, Nat.cast_eq_zero, hdistance.eq_zero_iff]

theorem getUnNormalisedSimilarity_triangle (s t u : JavaString) :
    getUnNormalisedSimilarity s u ≤
      getUnNormalisedSimilarity s t + getUnNormalisedSimilarity t u := by
  obtain ⟨d, hd, hst⟩ := isDistance s t
  obtain ⟨e, he, htu⟩ := isDistance t u
  obtain ⟨f, hf, hsu⟩ := isDistance s u
  rw [hd, he, hf]
  exact_mod_cast hsu.triangle hst htu

theorem getSimilarity_eq (s t : JavaString) :
    getSimilarity s t = if max s.length t.length = 0 then 1
      else 1 - getUnNormalisedSimilarity s t / (max s.length t.length : ℕ) := by
  have hmax : (if s.length < t.length then t.length else s.length) = max s.length t.length := by
    split
    · exact (max_eq_right (le_of_lt ‹_›)).symm
    · exact (max_eq_left (not_lt.mp ‹_›)).symm
  rw [getSimilarity, hmax]

theorem getUnNormalisedSimilarity_bounds (s t : JavaString) :
    0 ≤ getUnNormalisedSimilarity s t ∧
      getUnNormalisedSimilarity s t ≤ (max s.length t.length : ℕ) := by
  obtain ⟨d, hd, hdistance⟩ := isDistance s t
  rw [hd]
  exact ⟨Nat.cast_nonneg d, Nat.cast_le.mpr hdistance.le_max⟩

/-- The distance is a metric on the strings, and the similarity goes from `0` to `1`, which only the
same strings have. -/
theorem metric (s t u : JavaString) :
    (getUnNormalisedSimilarity s t = getUnNormalisedSimilarity t s ∧
      (getUnNormalisedSimilarity s t = 0 ↔ s = t) ∧
      getUnNormalisedSimilarity s u ≤
        getUnNormalisedSimilarity s t + getUnNormalisedSimilarity t u) ∧
    getSimilarity s t = getSimilarity t s ∧ 0 ≤ getSimilarity s t ∧ getSimilarity s t ≤ 1 ∧
      (getSimilarity s t = 1 ↔ s = t) := by
  refine ⟨⟨getUnNormalisedSimilarity_comm s t, getUnNormalisedSimilarity_eq_zero_iff s t,
    getUnNormalisedSimilarity_triangle s t u⟩, ?_⟩
  obtain ⟨hnonneg, hle⟩ := getUnNormalisedSimilarity_bounds s t
  have hzero := getUnNormalisedSimilarity_eq_zero_iff s t
  rw [getSimilarity_eq, getSimilarity_eq t s, max_comm t.length,
    getUnNormalisedSimilarity_comm t s]
  rcases Nat.eq_zero_or_pos (max s.length t.length) with hmax | hpos
  -- both strings are empty
  · have hdistance : getUnNormalisedSimilarity s t = 0 := by
      rw [hmax, Nat.cast_zero] at hle
      exact le_antisymm hle hnonneg
    rw [if_pos hmax]
    exact ⟨rfl, zero_le_one, le_rfl, iff_of_true rfl (hzero.mp hdistance)⟩
  · have hcast : (0 : ℚ) < (max s.length t.length : ℕ) := Nat.cast_pos.mpr hpos
    rw [if_neg hpos.ne']
    refine ⟨rfl, sub_nonneg.mpr (div_le_one_of_le₀ hle hcast.le),
      sub_le_self _ (div_nonneg hnonneg hcast.le), ?_⟩
    rw [sub_eq_self, div_eq_zero_iff, hzero, or_iff_left hcast.ne']

end Levenshtein

end SimMetrics
