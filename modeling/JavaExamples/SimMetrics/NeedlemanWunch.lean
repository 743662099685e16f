import Mathlib.Tactic.Linarith
import JavaExamples.Common.BestWalk
import JavaExamples.SimMetrics.Levenshtein

/-!
# Needleman-Wunch

`NeedlemanWunch` fills the table of `Levenshtein` with costs of its own, but still puts the plain
row and column numbers in place.

* `least_alignment`: what is computed is the least cost of an alignment whose gaps cost what they
  should, except for a gap in front, which costs one a letter.
* `half_le_getSimilarity`: so the similarity never falls below one half with the default costs.
-/

namespace SimMetrics

open MathFuncs BestWalk

structure NeedlemanWunch where
  gapCost : ℚ := 2
  dCostFunc : AbstractSubstitutionCost := SubCost01

namespace NeedlemanWunch

variable {metric : NeedlemanWunch} {gapCost : ℚ} {s t : JavaString}

def getUnNormalisedSimilarity (metric : NeedlemanWunch) (s t : JavaString) : ℚ :=
  editCost metric.dCostFunc metric.gapCost s t

def getSimilarity (metric : NeedlemanWunch) (string1 string2 : JavaString) : ℚ :=
  let needlemanWunch := metric.getUnNormalisedSimilarity string1 string2
  let length : ℚ := (max string1.length string2.length : ℕ)
  let maxValue := if metric.dCostFunc.getMaxCost > metric.gapCost then
      length * metric.dCostFunc.getMaxCost else length * metric.gapCost
  let minValue := if metric.dCostFunc.getMinCost < metric.gapCost then
      length * metric.dCostFunc.getMinCost else length * metric.gapCost
  let maxValue' := if minValue < 0 then maxValue - minValue else maxValue
  let needlemanWunch' := if minValue < 0 then needlemanWunch - minValue else needlemanWunch
  if maxValue' = 0 then 1 else 1 - needlemanWunch' / maxValue'

/-! ## The cheapest alignment -/

/-- One more letter of `s`, of `t` or of both is aligned. -/
inductive Step (metric : NeedlemanWunch) (s t : JavaString) : ℕ × ℕ → ℕ × ℕ → ℚ → Prop where
  | leadingDelete {i : ℕ} (hi : i < s.length) : Step metric s t (i, 0) (i + 1, 0) 1
  | leadingInsert {j : ℕ} (hj : j < t.length) : Step metric s t (0, j) (0, j + 1) 1
  | delete {i j : ℕ} (hi : i < s.length) (hj : j < t.length) :
    Step metric s t (i, j + 1) (i + 1, j + 1) metric.gapCost
  | insert {i j : ℕ} (hi : i < s.length) (hj : j < t.length) :
    Step metric s t (i + 1, j) (i + 1, j + 1) metric.gapCost
  | pair {i j : ℕ} (hi : i < s.length) (hj : j < t.length) :
    Step metric s t (i, j) (i + 1, j + 1) (metric.dCostFunc.getCost s i t j)

/-- Nothing is aligned yet. -/
def Start (c : ℕ × ℕ) (x : ℚ) : Prop := c = (0, 0) ∧ x = 0

/-- An alignment of the first letters of both strings and what it costs. -/
def Alignment (metric : NeedlemanWunch) (s t : JavaString) : ℕ × ℕ → ℚ → Prop :=
  Walk Start (Step metric s t)

theorem editTable_le_step {b c : ℕ × ℕ} {w : ℚ} (h : Step metric s t b c w) :
    editTable metric.dCostFunc metric.gapCost s t c ≤
      editTable metric.dCostFunc metric.gapCost s t b + w := by
  cases h with
  | leadingDelete hi =>
    rw [editTable_row hi, editTable_row hi.le]
    push_cast
    exact le_rfl
  | leadingInsert hj =>
    rw [editTable_column hj, editTable_column hj.le]
    push_cast
    exact le_rfl
  | delete hi hj =>
    rw [editTable_cell hi hj]
    exact min_le_left _ _
  | insert hi hj =>
    rw [editTable_cell hi hj]
    exact (min_le_right _ _).trans (min_le_left _ _)
  | pair hi hj =>
    rw [editTable_cell hi hj]
    exact (min_le_right _ _).trans (min_le_right _ _)

theorem tight_editTable :
    Tight Start (Step metric s t) (fun c => c.1 ≤ s.length ∧ c.2 ≤ t.length) (fun c => c.1 + c.2)
      (editTable metric.dCostFunc metric.gapCost s t) := by
  rintro ⟨i, j⟩ ⟨hi, hj⟩
  -- the corner is the start, the borders come from leading gaps
  match i, j with
  | 0, 0 => exact .inl ⟨rfl, editTable_row (Nat.zero_le _)⟩
  | i + 1, 0 =>
    refine .inr ⟨(i, 0), 1, ⟨Nat.le_of_succ_le hi, hj⟩, .leadingDelete hi, by simp, ?_⟩
    rw [editTable_row hi, editTable_row (Nat.le_of_succ_le hi)]
    push_cast
    rfl
  | 0, j + 1 =>
    refine .inr ⟨(0, j), 1, ⟨hi, Nat.le_of_succ_le hj⟩, .leadingInsert hj, by simp, ?_⟩
    rw [editTable_column hj, editTable_column (Nat.le_of_succ_le hj)]
    push_cast
    rfl
  | i + 1, j + 1 =>
    have hi' := Nat.le_of_succ_le hi
    have hj' := Nat.le_of_succ_le hj
    refine .inr ?_
    rw [editTable_cell hi hj]
    rcases min3_cases (editTable metric.dCostFunc metric.gapCost s t (i, j + 1) + metric.gapCost)
      (editTable metric.dCostFunc metric.gapCost s t (i + 1, j) + metric.gapCost)
      (editTable metric.dCostFunc metric.gapCost s t (i, j) + metric.dCostFunc.getCost s i t j)
      with h | h | h
    · exact ⟨(i, j + 1), _, ⟨hi', hj⟩, .delete hi hj, by simp, h⟩
    · exact ⟨(i + 1, j), _, ⟨hi, hj'⟩, .insert hi hj, by simp, h⟩
    · exact ⟨(i, j), _, ⟨hi', hj'⟩, .pair hi hj, by simp; omega, h⟩

theorem isLeast_editCost :
    IsLeast {x | Alignment metric s t (s.length, t.length) x}
      (editCost metric.dCostFunc metric.gapCost s t) := by
  rw [editCost_eq]
  refine isLeast_walk tight_editTable ?_ (fun _ _ _ => editTable_le_step) ⟨le_rfl, le_rfl⟩
  rintro c x ⟨rfl, rfl⟩
  exact (editTable_row (Nat.zero_le _)).le

/-- What is computed is the least cost of an alignment of the strings, whatever the substitutions
and the gaps cost. -/
theorem least_alignment (metric : NeedlemanWunch) (s t : JavaString) :
    IsLeast {x | Alignment metric s t (s.length, t.length) x}
      (metric.getUnNormalisedSimilarity s t) :=
  isLeast_editCost

/-! ## With the cost function that is set by default -/

theorem editTable_comm {i j : ℕ} (hi : i ≤ s.length) (hj : j ≤ t.length) :
    editTable SubCost01 gapCost s t (i, j) = editTable SubCost01 gapCost t s (j, i) := by
  induction i generalizing j with
  | zero => rw [editTable_column hj, editTable_row hj]
  | succ i ihi =>
    induction j with
    | zero => rw [editTable_row hi, editTable_column hi]
    | succ j ihj =>
      have hcost : SubCost01.getCost s i t j = SubCost01.getCost t j s i := by
        simp only [SubCost01, eq_comm]
      rw [editTable_cell hi hj, editTable_cell hj hi, ihi (Nat.le_of_succ_le hi) hj,
        ihj (Nat.le_of_succ_le hj), ihi (Nat.le_of_succ_le hi) (Nat.le_of_succ_le hj), hcost,
        min3, min3, min_left_comm]

theorem SubCost01_le_one (i j : ℕ) : SubCost01.getCost s i t j ≤ 1 := by
  simp only [SubCost01]
  split <;> norm_num

/-- A gap in front and letters in the place of each other. -/
theorem editTable_le_max {i j : ℕ} (hi : i ≤ s.length) (hj : j ≤ t.length) :
    editTable SubCost01 gapCost s t (i, j) ≤ (max i j : ℕ) := by
  induction i generalizing j with
  | zero => rw [editTable_column hj, Nat.zero_max]
  | succ i ih =>
    match j with
    | 0 => rw [editTable_row hi, Nat.max_zero]
    | j + 1 =>
      -- of the three ways into a cell the pair is cheap enough
      have hpair := ih (Nat.le_of_succ_le hi) (Nat.le_of_succ_le hj)
      rw [editTable_cell hi hj, Nat.succ_max_succ]
      refine ((min_le_right _ _).trans (min_le_right _ _)).trans ?_
      push_cast at hpair ⊢
      exact add_le_add hpair (SubCost01_le_one i j)

theorem SubCost01_nonneg (i j : ℕ) : 0 ≤ SubCost01.getCost s i t j := by
  simp only [SubCost01]
  split <;> norm_num

theorem SubCost01_eq_zero {i j : ℕ} (hi : i < s.length) (hj : j < t.length)
    (h : SubCost01.getCost s i t j = 0) : s[i] = t[j] := by
  simpa [SubCost01, List.getElem?_eq_getElem hi, List.getElem?_eq_getElem hj] using h

/-- An alignment costs nothing only if it pairs every letter with the same one. -/
theorem Alignment.nonneg_and_eq (hgap : 0 < gapCost) {c : ℕ × ℕ} {x : ℚ}
    (h : Alignment { gapCost } s t c x) : 0 ≤ x ∧ (x = 0 → s.take c.1 = t.take c.2) := by
  induction h with
  | start h =>
    obtain ⟨rfl, rfl⟩ := h
    exact ⟨le_rfl, fun _ => rfl⟩
  | step _ hstep ih =>
    obtain ⟨hnonneg, htake⟩ := ih
    -- a gap costs something, so it is only the pairs that may be free
    cases hstep with
    | leadingDelete => exact ⟨by linarith, fun hzero => by linarith⟩
    | leadingInsert => exact ⟨by linarith, fun hzero => by linarith⟩
    | delete => exact ⟨by linarith, fun hzero => by linarith⟩
    | insert => exact ⟨by linarith, fun hzero => by linarith⟩
    | @pair i j hi hj =>
      have hcost : 0 ≤ SubCost01.getCost s i t j := SubCost01_nonneg i j
      refine ⟨add_nonneg hnonneg hcost, fun hzero => ?_⟩
      obtain ⟨hx, hpair⟩ := (add_eq_zero_iff_of_nonneg hnonneg hcost).mp hzero
      rw [← List.take_append_getElem hi, ← List.take_append_getElem hj, htake hx,
        SubCost01_eq_zero hi hj hpair]

theorem editTable_self_le {i : ℕ} (hi : i ≤ s.length) :
    editTable SubCost01 gapCost s s (i, i) ≤ 0 := by
  induction i with
  | zero => exact (editTable_row hi).le
  | succ i ih =>
    rw [editTable_cell hi hi]
    refine ((min_le_right _ _).trans (min_le_right _ _)).trans ?_
    simpa [SubCost01] using ih (Nat.le_of_succ_le hi)

theorem getUnNormalisedSimilarity_nonneg (hgap : 0 < gapCost) :
    0 ≤ getUnNormalisedSimilarity { gapCost } s t :=
  (Alignment.nonneg_and_eq hgap isLeast_editCost.1).1

theorem getUnNormalisedSimilarity_eq_zero_iff (hgap : 0 < gapCost) :
    getUnNormalisedSimilarity { gapCost } s t = 0 ↔ s = t := by
  constructor
  · intro h
    simpa using (Alignment.nonneg_and_eq hgap isLeast_editCost.1).2 h
  · rintro rfl
    refine le_antisymm ?_ (getUnNormalisedSimilarity_nonneg hgap)
    rw [getUnNormalisedSimilarity, editCost_eq]
    exact editTable_self_le le_rfl

theorem getSimilarity_eq (hgap : 0 < gapCost) :
    getSimilarity { gapCost } s t =
      if max s.length t.length = 0 then 1
      else 1 - getUnNormalisedSimilarity { gapCost } s t /
        ((max s.length t.length : ℕ) * max 1 gapCost) := by
  have hmax : ∀ length : ℚ, (if SubCost01.getMaxCost > gapCost then
      length * SubCost01.getMaxCost else length * gapCost) = length * max 1 gapCost := by
    intro length
    rcases lt_or_ge gapCost 1 with h | h
    · rw [if_pos (show SubCost01.getMaxCost > gapCost from h), max_eq_left h.le]
      rfl
    · rw [if_neg (show ¬SubCost01.getMaxCost > gapCost from not_lt.mpr h), max_eq_right h]
  have hmin : SubCost01.getMinCost < gapCost := hgap
  -- the least cost is `0`, so nothing is shifted
  have hzero : ¬((max s.length t.length : ℕ) : ℚ) * SubCost01.getMinCost < 0 := by
    simp [SubCost01]
  have hpos : (0 : ℚ) < max 1 gapCost := lt_max_of_lt_left one_pos
  simp only [getSimilarity, hmax, if_pos hmin, if_neg hzero, mul_eq_zero, hpos.ne', or_false,
    Nat.cast_eq_zero]

/-- The gap in front keeps the cost below the length of the longer string. So the similarity does
not go down to `0`: with the costs set by default, it goes from one half to `1`, which only the
same strings have. -/
theorem half_le_getSimilarity (gapCost : ℚ) (hgap : 0 < gapCost) (s t : JavaString) :
    getSimilarity { gapCost } s t = getSimilarity { gapCost } t s ∧
      1 - 1 / max 1 gapCost ≤ getSimilarity { gapCost } s t ∧ getSimilarity { gapCost } s t ≤ 1 ∧
      (getSimilarity { gapCost } s t = 1 ↔ s = t) := by
  have hcomm : getUnNormalisedSimilarity { gapCost } s t =
      getUnNormalisedSimilarity { gapCost } t s := by
    rw [getUnNormalisedSimilarity, getUnNormalisedSimilarity, editCost_eq, editCost_eq]
    exact editTable_comm le_rfl le_rfl
  have hnonneg := getUnNormalisedSimilarity_nonneg (s := s) (t := t) hgap
  have hle : getUnNormalisedSimilarity { gapCost } s t ≤ (max s.length t.length : ℕ) := by
    rw [getUnNormalisedSimilarity, editCost_eq]
    exact editTable_le_max le_rfl le_rfl
  have hzero := getUnNormalisedSimilarity_eq_zero_iff (s := s) (t := t) hgap
  have hone : (1 : ℚ) ≤ max 1 gapCost := le_max_left _ _
  have hpos : (0 : ℚ) < max 1 gapCost := one_pos.trans_le hone
  rw [getSimilarity_eq hgap, getSimilarity_eq hgap, max_comm t.length, ← hcomm]
  rcases Nat.eq_zero_or_pos (max s.length t.length) with hmax | hmaxpos
  · rw [hmax, Nat.cast_zero] at hle
    rw [if_pos hmax]
    exact ⟨rfl, sub_le_self _ (one_div_nonneg.mpr hpos.le), le_rfl,
      iff_of_true rfl (hzero.mp (le_antisymm hle hnonneg))⟩
  · have hcast : (0 : ℚ) < (max s.length t.length : ℕ) := Nat.cast_pos.mpr hmaxpos
    have hden : (0 : ℚ) < (max s.length t.length : ℕ) * max 1 gapCost := mul_pos hcast hpos
    rw [if_neg hmaxpos.ne']
    refine ⟨rfl, sub_le_sub_left ?_ _, sub_le_self _ (div_nonneg hnonneg hden.le), ?_⟩
    -- the cost is a share of the length, but is divided by the length times the gap cost
    · rw [div_le_div_iff₀ hden hpos, one_mul]
      exact mul_le_mul_of_nonneg_right hle hpos.le
    · rw [sub_eq_self, div_eq_zero_iff, hzero, or_iff_left hden.ne']

theorem half_le_getSimilarity_default : (1 / 2 : ℚ) ≤ getSimilarity {} [0x61, 0x62] [0x63] :=
  le_trans (by norm_num) (half_le_getSimilarity 2 two_pos [0x61, 0x62] [0x63]).2.1

end NeedlemanWunch

end SimMetrics
