import JavaExamples.SimMetrics.LocalTable

/-!
# Smith-Waterman

* `greatest_local_alignment`: what `SmithWaterman` computes for strings with letters is the greatest
  score of a local alignment, whatever the substitutions score and the gaps cost.
* `similar_iff_part`: with the default costs, the similarity goes from `0` to `1`, and it is `1`
  just for a string and a part of it.
-/

namespace SimMetrics

open MathFuncs Scoring

structure SmithWaterman where
  gapCost : ℚ := 1 / 2
  dCostFunc : AbstractSubstitutionCost := SubCost1_Minus2

namespace SmithWaterman

variable {metric : SmithWaterman} {s t : JavaString}

/-- The three loops over the matrix. -/
def rules (metric : SmithWaterman) (s t : JavaString) : LocalRules where
  column d i :=
    let cost := metric.dCostFunc.getCost s i t 0
    if i = 0 then max3 0 (-metric.gapCost) cost
    else max3 0 (d (i - 1, 0) - metric.gapCost) cost
  row d j :=
    let cost := metric.dCostFunc.getCost s 0 t j
    if j = 0 then max3 0 (-metric.gapCost) cost
    else max3 0 (d (0, j - 1) - metric.gapCost) cost
  cell d i j :=
    let cost := metric.dCostFunc.getCost s i t j
    max4 0 (d (i - 1, j) - metric.gapCost) (d (i, j - 1) - metric.gapCost) (d (i - 1, j - 1) + cost)
  column_reads i f g h := by
    rcases i.eq_zero_or_pos with rfl | hpos
    · rfl
    · simp only [if_neg hpos.ne', h (i - 1) (Nat.sub_lt hpos one_pos)]
  row_reads j f g h := by
    rcases j.eq_zero_or_pos with rfl | hpos
    · rfl
    · simp only [if_neg hpos.ne', h (j - 1) (Nat.sub_lt hpos one_pos)]
  cell_reads i j f g hi hj h := by
    simp only [h (i - 1) j (by omega), h i (j - 1) (by omega), h (i - 1) (j - 1) (by omega)]
  corner _ _ := rfl

def getUnNormalisedSimilarity (metric : SmithWaterman) (s t : JavaString) : ℚ :=
  let n := s.length
  let m := t.length
  if n = 0 then m
  else if m = 0 then n
  else ((metric.rules s t).fill n m).2

def getSimilarity (metric : SmithWaterman) (string1 string2 : JavaString) : ℚ :=
  let smithWaterman := metric.getUnNormalisedSimilarity string1 string2
  let length : ℚ := (min string1.length string2.length : ℕ)
  let maxValue := if metric.dCostFunc.getMaxCost > -metric.gapCost then
      length * metric.dCostFunc.getMaxCost else length * -metric.gapCost
  if maxValue = 0 then 1 else smithWaterman / maxValue

/-- Every letter of a gap costs the same. -/
def scoring (metric : SmithWaterman) (s t : JavaString) : Scoring where
  pair i j := metric.dCostFunc.getCost s i t j
  gapS k i w := i = k + 1 ∧ w = -metric.gapCost
  gapT l j w := j = l + 1 ∧ w = -metric.gapCost

theorem isGreatest_overGapS (d : ℕ × ℕ → ℚ) (i j : ℕ) :
    IsGreatest (insert 0 ((metric.scoring s t).overGapS d (i + 1) j))
      (max 0 (d (i, j) - metric.gapCost)) := by
  -- a gap is taken letter by letter
  have heq : (metric.scoring s t).overGapS d (i + 1) j = {d (i, j) - metric.gapCost} := by
    ext x
    constructor
    · rintro ⟨k, -, w, ⟨hk, rfl⟩, rfl⟩
      obtain rfl := Nat.succ_injective hk
      exact (sub_eq_add_neg _ _).symm
    · rintro rfl
      exact ⟨i, Nat.lt_succ_self i, _, ⟨rfl, rfl⟩, sub_eq_add_neg _ _⟩
  rw [heq]
  exact isGreatest_pair

theorem isGreatest_overGapT (d : ℕ × ℕ → ℚ) (i j : ℕ) :
    IsGreatest (insert 0 ((metric.scoring s t).overGapT d i (j + 1)))
      (max 0 (d (i, j) - metric.gapCost)) := by
  have heq : (metric.scoring s t).overGapT d i (j + 1) = {d (i, j) - metric.gapCost} := by
    ext x
    constructor
    · rintro ⟨l, -, w, ⟨hl, rfl⟩, rfl⟩
      obtain rfl := Nat.succ_injective hl
      exact (sub_eq_add_neg _ _).symm
    · rintro rfl
      exact ⟨j, Nat.lt_succ_self j, _, ⟨rfl, rfl⟩, sub_eq_add_neg _ _⟩
  rw [heq]
  exact isGreatest_pair

theorem fills (hgap : 0 ≤ metric.gapCost) :
    (metric.scoring s t).Fills s.length t.length
      ((metric.rules s t).fill s.length t.length).1 := by
  intro i hi j hj
  have hneg : -metric.gapCost ≤ 0 := neg_nonpos.mpr hgap
  -- the corner, the first row, the first column and the rest have their own rules
  match i, j with
  | 0, 0 =>
    refine isGreatest_candidates (isGreatest_overGapS_zero _ _ hneg)
      (isGreatest_overGapT_zero _ _ hneg) fun x => ?_
    rw [LocalRules.fill_row hj]
    change max3 0 (-metric.gapCost) (metric.dCostFunc.getCost s 0 t 0) ≤ x ↔ 0 ≤ x ∧
      -metric.gapCost ≤ x ∧ -metric.gapCost ≤ x ∧ 0 + metric.dCostFunc.getCost s 0 t 0 ≤ x
    rw [max3, max_le_iff, max_le_iff, zero_add]
    tauto
  | 0, j + 1 =>
    refine isGreatest_candidates (isGreatest_overGapS_zero _ _ le_rfl)
      (isGreatest_overGapT _ _ _) fun x => ?_
    rw [LocalRules.fill_row hj]
    change max3 0 (_ - metric.gapCost) (metric.dCostFunc.getCost s 0 t (j + 1)) ≤ x ↔ 0 ≤ x ∧
      0 ≤ x ∧ _ ≤ x ∧ 0 + metric.dCostFunc.getCost s 0 t (j + 1) ≤ x
    rw [max3, max_le_iff, max_le_iff, zero_add]
    tauto
  | i + 1, 0 =>
    refine isGreatest_candidates (isGreatest_overGapS _ _ _)
      (isGreatest_overGapT_zero _ _ le_rfl) fun x => ?_
    rw [LocalRules.fill_column hi]
    change max3 0 (_ - metric.gapCost) (metric.dCostFunc.getCost s (i + 1) t 0) ≤ x ↔ 0 ≤ x ∧
      _ ≤ x ∧ 0 ≤ x ∧ 0 + metric.dCostFunc.getCost s (i + 1) t 0 ≤ x
    rw [max3, max_le_iff, max_le_iff, zero_add]
    tauto
  | i + 1, j + 1 =>
    refine isGreatest_candidates (isGreatest_overGapS _ _ _) (isGreatest_overGapT _ _ _)
      fun x => ?_
    rw [LocalRules.fill_cell (Nat.le_add_left 1 i) hi (Nat.le_add_left 1 j) hj]
    change max4 0 (_ - metric.gapCost) (_ - metric.gapCost) (_ + _) ≤ x ↔ _
    rw [max4, max_le_iff, max_le_iff, max_le_iff, and_assoc]
    rfl

theorem getUnNormalisedSimilarity_empty (h : s = [] ∨ t = []) :
    metric.getUnNormalisedSimilarity s t = (max s.length t.length : ℕ) := by
  rcases h with rfl | rfl
  · simp [getUnNormalisedSimilarity]
  · rcases eq_or_ne s [] with rfl | hs
    · rfl
    · simp [getUnNormalisedSimilarity, hs]

theorem isGreatest_getUnNormalisedSimilarity (hgap : 0 ≤ metric.gapCost) (hs : s ≠ [])
    (ht : t ≠ []) :
    IsGreatest {x | ∃ c, (metric.scoring s t).Alignment s.length t.length c x}
      (metric.getUnNormalisedSimilarity s t) := by
  rw [getUnNormalisedSimilarity, if_neg (List.length_pos_iff.mpr hs).ne',
    if_neg (List.length_pos_iff.mpr ht).ne']
  exact LocalRules.isGreatest_alignment (List.length_pos_iff.mpr hs) (List.length_pos_iff.mpr ht)
    (fills hgap)

/-- For strings with letters, what is computed is the greatest score of a local alignment. An empty
string is as good as the length of the other one. -/
theorem greatest_local_alignment (metric : SmithWaterman) (hgap : 0 ≤ metric.gapCost)
    (s t : JavaString) :
    (s ≠ [] → t ≠ [] → IsGreatest {x | ∃ c, (metric.scoring s t).Alignment s.length t.length c x}
      (metric.getUnNormalisedSimilarity s t)) ∧
    (s = [] ∨ t = [] → metric.getUnNormalisedSimilarity s t = (max s.length t.length : ℕ)) :=
  ⟨isGreatest_getUnNormalisedSimilarity hgap, getUnNormalisedSimilarity_empty⟩

theorem greatest_local_alignment_default :
    IsGreatest {x | ∃ c, (scoring {} [0x61] [0x61, 0x62]).Alignment 1 2 c x}
      (getUnNormalisedSimilarity {} [0x61] [0x61, 0x62]) :=
  (greatest_local_alignment {} (show (0 : ℚ) ≤ 1 / 2 by norm_num) _ _).1 (List.cons_ne_nil _ _)
    (List.cons_ne_nil _ _)

/-! ## With the cost function that is set by default -/

variable {gapCost : ℚ}

theorem getCost_eq {i j : ℕ} (hi : i < s.length) (hj : j < t.length) :
    SubCost1_Minus2.getCost s i t j = if s[i] = t[j] then 1 else -2 := by
  have hgetElem : s[i]? = t[j]? ↔ s[i] = t[j] := by
    rw [List.getElem?_eq_getElem hi, List.getElem?_eq_getElem hj, Option.some_inj]
  simp only [SubCost1_Minus2, if_neg (not_le.mpr hi), if_neg (not_le.mpr hj), hgetElem]

theorem rewards (hgap : 0 < gapCost) : (scoring { gapCost } s t).Rewards s t 1 where
  pos := one_pos
  pair_same i j hi hj hsame := (getCost_eq hi hj).trans (if_pos hsame)
  pair_other i j hi hj hne := by
    have hcost : SubCost1_Minus2.getCost s i t j = -2 := (getCost_eq hi hj).trans (if_neg hne)
    exact hcost.trans_lt (by norm_num)
  gapS_neg _ _ _ _ hgapS := hgapS.2.trans_lt (neg_neg_of_pos hgap)
  gapT_neg _ _ _ _ hgapT := hgapT.2.trans_lt (neg_neg_of_pos hgap)

theorem scoring_swap : (scoring { gapCost } s t).swap = scoring { gapCost } t s := by
  have hcost : ∀ i j, SubCost1_Minus2.getCost s j t i = SubCost1_Minus2.getCost t i s j := by
    intro i j
    simp only [SubCost1_Minus2, eq_comm]
    split <;> split <;> rfl
  exact congrArg (fun pair => Scoring.mk pair _ _) (funext fun i => funext (hcost i))

theorem getUnNormalisedSimilarity_comm (hgap : 0 < gapCost) (s t : JavaString) :
    getUnNormalisedSimilarity { gapCost } s t = getUnNormalisedSimilarity { gapCost } t s := by
  by_cases hempty : s = [] ∨ t = []
  · rw [getUnNormalisedSimilarity_empty hempty, getUnNormalisedSimilarity_empty hempty.symm,
      max_comm]
  · obtain ⟨hs, ht⟩ := not_or.mp hempty
    -- both are the greatest score of the same alignments
    have hswap : IsGreatest _ (getUnNormalisedSimilarity { gapCost } s t) :=
      isGreatest_swap (isGreatest_getUnNormalisedSimilarity hgap.le hs ht)
    rw [scoring_swap] at hswap
    exact hswap.unique (isGreatest_getUnNormalisedSimilarity hgap.le ht hs)

theorem getSimilarity_eq (hgap : 0 < gapCost) :
    getSimilarity { gapCost } s t = if min s.length t.length = 0 then 1
      else getUnNormalisedSimilarity { gapCost } s t / (min s.length t.length : ℕ) := by
  have hmax : (1 : ℚ) > -gapCost := (neg_neg_of_pos hgap).trans one_pos
  have hmaxCost : SubCost1_Minus2.getMaxCost = 1 := rfl
  simp only [getSimilarity, hmaxCost, if_pos hmax, mul_one, Nat.cast_eq_zero]

theorem getSimilarity_comm (hgap : 0 < gapCost) (s t : JavaString) :
    getSimilarity { gapCost } s t = getSimilarity { gapCost } t s := by
  rw [getSimilarity_eq hgap, getSimilarity_eq hgap, min_comm t.length,
    getUnNormalisedSimilarity_comm hgap s t]

theorem getSimilarity_bounds (hgap : 0 < gapCost) (s t : JavaString) :
    0 ≤ getSimilarity { gapCost } s t ∧ getSimilarity { gapCost } s t ≤ 1 ∧
      (getSimilarity { gapCost } s t = 1 ↔ s <:+: t ∨ t <:+: s) := by
  have hsimilarity : getSimilarity { gapCost } s t = if min s.length t.length = 0 then 1
      else getUnNormalisedSimilarity { gapCost } s t / ((min s.length t.length : ℕ) * 1) := by
    rw [mul_one]
    exact getSimilarity_eq hgap
  exact (rewards hgap).similarity_bounds (isGreatest_getUnNormalisedSimilarity hgap.le) hsimilarity

/-- The similarity goes from `0` to `1`, which a string has with the strings it is a part of, so the
empty string with all, and with no others. -/
theorem similar_iff_part (gapCost : ℚ) (hgap : 0 < gapCost) (s t : JavaString) :
    getSimilarity { gapCost } s t = getSimilarity { gapCost } t s ∧
      0 ≤ getSimilarity { gapCost } s t ∧ getSimilarity { gapCost } s t ≤ 1 ∧
      (getSimilarity { gapCost } s t = 1 ↔ s <:+: t ∨ t <:+: s) :=
  ⟨getSimilarity_comm hgap s t, getSimilarity_bounds hgap s t⟩

theorem similar_iff_part_default : getSimilarity {} [0x61, 0x62] [0x62] = 1 :=
  (similar_iff_part (1 / 2) (by norm_num) [0x61, 0x62] [0x62]).2.2.2.mpr
    (.inr ⟨[0x61], [], rfl⟩)

end SmithWaterman

end SimMetrics
