import JavaExamples.SimMetrics.LocalTable

/-!
# Smith-Waterman-Gotoh

* `greatest_windowed_alignment`: what is computed for strings with letters is the greatest score of
  a local alignment whose gaps begin behind one of the first `windowSize` letters after the first
  one. It is not the length of a gap that the window bounds.
* `window_mono`: a larger window finds no less, and strings that fit into the window do not notice
  it.
* `similar_iff_part_affine`: the similarity goes from `0` to `1`, and it is `1` just for a string
  and a part of it.
-/

namespace SimMetrics

open MathFuncs Scoring

open TableFill (isGreatest_foldl_max)

structure SmithWatermanGotohWindowedAffine where
  gGapFunc : AbstractAffineGapCost := AffineGap5_1
  dCostFunc : AbstractSubstitutionCost
  windowSize : ℕ := 100

/-- The window of `SmithWatermanGotoh` is `Integer.MAX_VALUE`. -/
def SmithWatermanGotoh (gGapFunc : AbstractAffineGapCost) (dCostFunc : AbstractSubstitutionCost) :
    SmithWatermanGotohWindowedAffine where
  gGapFunc := gGapFunc
  dCostFunc := dCostFunc
  windowSize := 2147483647

namespace SmithWatermanGotohWindowedAffine

variable {metric : SmithWatermanGotohWindowedAffine} {s t : JavaString}

/-- The loop over the window in front of the cell `i` of a row or column `d`. -/
def maxGapCost (metric : SmithWatermanGotohWindowedAffine) (stringToGap : JavaString) (d : ℕ → ℚ)
    (i : ℕ) : ℚ :=
  let windowStart := if i - metric.windowSize < 1 then 1 else i - metric.windowSize
  (List.Ico windowStart i).foldl (fun maxGapCost k =>
    max maxGapCost (d (i - k) - metric.gGapFunc.getCost stringToGap (i - k) i)) 0

theorem maxGapCost_congr {d d' : ℕ → ℚ} {i : ℕ} (h : ∀ k < i, d k = d' k) :
    metric.maxGapCost s d i = metric.maxGapCost s d' i := by
  have hstart : 1 ≤ if i - metric.windowSize < 1 then 1 else i - metric.windowSize := by
    split <;> omega
  refine List.foldl_ext _ _ _ fun value k hk => ?_
  rw [List.Ico.mem] at hk
  rw [h (i - k) (by omega)]

/-- The three loops over the matrix. -/
def rules (metric : SmithWatermanGotohWindowedAffine) (s t : JavaString) : LocalRules where
  column d i :=
    let cost := metric.dCostFunc.getCost s i t 0
    if i = 0 then max 0 cost else max3 0 (metric.maxGapCost s (fun k => d (k, 0)) i) cost
  row d j :=
    let cost := metric.dCostFunc.getCost s 0 t j
    if j = 0 then max 0 cost else max3 0 (metric.maxGapCost t (fun l => d (0, l)) j) cost
  cell d i j :=
    let cost := metric.dCostFunc.getCost s i t j
    max4 0 (metric.maxGapCost s (fun k => d (k, j)) i) (metric.maxGapCost t (fun l => d (i, l)) j)
      (d (i - 1, j - 1) + cost)
  column_reads i f g h := by
    rw [maxGapCost_congr h]
  row_reads j f g h := by
    rw [maxGapCost_congr h]
  cell_reads i j f g hi hj h := by
    rw [maxGapCost_congr fun k hk => h k j (.inl ⟨hk, le_rfl⟩),
      maxGapCost_congr fun l hl => h i l (.inr ⟨le_rfl, hl⟩),
      h (i - 1) (j - 1) (.inl ⟨Nat.sub_lt hi one_pos, j.sub_le 1⟩)]
  corner _ _ := (if_pos rfl).trans (if_pos rfl).symm

def getUnNormalisedSimilarity (metric : SmithWatermanGotohWindowedAffine) (s t : JavaString) : ℚ :=
  let n := s.length
  let m := t.length
  if n = 0 then m
  else if m = 0 then n
  else ((metric.rules s t).fill n m).2

def getSimilarity (metric : SmithWatermanGotohWindowedAffine) (string1 string2 : JavaString) : ℚ :=
  let smithWatermanGotoh := metric.getUnNormalisedSimilarity string1 string2
  let length : ℚ := (min string1.length string2.length : ℕ)
  let maxValue := if metric.dCostFunc.getMaxCost > -metric.gGapFunc.getMaxCost then
      length * metric.dCostFunc.getMaxCost else length * -metric.gGapFunc.getMaxCost
  if maxValue = 0 then 1 else smithWatermanGotoh / maxValue

/-! ## The best local alignment -/

/-- A gap may begin behind the letters from the second one on that the window size counts. -/
def scoring (metric : SmithWatermanGotohWindowedAffine) (s t : JavaString) : Scoring where
  pair i j := metric.dCostFunc.getCost s i t j
  gapS k i w := (1 ≤ k ∧ k ≤ metric.windowSize) ∧ w = -metric.gGapFunc.getCost s k i
  gapT l j w := (1 ≤ l ∧ l ≤ metric.windowSize) ∧ w = -metric.gGapFunc.getCost t l j

/-- The loop over the window reads the value in front of the gap at `i - k`, so that it comes to the
letters that the window counts from the start of the string, not from its end. -/
theorem isGreatest_maxGapCost (d : ℕ → ℚ) (i : ℕ) :
    IsGreatest (insert 0 {x | ∃ k < i, ∃ w, ((1 ≤ k ∧ k ≤ metric.windowSize) ∧
        w = -metric.gGapFunc.getCost s k i) ∧ x = d k + w}) (max 0 (metric.maxGapCost s d i)) := by
  have hloop : IsGreatest _ (metric.maxGapCost s d i) := isGreatest_foldl_max
    (fun k => d (i - k) - metric.gGapFunc.getCost s (i - k) i)
    (List.Ico (if i - metric.windowSize < 1 then 1 else i - metric.windowSize) i) 0
  rw [max_eq_right (hloop.2 (.inl rfl))]
  -- `i - k` runs through the window as `k` does
  have hset : {x | ∃ k < i, ∃ w, ((1 ≤ k ∧ k ≤ metric.windowSize) ∧
      w = -metric.gGapFunc.getCost s k i) ∧ x = d k + w} =
      {x | ∃ k ∈ List.Ico (if i - metric.windowSize < 1 then 1 else i - metric.windowSize) i,
        d (i - k) - metric.gGapFunc.getCost s (i - k) i = x} := by
    ext x
    constructor
    · rintro ⟨k, hk, w, ⟨hwindow, rfl⟩, rfl⟩
      refine ⟨i - k, List.Ico.mem.mpr ⟨by split <;> omega, by omega⟩, ?_⟩
      rw [Nat.sub_sub_self hk.le, sub_eq_add_neg]
    · rintro ⟨k, hk, rfl⟩
      rw [List.Ico.mem] at hk
      have hstart : 1 ≤ k ∧ i - metric.windowSize ≤ k := by
        split at hk <;> omega
      exact ⟨i - k, by omega, _, ⟨⟨by omega, by omega⟩, rfl⟩, sub_eq_add_neg _ _⟩
  rwa [hset]

theorem fills :
    (metric.scoring s t).Fills s.length t.length
      ((metric.rules s t).fill s.length t.length).1 := by
  intro i hi j hj
  -- the corner, the first row, the first column and the rest have their own rules
  match i, j with
  | 0, 0 =>
    refine isGreatest_candidates (isGreatest_overGapS_zero _ _ le_rfl)
      (isGreatest_overGapT_zero _ _ le_rfl) fun x => ?_
    rw [LocalRules.fill_row hj]
    change max 0 (metric.dCostFunc.getCost s 0 t 0) ≤ x ↔ 0 ≤ x ∧ 0 ≤ x ∧ 0 ≤ x ∧
      0 + metric.dCostFunc.getCost s 0 t 0 ≤ x
    rw [max_le_iff, zero_add]
    tauto
  | 0, j + 1 =>
    refine isGreatest_candidates (isGreatest_overGapS_zero _ _ le_rfl)
      (isGreatest_maxGapCost _ _) fun x => ?_
    rw [LocalRules.fill_row hj]
    change max3 0 (metric.maxGapCost t _ (j + 1)) (metric.dCostFunc.getCost s 0 t (j + 1)) ≤ x ↔
      0 ≤ x ∧ 0 ≤ x ∧ metric.maxGapCost t _ (j + 1) ≤ x ∧
        0 + metric.dCostFunc.getCost s 0 t (j + 1) ≤ x
    rw [max3, max_le_iff, max_le_iff, zero_add]
    tauto
  | i + 1, 0 =>
    refine isGreatest_candidates (isGreatest_maxGapCost _ _)
      (isGreatest_overGapT_zero _ _ le_rfl) fun x => ?_
    rw [LocalRules.fill_column hi]
    change max3 0 (metric.maxGapCost s _ (i + 1)) (metric.dCostFunc.getCost s (i + 1) t 0) ≤ x ↔
      0 ≤ x ∧ metric.maxGapCost s _ (i + 1) ≤ x ∧ 0 ≤ x ∧
        0 + metric.dCostFunc.getCost s (i + 1) t 0 ≤ x
    rw [max3, max_le_iff, max_le_iff, zero_add]
    tauto
  | i + 1, j + 1 =>
    refine isGreatest_candidates (isGreatest_maxGapCost _ _) (isGreatest_maxGapCost _ _)
      fun x => ?_
    rw [LocalRules.fill_cell (Nat.le_add_left 1 i) hi (Nat.le_add_left 1 j) hj]
    change max4 0 (metric.maxGapCost s _ (i + 1)) (metric.maxGapCost t _ (j + 1)) (_ + _) ≤ x ↔ _
    rw [max4, max_le_iff, max_le_iff, max_le_iff, and_assoc]
    rfl

theorem getUnNormalisedSimilarity_empty (h : s = [] ∨ t = []) :
    metric.getUnNormalisedSimilarity s t = (max s.length t.length : ℕ) := by
  rcases h with rfl | rfl
  · simp [getUnNormalisedSimilarity]
  · rcases eq_or_ne s [] with rfl | hs
    · rfl
    · simp [getUnNormalisedSimilarity, hs]

theorem isGreatest_getUnNormalisedSimilarity (hs : s ≠ []) (ht : t ≠ []) :
    IsGreatest {x | ∃ c, (metric.scoring s t).Alignment s.length t.length c x}
      (metric.getUnNormalisedSimilarity s t) := by
  rw [getUnNormalisedSimilarity, if_neg (List.length_pos_iff.mpr hs).ne',
    if_neg (List.length_pos_iff.mpr ht).ne']
  exact LocalRules.isGreatest_alignment (List.length_pos_iff.mpr hs) (List.length_pos_iff.mpr ht)
    fills

/-- For strings with letters, what is computed is the greatest score of a local alignment. -/
theorem greatest_windowed_alignment (metric : SmithWatermanGotohWindowedAffine)
    (s t : JavaString) (hs : s ≠ []) (ht : t ≠ []) :
    IsGreatest {x | ∃ c, (metric.scoring s t).Alignment s.length t.length c x}
      (metric.getUnNormalisedSimilarity s t) :=
  isGreatest_getUnNormalisedSimilarity hs ht

/-- The default costs with a window that is narrower. -/
def narrow (windowSize : ℕ) : SmithWatermanGotohWindowedAffine where
  dCostFunc := SubCost5_3_Minus3 id
  windowSize := windowSize

/-- `abcde` and `abcxde`: to leave out the `x`, a gap has to begin behind the third letter. A window
of two letters has room for it; a window of one has not, and `abc` is all there is. -/
theorem greatest_windowed_alignment_narrow :
    IsGreatest
      {x | ∃ c, ((narrow 2).scoring [0x61, 0x62, 0x63, 0x64, 0x65]
        [0x61, 0x62, 0x63, 0x78, 0x64, 0x65]).Alignment 5 6 c x} 20 ∧
    IsGreatest
      {x | ∃ c, ((narrow 1).scoring [0x61, 0x62, 0x63, 0x64, 0x65]
        [0x61, 0x62, 0x63, 0x78, 0x64, 0x65]).Alignment 5 6 c x} 15 := by
  have htwo : (narrow 2).getUnNormalisedSimilarity [0x61, 0x62, 0x63, 0x64, 0x65]
      [0x61, 0x62, 0x63, 0x78, 0x64, 0x65] = 20 := by decide +kernel
  have hone : (narrow 1).getUnNormalisedSimilarity [0x61, 0x62, 0x63, 0x64, 0x65]
      [0x61, 0x62, 0x63, 0x78, 0x64, 0x65] = 15 := by decide +kernel
  rw [← htwo, ← hone]
  exact ⟨greatest_windowed_alignment _ _ _ (List.cons_ne_nil _ _) (List.cons_ne_nil _ _),
    greatest_windowed_alignment _ _ _ (List.cons_ne_nil _ _) (List.cons_ne_nil _ _)⟩

/-! ## The window -/

variable {gGapFunc : AbstractAffineGapCost} {dCostFunc : AbstractSubstitutionCost}
  {windowSize windowSize' : ℕ}

/-- An alignment does not notice a window that reaches as far as the gaps of the strings. -/
theorem alignment_of_window (hwindow : windowSize ≤ windowSize' ∨
      s.length ≤ windowSize' + 2 ∧ t.length ≤ windowSize' + 2) {c : ℕ × ℕ} {x : ℚ}
    (h : (scoring { gGapFunc, dCostFunc, windowSize } s t).Alignment s.length t.length c x) :
    (scoring { gGapFunc, dCostFunc, windowSize := windowSize' } s t).Alignment s.length t.length
      c x := by
  induction h with
  | start h => exact .start h
  | step _ hstep ih =>
    refine .step ih ?_
    -- only gaps depend on the window, and each begins at least two letters before the end
    cases hstep with
    | pair hi hj => exact .pair hi hj
    | gapS hi hj hk hgap =>
      obtain ⟨⟨hfirst, hlast⟩, hw⟩ := hgap
      refine .gapS hi hj hk ⟨⟨hfirst, ?_⟩, hw⟩
      simp only at hlast ⊢
      omega
    | gapT hi hj hl hgap =>
      obtain ⟨⟨hfirst, hlast⟩, hw⟩ := hgap
      refine .gapT hi hj hl ⟨⟨hfirst, ?_⟩, hw⟩
      simp only at hlast ⊢
      omega

theorem getUnNormalisedSimilarity_le (hwindow : windowSize ≤ windowSize' ∨
      s.length ≤ windowSize' + 2 ∧ t.length ≤ windowSize' + 2) :
    getUnNormalisedSimilarity { gGapFunc, dCostFunc, windowSize } s t ≤
      getUnNormalisedSimilarity { gGapFunc, dCostFunc, windowSize := windowSize' } s t := by
  by_cases hempty : s = [] ∨ t = []
  · rw [getUnNormalisedSimilarity_empty hempty, getUnNormalisedSimilarity_empty hempty]
  · obtain ⟨hs, ht⟩ := not_or.mp hempty
    obtain ⟨⟨c, hbest⟩, -⟩ : IsGreatest _
      (getUnNormalisedSimilarity { gGapFunc, dCostFunc, windowSize } s t) :=
        isGreatest_getUnNormalisedSimilarity hs ht
    exact (isGreatest_getUnNormalisedSimilarity hs ht).2 ⟨c, alignment_of_window hwindow hbest⟩

/-- A larger window finds no less, and for strings of at most two letters more than the window, the
windowed metric is `SmithWatermanGotoh`. -/
theorem window_mono (gGapFunc : AbstractAffineGapCost) (dCostFunc : AbstractSubstitutionCost)
    (s t : JavaString) :
    Monotone (fun windowSize =>
      getUnNormalisedSimilarity { gGapFunc, dCostFunc, windowSize } s t) ∧
    ∀ windowSize, s.length ≤ windowSize + 2 → t.length ≤ windowSize + 2 →
      windowSize ≤ 2147483647 →
      getUnNormalisedSimilarity { gGapFunc, dCostFunc, windowSize } s t =
        (SmithWatermanGotoh gGapFunc dCostFunc).getUnNormalisedSimilarity s t :=
  ⟨fun _ _ h => getUnNormalisedSimilarity_le (.inl h), fun _ hs ht hle =>
    le_antisymm (getUnNormalisedSimilarity_le (.inl hle))
      (getUnNormalisedSimilarity_le (.inr ⟨hs, ht⟩))⟩

/-! ## With the cost functions that are set by default -/

section Default

variable {toLowerCase : JavaChar → JavaChar} {first further : ℚ}

theorem getCost_same {i j : ℕ} (hi : i < s.length) (hj : j < t.length) (hsame : s[i] = t[j]) :
    (SubCost5_3_Minus3 toLowerCase).getCost s i t j = 5 := by
  simp only [SubCost5_3_Minus3, List.getElem?_eq_getElem hi, List.getElem?_eq_getElem hj, hsame,
    if_true]
  rfl

theorem getCost_other {i j : ℕ} (hi : i < s.length) (hj : j < t.length) (hne : s[i] ≠ t[j]) :
    (SubCost5_3_Minus3 toLowerCase).getCost s i t j < 5 := by
  simp only [SubCost5_3_Minus3, List.getElem?_eq_getElem hi, List.getElem?_eq_getElem hj,
    if_neg hne]
  split
  · exact show (3 : ℚ) < 5 by norm_num
  · exact show (-3 : ℚ) < 5 by norm_num

theorem getCost_comm (i j : ℕ) : (SubCost5_3_Minus3 toLowerCase).getCost s j t i =
    (SubCost5_3_Minus3 toLowerCase).getCost t i s j := by
  simp only [SubCost5_3_Minus3]
  cases s[j]? with
  | none => cases t[i]? <;> rfl
  | some c =>
    cases t[i]? with
    | none => rfl
    | some d => simp only [eq_comm (a := c), Bool.and_comm (_ : Bool)]

theorem affineGap_pos (hfirst : 0 < first) (hfurther : 0 ≤ further) {k i : ℕ} (hk : k < i) :
    0 < (affineGap first further).getCost s k i := by
  simp only [affineGap, if_neg (not_le.mpr hk)]
  exact add_pos_of_pos_of_nonneg hfirst (mul_nonneg (Nat.cast_nonneg _) hfurther)

/-- The metric with letters that are alike and affine gaps. -/
def withDefaults (toLowerCase : JavaChar → JavaChar) (first further : ℚ) (windowSize : ℕ) :
    SmithWatermanGotohWindowedAffine where
  gGapFunc := affineGap first further
  dCostFunc := SubCost5_3_Minus3 toLowerCase
  windowSize := windowSize

theorem rewards (hfirst : 0 < first) (hfurther : 0 ≤ further) :
    ((withDefaults toLowerCase first further windowSize).scoring s t).Rewards s t 5 where
  pos := by norm_num
  pair_same _ _ hi hj hsame := getCost_same hi hj hsame
  pair_other _ _ hi hj hne := getCost_other hi hj hne
  gapS_neg _ _ _ hk hgap := hgap.2.trans_lt (neg_neg_of_pos (affineGap_pos hfirst hfurther hk))
  gapT_neg _ _ _ hl hgap := hgap.2.trans_lt (neg_neg_of_pos (affineGap_pos hfirst hfurther hl))

theorem scoring_swap :
    ((withDefaults toLowerCase first further windowSize).scoring s t).swap =
      (withDefaults toLowerCase first further windowSize).scoring t s :=
  congrArg (fun pair => Scoring.mk pair _ _) (funext fun i => funext (getCost_comm i))

theorem getUnNormalisedSimilarity_comm (s t : JavaString) :
    (withDefaults toLowerCase first further windowSize).getUnNormalisedSimilarity s t =
      (withDefaults toLowerCase first further windowSize).getUnNormalisedSimilarity t s := by
  by_cases hempty : s = [] ∨ t = []
  · rw [getUnNormalisedSimilarity_empty hempty, getUnNormalisedSimilarity_empty hempty.symm,
      max_comm]
  · obtain ⟨hs, ht⟩ := not_or.mp hempty
    have hswap : IsGreatest _
        ((withDefaults toLowerCase first further windowSize).getUnNormalisedSimilarity s t) :=
      isGreatest_swap (isGreatest_getUnNormalisedSimilarity hs ht)
    rw [scoring_swap] at hswap
    exact hswap.unique (isGreatest_getUnNormalisedSimilarity ht hs)

theorem getSimilarity_eq (hfirst : 0 < first) :
    (withDefaults toLowerCase first further windowSize).getSimilarity s t =
      if min s.length t.length = 0 then 1
      else (withDefaults toLowerCase first further windowSize).getUnNormalisedSimilarity s t /
        ((min s.length t.length : ℕ) * 5) := by
  -- a gap is never rewarded, so the pairs give the greatest possible score
  have hmax : (5 : ℚ) > -first := (neg_neg_of_pos hfirst).trans (by norm_num)
  have hmaxCost : (withDefaults toLowerCase first further windowSize).dCostFunc.getMaxCost = 5 :=
    rfl
  have hgapCost : (withDefaults toLowerCase first further windowSize).gGapFunc.getMaxCost = first :=
    rfl
  have hfive : (5 : ℚ) ≠ 0 := by norm_num
  simp only [getSimilarity, hmaxCost, hgapCost, if_pos hmax, mul_eq_zero, Nat.cast_eq_zero, hfive,
    or_false]

theorem getSimilarity_comm (hfirst : 0 < first) (s t : JavaString) :
    (withDefaults toLowerCase first further windowSize).getSimilarity s t =
      (withDefaults toLowerCase first further windowSize).getSimilarity t s := by
  rw [getSimilarity_eq hfirst, getSimilarity_eq hfirst, min_comm t.length,
    getUnNormalisedSimilarity_comm s t]

theorem getSimilarity_bounds (hfirst : 0 < first) (hfurther : 0 ≤ further) (s t : JavaString) :
    0 ≤ (withDefaults toLowerCase first further windowSize).getSimilarity s t ∧
      (withDefaults toLowerCase first further windowSize).getSimilarity s t ≤ 1 ∧
      ((withDefaults toLowerCase first further windowSize).getSimilarity s t = 1 ↔
        s <:+: t ∨ t <:+: s) :=
  (rewards hfirst hfurther).similarity_bounds isGreatest_getUnNormalisedSimilarity
    (getSimilarity_eq hfirst)

/-- The similarity goes from `0` to `1`, which a string has with the strings it is a part of, so the
empty string with all, and with no others: letters that are merely alike do not suffice. -/
theorem similar_iff_part_affine (toLowerCase : JavaChar → JavaChar) (windowSize : ℕ)
    (first further : ℚ) (hfirst : 0 < first) (hfurther : 0 ≤ further) (s t : JavaString) :
    let metric := withDefaults toLowerCase first further windowSize
    metric.getSimilarity s t = metric.getSimilarity t s ∧
      0 ≤ metric.getSimilarity s t ∧ metric.getSimilarity s t ≤ 1 ∧
      (metric.getSimilarity s t = 1 ↔ s <:+: t ∨ t <:+: s) :=
  ⟨getSimilarity_comm hfirst s t, getSimilarity_bounds hfirst hfurther s t⟩

theorem similar_iff_part_affine_gotoh :
    (withDefaults id 5 1 100).getSimilarity [0x61, 0x62] [0x62] = 1 :=
  (similar_iff_part_affine id 100 5 1 (by norm_num) (by norm_num) [0x61, 0x62] [0x62]).2.2.2.mpr
    (.inr ⟨[0x61], [], rfl⟩)

end Default

end SmithWatermanGotohWindowedAffine

end SimMetrics
