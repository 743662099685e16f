import Mathlib.Data.List.Intervals
import Mathlib.Tactic.Linarith
import JavaExamples.Common.BestWalk
import JavaExamples.Common.TableFill
import JavaExamples.SimMetrics.CostFunctions

/-!
# Tables of local alignments

The loops that `SmithWaterman` and `SmithWatermanGotohWindowedAffine` share: the first column, the
first row and then the rest of the table are filled, and the greatest value is kept.

* `LocalRules`: how a metric computes the cells, each from cells filled before it.
* `LocalRules.isGreatest_alignment`: what is kept is the greatest score of a local alignment.
* `Scoring.Rewards.bounds`: if gaps cost something, at most the score of the shorter string is
  reached, and only if it is a part of the other one.
-/

namespace SimMetrics

open TableFill BestWalk

/-- How the cells of the first column, of the first row and of the rest are computed. -/
structure LocalRules where
  column : (ℕ × ℕ → ℚ) → ℕ → ℚ
  row : (ℕ × ℕ → ℚ) → ℕ → ℚ
  cell : (ℕ × ℕ → ℚ) → ℕ → ℕ → ℚ
  column_reads : ∀ i f g, (∀ k < i, f (k, 0) = g (k, 0)) → column f i = column g i
  row_reads : ∀ j f g, (∀ l < j, f (0, l) = g (0, l)) → row f j = row g j
  cell_reads : ∀ i j f g, 1 ≤ i → 1 ≤ j →
    (∀ k l, k < i ∧ l ≤ j ∨ k ≤ i ∧ l < j → f (k, l) = g (k, l)) → cell f i j = cell g i j
  /-- The first cell is computed twice. -/
  corner : ∀ f g, column f 0 = row g 0

namespace LocalRules

variable {rules : LocalRules} {n m : ℕ}

/-- The first column with the greatest value so far. -/
def firstColumn (rules : LocalRules) (n : ℕ) : (ℕ × ℕ → ℚ) × ℚ :=
  fillMax (fun d cell => rules.column d cell.1) (fun _ => 0, 0) ((List.Ico 0 n).map fun i => (i, 0))

def firstRow (rules : LocalRules) (n m : ℕ) : (ℕ × ℕ → ℚ) × ℚ :=
  fillMax (fun d cell => rules.row d cell.2) (rules.firstColumn n)
    ((List.Ico 0 m).map fun j => (0, j))

/-- The matrix and `maxSoFar` after the loops. -/
def fill (rules : LocalRules) (n m : ℕ) : (ℕ × ℕ → ℚ) × ℚ :=
  fillMax (fun d cell => rules.cell d cell.1 cell.2) (rules.firstRow n m)
    (grid (List.Ico 1 n) (List.Ico 1 m))

theorem ordered_column (rules : LocalRules) (n : ℕ) :
    Ordered (fun d cell => rules.column d cell.1) rowMajor
      ((List.Ico 0 n).map fun i => (i, 0)) := by
  refine ⟨List.pairwise_map.mpr ((List.Ico.pairwise_lt _ _).imp .inl), rowMajor_irrefl,
    fun cell hcell f g hread => ?_⟩
  obtain ⟨i, -, rfl⟩ := List.mem_map.mp hcell
  refine rules.column_reads i f g fun k hk => hread (k, 0) (fun h => ?_) (fun h => ?_)
  · exact hk.ne (Prod.mk.inj h).1
  · simp only [rowMajor] at h
    omega

theorem ordered_row (rules : LocalRules) (m : ℕ) :
    Ordered (fun d cell => rules.row d cell.2) rowMajor ((List.Ico 0 m).map fun j => (0, j)) := by
  refine ⟨List.pairwise_map.mpr ((List.Ico.pairwise_lt _ _).imp fun h => .inr ⟨rfl, h⟩),
    rowMajor_irrefl, fun cell hcell f g hread => ?_⟩
  obtain ⟨j, -, rfl⟩ := List.mem_map.mp hcell
  refine rules.row_reads j f g fun l hl => hread (0, l) (fun h => ?_) (fun h => ?_)
  · exact hl.ne (Prod.mk.inj h).2
  · simp only [rowMajor] at h
    omega

theorem ordered_cell (rules : LocalRules) (n m : ℕ) :
    Ordered (fun d cell => rules.cell d cell.1 cell.2) rowMajor
      (grid (List.Ico 1 n) (List.Ico 1 m)) :=
  ordered_grid (List.Ico.pairwise_lt _ _) (List.Ico.pairwise_lt _ _) fun i hi j hj f g =>
    rules.cell_reads i j f g (List.Ico.mem.mp hi).1 (List.Ico.mem.mp hj).1

theorem mem_column {i : ℕ} (hi : i < n) : (i, 0) ∈ (List.Ico 0 n).map fun i => (i, 0) :=
  List.mem_map_of_mem (List.Ico.mem.mpr ⟨Nat.zero_le i, hi⟩)

theorem mem_row {j : ℕ} (hj : j < m) : (0, j) ∈ (List.Ico 0 m).map fun j => (0, j) :=
  List.mem_map_of_mem (List.Ico.mem.mpr ⟨Nat.zero_le j, hj⟩)

theorem notMem_grid_of_zero {c : ℕ × ℕ} (h : c.1 = 0 ∨ c.2 = 0) :
    c ∉ grid (List.Ico 1 n) (List.Ico 1 m) := by
  obtain ⟨i, j⟩ := c
  rw [mem_grid, List.Ico.mem, List.Ico.mem]
  simp only at h
  omega

theorem fill_border {c : ℕ × ℕ} (h : c.1 = 0 ∨ c.2 = 0) :
    (rules.fill n m).1 c = (rules.firstRow n m).1 c := by
  rw [fill, fillMax_fst, fill_of_notMem (notMem_grid_of_zero h)]

theorem fill_row {j : ℕ} (hj : j < m) :
    (rules.fill n m).1 (0, j) = rules.row (rules.fill n m).1 j := by
  have hrow : (rules.firstRow n m).1 (0, j) = rules.row (rules.firstRow n m).1 j := by
    rw [firstRow, fillMax_fst]
    exact fill_eq (ordered_row rules m) (mem_row hj)
  rw [fill_border (.inl rfl), hrow]
  exact rules.row_reads j _ _ fun l _ => (fill_border (.inl rfl)).symm

theorem firstColumn_eq {i : ℕ} (hi : i < n) :
    (rules.firstColumn n).1 (i, 0) = rules.column (rules.firstColumn n).1 i := by
  rw [firstColumn, fillMax_fst]
  exact fill_eq (ordered_column rules n) (mem_column hi)

/-- The second loop computes the first cell again and leaves the rest of the first column. -/
theorem firstRow_column {i : ℕ} (hi : i < n) :
    (rules.firstRow n m).1 (i, 0) = (rules.firstColumn n).1 (i, 0) := by
  -- only the corner is in both loops, and both compute the same there
  by_cases hmem : (i, 0) ∈ (List.Ico 0 m).map fun j => (0, j)
  · obtain ⟨j, hj, heq⟩ := List.mem_map.mp hmem
    obtain ⟨rfl, rfl⟩ := Prod.mk.inj heq
    rw [firstColumn_eq hi, rules.corner _ (rules.firstRow n m).1, firstRow, fillMax_fst]
    exact fill_eq (ordered_row rules m) hmem
  · rw [firstRow, fillMax_fst, fill_of_notMem hmem]

theorem fill_column {i : ℕ} (hi : i < n) :
    (rules.fill n m).1 (i, 0) = rules.column (rules.fill n m).1 i := by
  have hsame : ∀ k < n, (rules.fill n m).1 (k, 0) = (rules.firstColumn n).1 (k, 0) := fun k hk =>
    (fill_border (.inr rfl)).trans (firstRow_column hk)
  rw [hsame i hi, firstColumn_eq hi]
  exact rules.column_reads i _ _ fun k hk => (hsame k (hk.trans hi)).symm

theorem fill_cell {i j : ℕ} (hi : 1 ≤ i) (hin : i < n) (hj : 1 ≤ j) (hjm : j < m) :
    (rules.fill n m).1 (i, j) = rules.cell (rules.fill n m).1 i j := by
  have hmem : (i, j) ∈ grid (List.Ico 1 n) (List.Ico 1 m) :=
    mem_grid.mpr ⟨List.Ico.mem.mpr ⟨hi, hin⟩, List.Ico.mem.mpr ⟨hj, hjm⟩⟩
  rw [fill, fillMax_fst]
  exact fill_eq (ordered_cell rules n m) hmem

/-- `maxSoFar` is the greatest value in the matrix, and at least `0`. -/
theorem isGreatest_fill (hn : 0 < n) (hm : 0 < m) :
    IsGreatest (insert 0 {x | ∃ i < n, ∃ j < m, (rules.fill n m).1 (i, j) = x})
      (rules.fill n m).2 := by
  obtain ⟨hcolumn, hcolumnBound⟩ : IsGreatest (insert 0 {x | ∃ cell ∈
      (List.Ico 0 n).map fun i => (i, 0), (rules.firstColumn n).1 cell = x})
      (rules.firstColumn n).2 := isGreatest_fillMax (ordered_column rules n)
  obtain ⟨hrow, hrowBound⟩ : IsGreatest (insert (rules.firstColumn n).2 {x | ∃ cell ∈
      (List.Ico 0 m).map fun j => (0, j), (rules.firstRow n m).1 cell = x})
      (rules.firstRow n m).2 := isGreatest_fillMax (ordered_row rules m)
  obtain ⟨hrest, hrestBound⟩ : IsGreatest (insert (rules.firstRow n m).2 {x | ∃ cell ∈
      grid (List.Ico 1 n) (List.Ico 1 m), (rules.fill n m).1 cell = x})
      (rules.fill n m).2 := isGreatest_fillMax (ordered_cell rules n m)
  have hgrow := hrestBound (.inl rfl)
  have hgrow' := (hrowBound (.inl rfl)).trans hgrow
  constructor
  -- the greatest value comes from the last loop that raised it
  · rcases hrest with heq | ⟨⟨i, j⟩, hmem, heq⟩
    · rw [heq]
      rcases hrow with heq | ⟨cell, hmem, heq⟩
      · rw [heq]
        refine hcolumn.imp_right ?_
        rintro ⟨cell, hmem, heq⟩
        obtain ⟨i, hi, rfl⟩ := List.mem_map.mp hmem
        have hi := (List.Ico.mem.mp hi).2
        exact ⟨i, hi, 0, hm, (fill_border (.inr rfl)).trans ((firstRow_column hi).trans heq)⟩
      · obtain ⟨j, hj, rfl⟩ := List.mem_map.mp hmem
        exact .inr ⟨0, hn, j, (List.Ico.mem.mp hj).2, (fill_border (.inl rfl)).trans heq⟩
    · rw [mem_grid, List.Ico.mem, List.Ico.mem] at hmem
      exact .inr ⟨i, hmem.1.2, j, hmem.2.2, heq⟩
  · rintro x (rfl | ⟨i, hi, j, hj, rfl⟩)
    · exact (hcolumnBound (.inl rfl)).trans hgrow'
    -- the first column, the first row, or the rest of the matrix
    rcases j.eq_zero_or_pos with rfl | hjpos
    · rw [fill_border (.inr rfl), firstRow_column hi]
      exact (hcolumnBound (.inr ⟨_, mem_column hi, rfl⟩)).trans hgrow'
    rcases i.eq_zero_or_pos with rfl | hipos
    · rw [fill_border (.inl rfl)]
      exact (hrowBound (.inr ⟨_, mem_row hj, rfl⟩)).trans hgrow
    · exact hrestBound (.inr ⟨(i, j), mem_grid.mpr ⟨List.Ico.mem.mpr ⟨hipos, hi⟩,
        List.Ico.mem.mpr ⟨hjpos, hj⟩⟩, rfl⟩)

end LocalRules

/-! ## Local alignments -/

/-- What pairs of letters and gaps score. `gapS k i w`: the letters of `s` behind `k` up to `i` may
be left out for `w`, and likewise for `t`. -/
structure Scoring where
  pair : ℕ → ℕ → ℚ
  gapS : ℕ → ℕ → ℚ → Prop
  gapT : ℕ → ℕ → ℚ → Prop

namespace Scoring

variable {scoring : Scoring} {n m : ℕ}

/-- A pair, or a gap behind a pair, for strings of `n` and `m` letters. -/
inductive Step (scoring : Scoring) (n m : ℕ) : ℕ × ℕ → ℕ × ℕ → ℚ → Prop where
  | pair {i j : ℕ} (hi : i < n) (hj : j < m) :
    Step scoring n m (i, j) (i + 1, j + 1) (scoring.pair i j)
  | gapS {k i j : ℕ} {w : ℚ} (hi : i < n) (hj : j < m) (hk : k < i) (hgap : scoring.gapS k i w) :
    Step scoring n m (k + 1, j + 1) (i + 1, j + 1) w
  | gapT {i l j : ℕ} {w : ℚ} (hi : i < n) (hj : j < m) (hl : l < j) (hgap : scoring.gapT l j w) :
    Step scoring n m (i + 1, l + 1) (i + 1, j + 1) w

/-- Any place of both strings. -/
def Start (n m : ℕ) (c : ℕ × ℕ) (x : ℚ) : Prop := (c.1 ≤ n ∧ c.2 ≤ m) ∧ x = 0

/-- An alignment of the letters behind any place of both strings, and its score. -/
def Alignment (scoring : Scoring) (n m : ℕ) : ℕ × ℕ → ℚ → Prop :=
  Walk (Start n m) (scoring.Step n m)

theorem Alignment.le {c : ℕ × ℕ} {x : ℚ} (h : scoring.Alignment n m c x) :
    c.1 ≤ n ∧ c.2 ≤ m := by
  cases h with
  | start h => exact h.1
  | step _ hstep => cases hstep <;> exact ⟨‹_ < n›, ‹_ < m›⟩

/-- The same with the strings in the other order. -/
def swap (scoring : Scoring) : Scoring where
  pair i j := scoring.pair j i
  gapS := scoring.gapT
  gapT := scoring.gapS

theorem Alignment.swap {c : ℕ × ℕ} {x : ℚ} (h : scoring.Alignment n m c x) :
    scoring.swap.Alignment m n c.swap x := by
  induction h with
  | start h => exact .start ⟨h.1.symm, h.2⟩
  | step _ hstep ih =>
    refine .step ih ?_
    cases hstep with
    | pair hi hj => exact .pair hj hi
    | gapS hi hj hk hgap => exact .gapT hj hi hk hgap
    | gapT hi hj hl hgap => exact .gapS hj hi hl hgap

theorem isGreatest_swap {score : ℚ} (h : IsGreatest {x | ∃ c, scoring.Alignment n m c x} score) :
    IsGreatest {x | ∃ c, scoring.swap.Alignment m n c x} score := by
  obtain ⟨⟨c, hbest⟩, hbound⟩ := h
  refine ⟨⟨_, hbest.swap⟩, ?_⟩
  rintro x ⟨c, halignment⟩
  exact hbound ⟨_, halignment.swap⟩

/-- The matrix has no cells for what is in front of both strings. -/
def label (d : ℕ × ℕ → ℚ) : ℕ × ℕ → ℚ
  | (i + 1, j + 1) => d (i, j)
  | _ => 0

/-- What a cell may get over a gap in `s`. -/
def overGapS (scoring : Scoring) (d : ℕ × ℕ → ℚ) (i j : ℕ) : Set ℚ :=
  {x | ∃ k < i, ∃ w, scoring.gapS k i w ∧ x = d (k, j) + w}

def overGapT (scoring : Scoring) (d : ℕ × ℕ → ℚ) (i j : ℕ) : Set ℚ :=
  {x | ∃ l < j, ∃ w, scoring.gapT l j w ∧ x = d (i, l) + w}

/-- What a cell is the greatest of. -/
def candidates (scoring : Scoring) (d : ℕ × ℕ → ℚ) (i j : ℕ) : Set ℚ :=
  insert 0 (scoring.overGapS d i j) ∪
    (insert 0 (scoring.overGapT d i j) ∪ {label d (i, j) + scoring.pair i j})

theorem isGreatest_candidates {d : ℕ × ℕ → ℚ} {i j : ℕ} {value gapS gapT : ℚ}
    (hgapS : IsGreatest (insert 0 (scoring.overGapS d i j)) (max 0 gapS))
    (hgapT : IsGreatest (insert 0 (scoring.overGapT d i j)) (max 0 gapT))
    (hvalue : ∀ x, value ≤ x ↔
      0 ≤ x ∧ gapS ≤ x ∧ gapT ≤ x ∧ label d (i, j) + scoring.pair i j ≤ x) :
    IsGreatest (scoring.candidates d i j) value := by
  have heq : value = max (max 0 gapS) (max (max 0 gapT) (label d (i, j) + scoring.pair i j)) := by
    -- the rules of a matrix list the same bounds in another order
    refine eq_of_forall_ge_iff fun x => ?_
    rw [hvalue, max_le_iff, max_le_iff, max_le_iff, max_le_iff]
    tauto
  rw [heq]
  exact hgapS.union (hgapT.union isGreatest_singleton)

/-- There is no letter in front of the first one. -/
theorem isGreatest_overGapS_zero (d : ℕ × ℕ → ℚ) (j : ℕ) {gapS : ℚ} (h : gapS ≤ 0) :
    IsGreatest (insert 0 (scoring.overGapS d 0 j)) (max 0 gapS) := by
  rw [max_eq_left h]
  refine ⟨.inl rfl, ?_⟩
  rintro x (rfl | ⟨k, hk, -⟩)
  · exact le_rfl
  · exact absurd hk (Nat.not_lt_zero k)

theorem isGreatest_overGapT_zero (d : ℕ × ℕ → ℚ) (i : ℕ) {gapT : ℚ} (h : gapT ≤ 0) :
    IsGreatest (insert 0 (scoring.overGapT d i 0)) (max 0 gapT) := by
  rw [max_eq_left h]
  refine ⟨.inl rfl, ?_⟩
  rintro x (rfl | ⟨l, hl, -⟩)
  · exact le_rfl
  · exact absurd hl (Nat.not_lt_zero l)

/-- Every cell of the matrix is the greatest of its candidates. -/
def Fills (scoring : Scoring) (n m : ℕ) (d : ℕ × ℕ → ℚ) : Prop :=
  ∀ i < n, ∀ j < m, IsGreatest (scoring.candidates d i j) (d (i, j))

variable {d : ℕ × ℕ → ℚ}

theorem Fills.tight (h : scoring.Fills n m d) :
    Tight (Start n m) (scoring.Step n m) (fun c => c.1 ≤ n ∧ c.2 ≤ m) (fun c => c.1 + c.2)
      (label d) := by
  rintro ⟨i, j⟩ ⟨hi, hj⟩
  match i, j with
  | 0, _ => exact .inl ⟨⟨hi, hj⟩, rfl⟩
  | _ + 1, 0 => exact .inl ⟨⟨hi, hj⟩, rfl⟩
  | i + 1, j + 1 =>
    simp only at hi hj
    -- a value of `0` starts an alignment, any other one continues one
    rcases (h i hi j hj).1 with (hzero | ⟨k, hk, w, hgap, hvalue⟩) |
      (hzero | ⟨l, hl, w, hgap, hvalue⟩) | hpair
    · exact .inl ⟨⟨hi, hj⟩, hzero⟩
    · exact .inr ⟨(k + 1, j + 1), w, ⟨by omega, by omega⟩, .gapS hi hj hk hgap,
        by simp only; omega, hvalue⟩
    · exact .inl ⟨⟨hi, hj⟩, hzero⟩
    · exact .inr ⟨(i + 1, l + 1), w, ⟨by omega, by omega⟩, .gapT hi hj hl hgap,
        by simp only; omega, hvalue⟩
    · exact .inr ⟨(i, j), _, ⟨by omega, by omega⟩, .pair hi hj, by simp only; omega, hpair⟩

theorem Fills.label_nonneg (h : scoring.Fills n m d) {c : ℕ × ℕ} (hc : c.1 ≤ n ∧ c.2 ≤ m) :
    0 ≤ label d c := by
  obtain ⟨i, j⟩ := c
  match i, j with
  | 0, _ => exact le_rfl
  | _ + 1, 0 => exact le_rfl
  | i + 1, j + 1 => exact (h i hc.1 j hc.2).2 (.inl (.inl rfl))

theorem Fills.label_step (h : scoring.Fills n m d) {b c : ℕ × ℕ} {w : ℚ}
    (hstep : scoring.Step n m b c w) : label d b + w ≤ label d c := by
  cases hstep with
  | @pair i j hi hj => exact (h i hi j hj).2 (.inr (.inr rfl))
  | @gapS k i j w hi hj hk hgap => exact (h i hi j hj).2 (.inl (.inr ⟨k, hk, w, hgap, rfl⟩))
  | @gapT i l j w hi hj hl hgap =>
    exact (h i hi j hj).2 (.inr (.inl (.inr ⟨l, hl, w, hgap, rfl⟩)))

theorem Fills.isGreatest_label (h : scoring.Fills n m d) {c : ℕ × ℕ} (hc : c.1 ≤ n ∧ c.2 ≤ m) :
    IsGreatest {x | scoring.Alignment n m c x} (label d c) :=
  isGreatest_walk h.tight (fun _ _ hstart => hstart.2.trans_le (h.label_nonneg hstart.1))
    (fun _ _ _ => h.label_step) hc

end Scoring

/-- What is kept is the greatest score of a local alignment. -/
theorem LocalRules.isGreatest_alignment {rules : LocalRules} {scoring : Scoring} {n m : ℕ}
    (hn : 0 < n) (hm : 0 < m) (h : scoring.Fills n m (rules.fill n m).1) :
    IsGreatest {x | ∃ c, scoring.Alignment n m c x} (rules.fill n m).2 := by
  obtain ⟨hvalue, hbound⟩ : IsGreatest _ (rules.fill n m).2 := isGreatest_fill hn hm
  constructor
  · rcases hvalue with hzero | ⟨i, hi, j, hj, hvalue⟩
    · exact ⟨(0, 0), .start ⟨⟨Nat.zero_le _, Nat.zero_le _⟩, hzero⟩⟩
    · rw [← hvalue]
      exact ⟨(i + 1, j + 1), (h.isGreatest_label (c := (i + 1, j + 1)) ⟨hi, hj⟩).1⟩
  · rintro x ⟨c, halignment⟩
    refine ((h.isGreatest_label halignment.le).2 halignment).trans ?_
    obtain ⟨hi, hj⟩ := halignment.le
    -- an alignment that ends in front of a string scores `0`
    match c with
    | (0, _) => exact hbound (.inl rfl)
    | (_ + 1, 0) => exact hbound (.inl rfl)
    | (i + 1, j + 1) => exact hbound (.inr ⟨i, hi, j, hj, rfl⟩)

/-! ## Scores that only the same letters reach -/

/-- A pair scores `reward` if the letters are the same and otherwise less, and gaps cost
something. -/
structure Scoring.Rewards (scoring : Scoring) (s t : JavaString) (reward : ℚ) : Prop where
  pos : 0 < reward
  pair_same : ∀ i j (hi : i < s.length) (hj : j < t.length), s[i] = t[j] →
    scoring.pair i j = reward
  pair_other : ∀ i j (hi : i < s.length) (hj : j < t.length), s[i] ≠ t[j] →
    scoring.pair i j < reward
  gapS_neg : ∀ k i w, k < i → scoring.gapS k i w → w < 0
  gapT_neg : ∀ l j w, l < j → scoring.gapT l j w → w < 0

theorem part_of_min_eq_zero {s t : JavaString} (h : min s.length t.length = 0) :
    s <:+: t ∨ t <:+: s := by
  rcases min_choice s.length t.length with hmin | hmin
  · obtain rfl := List.length_eq_zero_iff.mp (hmin.symm.trans h)
    exact .inl List.nil_infix
  · obtain rfl := List.length_eq_zero_iff.mp (hmin.symm.trans h)
    exact .inr List.nil_infix

namespace Scoring.Rewards

variable {scoring : Scoring} {s t : JavaString} {reward : ℚ}

/-- An alignment scores at most one reward for each pair, and so much only if it has no gaps. -/
theorem score_le (h : scoring.Rewards s t reward) {c : ℕ × ℕ} {x : ℚ}
    (halignment : scoring.Alignment s.length t.length c x) :
    ∃ r : ℕ, r ≤ c.1 ∧ r ≤ c.2 ∧ x ≤ r * reward ∧
      (x = r * reward → ∃ w, w.length = r ∧ w <:+ s.take c.1 ∧ w <:+ t.take c.2) := by
  induction halignment with
  | start hstart =>
    obtain ⟨-, rfl⟩ := hstart
    exact ⟨0, Nat.zero_le _, Nat.zero_le _, by simp,
      fun _ => ⟨[], rfl, List.nil_suffix, List.nil_suffix⟩⟩
  | step _ hstep ih =>
    obtain ⟨r, hs, ht, hx, hword⟩ := ih
    -- only a pair of the same letters keeps pace with the reward
    cases hstep with
    | @pair i j hi hj =>
      refine ⟨r + 1, Nat.succ_le_succ hs, Nat.succ_le_succ ht, ?_⟩
      rw [Nat.cast_succ, add_one_mul]
      by_cases hsame : s[i] = t[j]
      · rw [h.pair_same i j hi hj hsame]
        refine ⟨by linarith, fun hvalue => ?_⟩
        obtain ⟨w, hlength, hws, hwt⟩ := hword (add_right_cancel hvalue)
        refine ⟨w ++ [s[i]], by rw [List.length_append, hlength]; rfl, ?_, ?_⟩
        · rw [← List.take_append_getElem hi]
          exact List.suffix_append_self_iff.mpr hws
        · rw [← List.take_append_getElem hj, hsame]
          exact List.suffix_append_self_iff.mpr hwt
      · have hother := h.pair_other i j hi hj hsame
        exact ⟨by linarith, fun hvalue => by linarith⟩
    | gapS hi hj hk hgap =>
      have hneg := h.gapS_neg _ _ _ hk hgap
      exact ⟨r, by simp only at *; omega, ht, by linarith, fun hvalue => by linarith⟩
    | gapT hi hj hl hgap =>
      have hneg := h.gapT_neg _ _ _ hl hgap
      exact ⟨r, hs, by simp only at *; omega, by linarith, fun hvalue => by linarith⟩

theorem swap (h : scoring.Rewards s t reward) : scoring.swap.Rewards t s reward where
  pos := h.pos
  pair_same i j hi hj hsame := h.pair_same j i hj hi hsame.symm
  pair_other i j hi hj hne := h.pair_other j i hj hi (Ne.symm hne)
  gapS_neg := h.gapT_neg
  gapT_neg := h.gapS_neg

/-- A part of the other string is paired with itself, letter by letter. -/
theorem alignment_of_part (h : scoring.Rewards s t reward) {u v : JavaString} (ht : u ++ s ++ v = t)
    {i : ℕ} (hi : i ≤ s.length) :
    scoring.Alignment s.length t.length (i, u.length + i) (i * reward) := by
  subst ht
  induction i with
  | zero => exact .start ⟨⟨hi, by simp⟩, by simp⟩
  | succ i ih =>
    have hj : u.length + i < (u ++ s ++ v).length := by
      simp only [List.length_append]
      omega
    -- the part begins behind `u`
    have hsame : s[i] = (u ++ s ++ v)[u.length + i] := by
      rw [List.getElem_append_left (by simp only [List.length_append]; omega),
        List.getElem_append_right (Nat.le_add_right _ _)]
      simp
    have hstep := Walk.step (ih (Nat.le_of_succ_le hi)) (Step.pair hi hj)
    rw [h.pair_same i _ hi hj hsame] at hstep
    rwa [Nat.cast_succ, add_one_mul]

theorem exists_alignment (h : scoring.Rewards s t reward) (hpart : s <:+: t ∨ t <:+: s) :
    ∃ c, scoring.Alignment s.length t.length c ((min s.length t.length : ℕ) * reward) := by
  rcases hpart with hpart | hpart
  · obtain ⟨u, v, ht⟩ := hpart
    rw [min_eq_left (List.IsInfix.length_le ⟨u, v, ht⟩)]
    exact ⟨_, h.alignment_of_part ht le_rfl⟩
  · obtain ⟨u, v, hs⟩ := hpart
    rw [min_eq_right (List.IsInfix.length_le ⟨u, v, hs⟩)]
    exact ⟨_, (h.swap.alignment_of_part hs le_rfl).swap⟩

theorem part_of_score (h : scoring.Rewards s t reward) {c : ℕ × ℕ}
    (halignment : scoring.Alignment s.length t.length c ((min s.length t.length : ℕ) * reward)) :
    s <:+: t ∨ t <:+: s := by
  obtain ⟨r, hs, ht, hvalue, hword⟩ := h.score_le halignment
  have hle := halignment.le
  have hr : r = min s.length t.length := by
    have := Nat.cast_le.mp (le_of_mul_le_mul_right hvalue h.pos)
    omega
  -- the word that is paired is as long as the shorter string
  obtain ⟨w, hlength, hws, hwt⟩ := hword (by rw [hr])
  have hwords : w <:+: s := hws.isInfix.trans (List.take_prefix _ _).isInfix
  have hwordt : w <:+: t := hwt.isInfix.trans (List.take_prefix _ _).isInfix
  rcases le_total s.length t.length with hshort | hshort
  · rw [min_eq_left hshort] at hr
    exact .inl (hwords.eq_of_length (hlength.trans hr) ▸ hwordt)
  · rw [min_eq_right hshort] at hr
    exact .inr (hwordt.eq_of_length (hlength.trans hr) ▸ hwords)

/-- At most a reward for every letter of the shorter string is scored, and so much only if it is a
part of the other one. -/
theorem bounds (h : scoring.Rewards s t reward) {score : ℚ}
    (hscore : IsGreatest {x | ∃ c, scoring.Alignment s.length t.length c x} score) :
    0 ≤ score ∧ score ≤ (min s.length t.length : ℕ) * reward ∧
      (score = (min s.length t.length : ℕ) * reward ↔ s <:+: t ∨ t <:+: s) := by
  obtain ⟨⟨c, hbest⟩, hbound⟩ := hscore
  have hle : score ≤ (min s.length t.length : ℕ) * reward := by
    obtain ⟨r, hs, ht, hvalue, -⟩ := h.score_le hbest
    have hr : r ≤ min s.length t.length := by
      have := hbest.le
      omega
    exact hvalue.trans (mul_le_mul_of_nonneg_right (Nat.cast_le.mpr hr) h.pos.le)
  refine ⟨hbound ⟨(0, 0), .start ⟨⟨Nat.zero_le _, Nat.zero_le _⟩, rfl⟩⟩, hle, fun hvalue => ?_,
    fun hpart => le_antisymm hle (hbound (h.exists_alignment hpart))⟩
  exact h.part_of_score (hvalue ▸ hbest)

/-- So the score normalised by the greatest possible one says whether one string is a part of the
other. An empty string is a part of all. -/
theorem similarity_bounds (h : scoring.Rewards s t reward) {score similarity : ℚ}
    (hscore : s ≠ [] → t ≠ [] →
      IsGreatest {x | ∃ c, scoring.Alignment s.length t.length c x} score)
    (hsimilarity : similarity = if min s.length t.length = 0 then 1
      else score / ((min s.length t.length : ℕ) * reward)) :
    0 ≤ similarity ∧ similarity ≤ 1 ∧ (similarity = 1 ↔ s <:+: t ∨ t <:+: s) := by
  rcases Nat.eq_zero_or_pos (min s.length t.length) with hmin | hpos
  · rw [hsimilarity, if_pos hmin]
    exact ⟨zero_le_one, le_rfl, iff_of_true rfl (part_of_min_eq_zero hmin)⟩
  · have hs : s ≠ [] := List.length_pos_iff.mp (hpos.trans_le (min_le_left _ _))
    have ht : t ≠ [] := List.length_pos_iff.mp (hpos.trans_le (min_le_right _ _))
    obtain ⟨hnonneg, hle, hpart⟩ := h.bounds (hscore hs ht)
    have hmax : (0 : ℚ) < (min s.length t.length : ℕ) * reward :=
      mul_pos (Nat.cast_pos.mpr hpos) h.pos
    rw [hsimilarity, if_neg hpos.ne']
    refine ⟨div_nonneg hnonneg hmax.le, div_le_one_of_le₀ hle hmax.le, ?_⟩
    rw [div_eq_one_iff_eq hmax.ne', hpart]

end Scoring.Rewards

end SimMetrics
