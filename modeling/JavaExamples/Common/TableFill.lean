import Mathlib.Data.List.Infix
import Mathlib.Data.List.Pairwise
import Mathlib.Data.List.ProdSigma
import Mathlib.Logic.Function.Basic
import Mathlib.Order.Bounds.Basic
import Mathlib.Order.MinMax

/-!
# Filling a table cell by cell

A table whose cells are computed one after the other, each from cells that have been computed
before.

* `fill compute table cells`: the table after the loop over `cells`.
* `fill_eq`: if a computation reads no cell that comes later, then the filled table satisfies the
  recurrence in all cells at once.
* `fillMax`: the same loop, which also keeps the greatest value (`isGreatest_fillMax`).
* `grid rows cols`: the cells of a rectangle, row by row.
-/

namespace TableFill

variable {ι β : Type*} [DecidableEq ι]

/-- The loop that computes the cells in their order. -/
def fill (compute : (ι → β) → ι → β) (table : ι → β) (cells : List ι) : ι → β :=
  cells.foldl (fun table cell => Function.update table cell (compute table cell)) table

section Fill

variable {compute : (ι → β) → ι → β} {table : ι → β} {cells : List ι}

@[simp]
theorem fill_nil : fill compute table [] = table := rfl

@[simp]
theorem fill_cons (cell : ι) (rest : List ι) :
    fill compute table (cell :: rest) =
      fill compute (Function.update table cell (compute table cell)) rest := rfl

theorem fill_append (first rest : List ι) :
    fill compute table (first ++ rest) = fill compute (fill compute table first) rest :=
  List.foldl_append

/-- The other cells stay as they are. -/
theorem fill_of_notMem {cell : ι} (h : cell ∉ cells) :
    fill compute table cells cell = table cell := by
  induction cells generalizing table with
  | nil => rfl
  | cons first rest ih =>
    rw [fill_cons, ih (List.not_mem_of_not_mem_cons h),
      Function.update_of_ne (List.ne_of_not_mem_cons h)]

/-- A loop whose values do not depend on the table. -/
theorem fill_const {value : ι → β} (cell : ι) :
    fill (fun _ => value) table cells cell = if cell ∈ cells then value cell else table cell := by
  induction cells generalizing table with
  | nil => rfl
  | cons first rest ih =>
    rw [fill_cons, ih]
    rcases eq_or_ne cell first with rfl | hne
    · simp
    · simp [hne]

/-- The cells of the loop come in the order `before`, and the computation of a cell reads neither
itself nor what comes later. -/
structure Ordered (compute : (ι → β) → ι → β) (before : ι → ι → Prop) (cells : List ι) : Prop where
  sorted : cells.Pairwise before
  irrefl : ∀ cell, ¬before cell cell
  reads : ∀ cell ∈ cells, ∀ f g, (∀ other, other ≠ cell → ¬before cell other → f other = g other) →
    compute f cell = compute g cell

/-- The filled table satisfies the recurrence. -/
theorem fill_eq {before : ι → ι → Prop} (h : Ordered compute before cells) {cell : ι}
    (hcell : cell ∈ cells) :
    fill compute table cells cell = compute (fill compute table cells) cell := by
  obtain ⟨first, rest, rfl⟩ := List.append_of_mem hcell
  obtain ⟨-, hsorted, -⟩ := List.pairwise_append.mp h.sorted
  obtain ⟨hafter, -⟩ := List.pairwise_cons.mp hsorted
  have hnotMem : cell ∉ rest := fun hmem => h.irrefl cell (hafter cell hmem)
  -- when the cell is computed, the cells it reads have their final values
  have hread : ∀ other, other ≠ cell → ¬before cell other →
      fill compute table first other = fill compute table (first ++ cell :: rest) other := by
    intro other hne hbefore
    have hrest : other ∉ rest := fun hmem => hbefore (hafter other hmem)
    rw [fill_append, fill_cons, fill_of_notMem hrest, Function.update_of_ne hne]
  rw [← h.reads cell hcell _ _ hread, fill_append, fill_cons, fill_of_notMem hnotMem,
    Function.update_self]

end Fill

/-! ## Keeping the greatest value -/

variable [LinearOrder β]

/-- The loop that also keeps the greatest value computed. -/
def fillMax (compute : (ι → β) → ι → β) (start : (ι → β) × β) (cells : List ι) : (ι → β) × β :=
  cells.foldl (fun state cell =>
    let value := compute state.1 cell
    (Function.update state.1 cell value, if state.2 < value then value else state.2)) start

section FillMax

variable {compute : (ι → β) → ι → β} {start : (ι → β) × β} {cells : List ι}

theorem fillMax_append (first rest : List ι) :
    fillMax compute start (first ++ rest) = fillMax compute (fillMax compute start first) rest :=
  List.foldl_append

theorem fillMax_concat (cells : List ι) (cell : ι) :
    fillMax compute start (cells ++ [cell]) =
      (Function.update (fillMax compute start cells).1 cell
        (compute (fillMax compute start cells).1 cell),
      max (fillMax compute start cells).2 (compute (fillMax compute start cells).1 cell)) := by
  rw [fillMax_append, fillMax, List.foldl_cons, List.foldl_nil]
  refine Prod.ext rfl ?_
  show (if _ < _ then _ else _) = _
  split
  · rw [max_eq_right (le_of_lt ‹_›)]
  · rw [max_eq_left (not_lt.mp ‹_›)]

theorem fillMax_fst : (fillMax compute start cells).1 = fill compute start.1 cells := by
  induction cells using List.reverseRecOn with
  | nil => rfl
  | append_singleton cells cell ih =>
    rw [fillMax_concat, fill_append, fill_cons, fill_nil, ih]

/-- A loop that keeps the greatest value keeps the one at the start if it comes by no greater. -/
theorem isGreatest_foldl_max {κ : Type*} (value : κ → β) (l : List κ) (best : β) :
    IsGreatest (insert best {x | ∃ k ∈ l, value k = x})
      (l.foldl (fun best k => max best (value k)) best) := by
  induction l generalizing best with
  | nil =>
    refine ⟨.inl rfl, ?_⟩
    rintro x (rfl | ⟨k, hk, -⟩)
    · exact le_rfl
    · exact absurd hk List.not_mem_nil
  | cons first rest ih =>
    obtain ⟨hbest, hbound⟩ := ih (max best (value first))
    constructor
    · rcases hbest with hbest | ⟨k, hk, hbest⟩
      · rw [List.foldl_cons, hbest]
        rcases max_choice best (value first) with hmax | hmax
        · exact .inl hmax
        · exact .inr ⟨first, List.mem_cons_self, hmax.symm⟩
      · exact .inr ⟨k, List.mem_cons_of_mem _ hk, hbest⟩
    · rintro x (rfl | ⟨k, hk, rfl⟩)
      · exact (le_max_left _ _).trans (hbound (.inl rfl))
      · rcases List.mem_cons.mp hk with rfl | hk
        · exact (le_max_right _ _).trans (hbound (.inl rfl))
        · exact hbound (.inr ⟨k, hk, rfl⟩)

/-- The greatest value is kept of what the cells are in the end. -/
theorem fillMax_snd {before : ι → ι → Prop} (h : Ordered compute before cells) :
    (fillMax compute start cells).2 =
      cells.foldl (fun best cell => max best ((fillMax compute start cells).1 cell)) start.2 := by
  simp only [fillMax_fst]
  induction cells using List.reverseRecOn with
  | nil => rfl
  | append_singleton cells cell ih =>
    obtain ⟨hsorted, -, hlast⟩ := List.pairwise_append.mp h.sorted
    have hkeep : ∀ other ∈ cells, fill compute start.1 (cells ++ [cell]) other =
        fill compute start.1 cells other := by
      intro other hother
      have hne : other ≠ cell := by
        rintro rfl
        exact h.irrefl other (hlast other hother other (List.mem_singleton_self other))
      rw [fill_append, fill_cons, fill_nil, Function.update_of_ne hne]
    have hnew : fill compute start.1 (cells ++ [cell]) cell =
        compute (fillMax compute start cells).1 cell := by
      rw [fill_append, fill_cons, fill_nil, Function.update_self, fillMax_fst]
    have hcells := ih { h with
      sorted := hsorted
      reads := fun other hother => h.reads other (List.mem_append_left _ hother) }
    rw [fillMax_concat, List.foldl_append, List.foldl_cons, List.foldl_nil, hnew, hcells]
    exact congrArg (max · _) (List.foldl_ext _ _ _ fun best other hother => by
      rw [hkeep other hother])

theorem isGreatest_fillMax {before : ι → ι → Prop} (h : Ordered compute before cells) :
    IsGreatest (insert start.2 {x | ∃ cell ∈ cells, (fillMax compute start cells).1 cell = x})
      (fillMax compute start cells).2 := by
  rw [fillMax_snd h]
  exact isGreatest_foldl_max _ _ _

end FillMax

/-! ## Rectangles -/

/-- The cells of the rows and columns, row by row. -/
def grid (rows cols : List ℕ) : List (ℕ × ℕ) := rows ×ˢ cols

@[simp]
theorem mem_grid {rows cols : List ℕ} {i j : ℕ} :
    (i, j) ∈ grid rows cols ↔ i ∈ rows ∧ j ∈ cols := List.mem_product

/-- Row by row. -/
def rowMajor (cell other : ℕ × ℕ) : Prop :=
  cell.1 < other.1 ∨ cell.1 = other.1 ∧ cell.2 < other.2

theorem rowMajor_irrefl (cell : ℕ × ℕ) : ¬rowMajor cell cell := by
  rintro (h | ⟨-, h⟩) <;> exact lt_irrefl _ h

theorem grid_pairwise {rows cols : List ℕ} (hrows : rows.Pairwise (· < ·))
    (hcols : cols.Pairwise (· < ·)) : (grid rows cols).Pairwise rowMajor := by
  induction rows with
  | nil => simp [grid]
  | cons i rows ih =>
    obtain ⟨hi, hrows⟩ := List.pairwise_cons.mp hrows
    rw [grid, List.product_cons]
    refine List.pairwise_append.mpr ⟨?_, ih hrows, ?_⟩
    · exact List.pairwise_map.mpr (hcols.imp fun h => .inr ⟨rfl, h⟩)
    · intro cell hcell other hother
      obtain ⟨j, -, rfl⟩ := List.mem_map.mp hcell
      exact .inl (hi _ (List.mem_product.mp hother).1)

/-- Row by row, a cell may be computed from those above and to the left. -/
theorem ordered_grid {β : Type*} {compute : (ℕ × ℕ → β) → ℕ × ℕ → β} {rows cols : List ℕ}
    (hrows : rows.Pairwise (· < ·)) (hcols : cols.Pairwise (· < ·))
    (hreads : ∀ i ∈ rows, ∀ j ∈ cols, ∀ f g : ℕ × ℕ → β,
      (∀ k l, k < i ∧ l ≤ j ∨ k ≤ i ∧ l < j → f (k, l) = g (k, l)) →
        compute f (i, j) = compute g (i, j)) :
    Ordered compute rowMajor (grid rows cols) := by
  refine ⟨grid_pairwise hrows hcols, rowMajor_irrefl, fun (i, j) hcell f g hread => ?_⟩
  obtain ⟨hi, hj⟩ := mem_grid.mp hcell
  refine hreads i hi j hj f g fun k l hkl => hread (k, l) (fun h => ?_) (fun h => ?_)
  · obtain ⟨rfl, rfl⟩ := Prod.mk.inj h
    omega
  · simp only [rowMajor] at h
    omega

end TableFill
