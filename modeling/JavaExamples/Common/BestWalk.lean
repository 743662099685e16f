import Mathlib.Algebra.Order.Group.Synonym
import Mathlib.Algebra.Order.Monoid.OrderDual
import Mathlib.Order.Bounds.Basic

/-!
# Labels and walks

Labels that a relaxation has made tight are the least weights of walks.

* `Walk start edge c x`: a walk that ends in `c`, begins with one of the values of `start` and adds
  the weights of its edges.
* `Tight`: every label is a start or comes over an edge.
* `isLeast_walk`: tight labels that no edge improves are least.
* `isGreatest_walk`: the same for greatest weights.
-/

namespace BestWalk

variable {ι F : Type*}

section Walk

variable [Add F]

/-- A walk to a cell and what it adds up to. -/
inductive Walk (start : ι → F → Prop) (edge : ι → ι → F → Prop) : ι → F → Prop where
  | start {c : ι} {x : F} (h : start c x) : Walk start edge c x
  | step {b c : ι} {x w : F} (h : Walk start edge b x) (hedge : edge b c w) :
    Walk start edge c (x + w)

/-- The labels of the cells are starts or come over an edge from a cell of lower rank. -/
def Tight (start : ι → F → Prop) (edge : ι → ι → F → Prop) (cells : ι → Prop) (rank : ι → ℕ)
    (label : ι → F) : Prop :=
  ∀ c, cells c → start c (label c) ∨
    ∃ b w, cells b ∧ edge b c w ∧ rank b < rank c ∧ label c = label b + w

variable {start : ι → F → Prop} {edge : ι → ι → F → Prop} {cells : ι → Prop} {rank : ι → ℕ}
  {label : ι → F}

theorem Tight.walk (h : Tight start edge cells rank label) {c : ι} (hc : cells c) :
    Walk start edge c (label c) := by
  induction hrank : rank c using Nat.strong_induction_on generalizing c with
  | _ r ih =>
    rcases h c hc with hstart | ⟨b, w, hb, hedge, hlt, hlabel⟩
    · exact .start hstart
    · rw [hlabel]
      exact .step (ih (rank b) (hrank ▸ hlt) hb rfl) hedge

end Walk

section Best

variable [AddCommMonoid F] [PartialOrder F] [IsOrderedAddMonoid F]
variable {start : ι → F → Prop} {edge : ι → ι → F → Prop} {cells : ι → Prop} {rank : ι → ℕ}
  {label : ι → F}

theorem Walk.label_le (hstart : ∀ c x, start c x → label c ≤ x)
    (hedge : ∀ b c w, edge b c w → label c ≤ label b + w) {c : ι} {x : F}
    (h : Walk start edge c x) : label c ≤ x := by
  induction h with
  | start h => exact hstart _ _ h
  | step _ hbc ih => exact (hedge _ _ _ hbc).trans (add_le_add_left ih _)

theorem isLeast_walk (htight : Tight start edge cells rank label)
    (hstart : ∀ c x, start c x → label c ≤ x)
    (hedge : ∀ b c w, edge b c w → label c ≤ label b + w) {c : ι} (hc : cells c) :
    IsLeast {x | Walk start edge c x} (label c) :=
  ⟨htight.walk hc, fun _ h => h.label_le hstart hedge⟩

/-- Greatest weights are least ones in the dual order. -/
theorem isGreatest_walk (htight : Tight start edge cells rank label)
    (hstart : ∀ c x, start c x → x ≤ label c)
    (hedge : ∀ b c w, edge b c w → label b + w ≤ label c) {c : ι} (hc : cells c) :
    IsGreatest {x | Walk start edge c x} (label c) :=
  ⟨htight.walk hc, fun _ (h : Walk start edge c _) => Walk.label_le (F := Fᵒᵈ) hstart hedge h⟩

end Best

end BestWalk
