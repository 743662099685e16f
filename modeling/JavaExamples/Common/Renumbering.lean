import Mathlib.Logic.Function.Basic
import Mathlib.Tactic.Common

/-!
# Rows numbered by a counter that starts again

A table that outlives the counter its ids come from: the counter may go back to 0 at any time, the
rows stay. One row is worked on at a time.

* `Renumbered`: the counter, the rows, the id in hand, and the numbers under which rows were saved.
* `Renumbered.Change`: what one step may do to them.
* `Change.freshHeld_iff`: a step gives out an id that no row has exactly if its number is a new one.
-/

/-- A table with ids in `ι` and rows in `ρ`: the number of ids the counter has given out since its
last start, the rows, the ids given out whose row has not been saved yet, and the numbers of all
rows saved so far. -/
structure Renumbered (ι ρ : Type) where
  sequence : ℕ
  rows : ι → Option ρ
  unsaved : List ι
  saved : List ℕ

namespace Renumbered

variable {ι ρ : Type} {id : ℕ → ι} {initial : ι → Option ρ} {s s' : Renumbered ι ρ}

/-- No row has the id in hand. -/
def FreshHeld (s : Renumbered ι ρ) : Prop := ∀ x ∈ s.unsaved, s.rows x = none

/-- The number given out next has not been the number of a row, and its id was not stored at
first. -/
def NewNumber (id : ℕ → ι) (initial : ι → Option ρ) (s : Renumbered ι ρ) : Prop :=
  initial (id (s.sequence + 1)) = none ∧ ∀ m ∈ s.saved, id m ≠ id (s.sequence + 1)

/-- The stored ids are the first ones and those of the saved numbers; the id in hand is the last one
given out. -/
structure Traced (id : ℕ → ι) (initial : ι → Option ρ) (s : Renumbered ι ρ) : Prop where
  stored : ∀ x, s.rows x = none ↔ initial x = none ∧ ∀ m ∈ s.saved, id m ≠ x
  unsaved : ∀ x ∈ s.unsaved, x = id s.sequence

/-- The counter starts again, the next id is given out, the row of the id in hand is saved, or
nothing happens to the table. -/
inductive Change [DecidableEq ι] (id : ℕ → ι) (s s' : Renumbered ι ρ) : Prop where
  | restart (hsequence : s'.sequence = 0) (hrows : s'.rows = s.rows) (hunsaved : s'.unsaved = [])
      (hsaved : s'.saved = s.saved)
  | next (hsequence : s'.sequence = s.sequence + 1) (hrows : s'.rows = s.rows)
      (hunsaved : s'.unsaved = [id (s.sequence + 1)]) (hsaved : s'.saved = s.saved)
  | save (x : ι) (row : ρ) (hx : x ∈ s.unsaved) (hsequence : s'.sequence = s.sequence)
      (hrows : s'.rows = Function.update s.rows x (some row)) (hunsaved : s'.unsaved = [])
      (hsaved : s'.saved = s.sequence :: s.saved)
  | keep (hsequence : s'.sequence = s.sequence) (hrows : s'.rows = s.rows)
      (hunsaved : ∀ x ∈ s'.unsaved, x ∈ s.unsaved) (hsaved : s'.saved = s.saved)

theorem Traced.start (initial : ι → Option ρ) :
    Traced id initial { sequence := 0, rows := initial, unsaved := [], saved := [] } where
  stored x := by simp
  unsaved := nofun

theorem Traced.change [DecidableEq ι] (h : Traced id initial s) (hchange : Change id s s') :
    Traced id initial s' := by
  cases hchange with
  | restart hsequence hrows hunsaved hsaved =>
    refine ⟨fun x => ?_, fun x hx => ?_⟩
    · rw [hrows, hsaved]
      exact h.stored x
    · rw [hunsaved] at hx
      cases hx
  | next hsequence hrows hunsaved hsaved =>
    refine ⟨fun x => ?_, fun x hx => ?_⟩
    · rw [hrows, hsaved]
      exact h.stored x
    · rw [hunsaved] at hx
      rw [hsequence]
      exact List.mem_singleton.mp hx
  | save x row hx hsequence hrows hunsaved hsaved =>
    refine ⟨fun y => ?_, fun y hy => ?_⟩
    · -- the saved row is the one of the last number
      obtain rfl := h.unsaved x hx
      rw [hrows, hsaved, List.forall_mem_cons]
      by_cases hy : y = id s.sequence
      · subst hy
        rw [Function.update_self]
        simp
      · rw [Function.update_of_ne hy, h.stored y]
        exact and_congr_right fun _ => (and_iff_right (Ne.symm hy)).symm
    · rw [hunsaved] at hy
      cases hy
  | keep hsequence hrows hunsaved hsaved =>
    refine ⟨fun x => ?_, fun x hx => ?_⟩
    · rw [hrows, hsaved]
      exact h.stored x
    · rw [hsequence]
      exact h.unsaved x (hunsaved x hx)

/-- After a step no row has the id in hand, exactly if the step gives out a new number or none. -/
theorem Change.freshHeld_iff [DecidableEq ι] (h : Change id s s') (hs : Traced id initial s)
    (hfresh : FreshHeld s) :
    FreshHeld s' ↔ (s'.sequence = s.sequence + 1 → NewNumber id initial s) := by
  cases h with
  | restart hsequence hrows hunsaved hsaved =>
    refine iff_of_true (fun x hx => ?_) fun h => absurd (hsequence.symm.trans h) (by omega)
    rw [hunsaved] at hx
    cases hx
  | next hsequence hrows hunsaved hsaved =>
    -- the id in hand is the new one alone
    have hheld : FreshHeld s' ↔ s.rows (id (s.sequence + 1)) = none := by
      rw [FreshHeld, hunsaved, hrows, List.forall_mem_singleton]
    rw [hheld, hs.stored]
    exact ⟨fun h _ => h, fun h => h hsequence⟩
  | save x row hx hsequence hrows hunsaved hsaved =>
    refine iff_of_true (fun y hy => ?_) fun h => absurd (hsequence.symm.trans h) (by omega)
    rw [hunsaved] at hy
    cases hy
  | keep hsequence hrows hunsaved hsaved =>
    refine iff_of_true (fun x hx => ?_) fun h => absurd (hsequence.symm.trans h) (by omega)
    rw [hrows]
    exact hfresh x (hunsaved x hx)

end Renumbered
