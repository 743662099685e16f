import Mathlib.Data.Finset.Card
import JavaExamples.Common.Program

/-!
# Deleting rows by their keys

Programs on a table, known by the set of its keys, that are to delete the rows with given keys.

* `deleteAll keys` — the statement that deletes every row with one of the keys and counts them.
* `Deletable keys table` — the keys are distinct, and the table has a row for each.
* `DeletesExactly keys prog` — `prog` deletes the rows with these keys if they are deletable, and
  throws otherwise.

`DeletesExactly.check` is for a statement that checks its count; `DeletesExactly.bind` and
`DeletesExactly.forM` put such programs together, and the keys of each next one are looked for in
what the ones before have left.
-/

namespace KeyDeletion

open Program

variable {κ ε α : Type} [DecidableEq κ] {xs ys keys : List κ} {table : Finset κ}

/-- Deletes the rows with these keys, and returns how many there have been. -/
def deleteAll (keys : List κ) : Program (Finset κ) ε ℕ :=
  step fun table => ((table ∩ keys.toFinset).card, table \ keys.toFinset)

def Deletable (keys : List κ) (table : Finset κ) : Prop := keys.Nodup ∧ ∀ key ∈ keys, key ∈ table

theorem deletable_iff_subset : Deletable keys table ↔ keys.Nodup ∧ keys.toFinset ⊆ table := by
  simp [Deletable, Finset.subset_iff]

/-- A key that is repeated or not there makes the count fall short. -/
theorem card_inter_eq_length_iff :
    (table ∩ keys.toFinset).card = keys.length ↔ Deletable keys table := by
  rw [deletable_iff_subset]
  have hinter : (table ∩ keys.toFinset).card ≤ keys.toFinset.card :=
    Finset.card_le_card Finset.inter_subset_right
  constructor
  · intro hcount
    have hdistinct : keys.toFinset.card = keys.length :=
      le_antisymm (List.toFinset_card_le keys) (hcount.symm.le.trans hinter)
    refine ⟨Multiset.coe_nodup.mp (Multiset.toFinset_card_eq_card_iff_nodup.mp hdistinct), ?_⟩
    rw [← Finset.inter_eq_right]
    exact Finset.eq_of_subset_of_card_le Finset.inter_subset_right (by omega)
  · rintro ⟨hnodup, hsubset⟩
    rw [Finset.inter_eq_right.mpr hsubset]
    exact List.toFinset_card_of_nodup hnodup

/-- The second keys must be there when the first ones are gone. -/
theorem deletable_append :
    Deletable (xs ++ ys) table ↔ Deletable xs table ∧ Deletable ys (table \ xs.toFinset) := by
  simp only [Deletable, List.nodup_append, List.mem_append, Finset.mem_sdiff, List.mem_toFinset]
  constructor
  · rintro ⟨⟨hxs, hys, hdisjoint⟩, hmem⟩
    refine ⟨⟨hxs, fun key hkey => hmem key (Or.inl hkey)⟩, hys, fun key hkey => ?_⟩
    exact ⟨hmem key (Or.inr hkey), fun hkey' => hdisjoint key hkey' key hkey rfl⟩
  · rintro ⟨⟨hxs, hmem⟩, hys, hmem'⟩
    refine ⟨⟨hxs, hys, ?_⟩, ?_⟩
    · rintro key hkey other hother rfl
      exact (hmem' key hother).2 hkey
    · rintro key (hkey | hkey)
      · exact hmem key hkey
      · exact (hmem' key hkey).1

/-- `prog` deletes the rows with these keys, or throws if it cannot. -/
structure DeletesExactly (keys : List κ) (prog : Program (Finset κ) ε Unit) : Prop where
  returns : ∀ table, Deletable keys table → Returns prog table () (table \ keys.toFinset)
  throws : ∀ table, ¬Deletable keys table → ∃ e table', Throws prog table e table'

namespace DeletesExactly

variable {prog next : Program (Finset κ) ε Unit}

theorem pure : DeletesExactly ([] : List κ) (Pure.pure () : Program (Finset κ) ε Unit) where
  returns table _ := by
    rw [List.toFinset_nil, Finset.sdiff_empty]
    exact Returns.pure () table
  throws table hnot := absurd ⟨List.nodup_nil, by simp⟩ hnot

theorem bind (hprog : DeletesExactly xs prog) (hnext : DeletesExactly ys next) :
    DeletesExactly (xs ++ ys) (prog >>= fun _ => next) where
  returns table hdeletable := by
    obtain ⟨hxs, hys⟩ := deletable_append.mp hdeletable
    rw [List.toFinset_append, ← Finset.sup_eq_union, ← sdiff_sdiff_left]
    exact (hprog.returns table hxs).bind (hnext.returns _ hys)
  throws table hnot := by
    rw [deletable_append, not_and] at hnot
    by_cases hxs : Deletable xs table
    · obtain ⟨e, table', hthrows⟩ := hnext.throws _ (hnot hxs)
      exact ⟨e, table', (hprog.returns table hxs).bind_throws hthrows⟩
    · obtain ⟨e, table', hthrows⟩ := hprog.throws table hxs
      exact ⟨e, table', hthrows.bind _⟩

theorem forM {keys : α → List κ} {prog : α → Program (Finset κ) ε Unit}
    (hprog : ∀ x, DeletesExactly (keys x) (prog x)) (xs : List α) :
    DeletesExactly (xs.flatMap keys) (forM xs prog) := by
  induction xs with
  | nil => exact pure
  | cons x xs ih =>
    rw [List.flatMap_cons, List.forM_cons]
    exact (hprog x).bind ih

/-- The check of a count after the statement makes it delete exactly. -/
theorem check {check : ℕ → Program (Finset κ) ε Unit} (keys : List κ)
    (hcheck : check keys.length = Pure.pure ())
    (herror : ∀ count, count ≠ keys.length → ∃ e, check count = throw e) :
    DeletesExactly keys (deleteAll keys >>= check) where
  returns table hdeletable := by
    have hcount := card_inter_eq_length_iff.mpr hdeletable
    refine (Returns.step _ table).bind ?_
    rw [hcount, hcheck]
    exact Returns.pure () _
  throws table hnot := by
    obtain ⟨e, he⟩ := herror _ fun hcount => hnot (card_inter_eq_length_iff.mp hcount)
    have hthrows : Throws (check (table ∩ keys.toFinset).card) (table \ keys.toFinset) e
        (table \ keys.toFinset) := by
      rw [he]
      exact Throws.throw e _
    exact ⟨e, _, (Returns.step _ table).bind_throws hthrows⟩

/-- It succeeds on the tables on which it can. -/
theorem succeeds_iff (h : DeletesExactly keys prog) (table : Finset κ) :
    (∃ table', Returns prog table () table') ↔ Deletable keys table := by
  constructor
  · rintro ⟨table', hreturns⟩
    by_contra hnot
    obtain ⟨e, table'', hthrows⟩ := h.throws table hnot
    exact hthrows.not_returns hreturns
  · exact fun hdeletable => ⟨_, h.returns table hdeletable⟩

end DeletesExactly

end KeyDeletion
