import Mathlib.Algebra.Group.Nat.Defs
import Mathlib.Data.List.Nodup
import Mathlib.Data.List.Pairwise
import Mathlib.Data.List.Perm.Basic
import Mathlib.Data.Set.Function
import Mathlib.Logic.Function.Basic
import Mathlib.Order.Interval.Set.Basic

/-!
# Numbered rows

A table whose new rows get their ids from a counter. An id is given out first and its row is saved
later; in between and after that it is held by those who work with it.

* `AtomicInteger.value`: the value of a Java counter after so many increments.
* `Numbered`: the counter, the rows, and the ids given out.
* `Numbered.Change`: what one step may do to them.
* `WellNumbered.change`: as long as the counter gives out different ids, no id is held twice, and
  one that has not been saved yet has no row.
-/

namespace AtomicInteger

/-- The value after `n` times `incrementAndGet`, from 0; an `int` wraps around. -/
def value (n : ℕ) : ℤ := (n : ℤ).bmod (2 ^ 32)

theorem bmod_natCast_eq_iff {a b m : ℕ} : (a : ℤ).bmod m = (b : ℤ).bmod m ↔ a % m = b % m := by
  constructor
  · intro h
    have hmod : (a : ℤ) % m = (b : ℤ) % m := by
      rw [← Int.bmod_emod, h, Int.bmod_emod]
    exact_mod_cast hmod
  · intro h
    have hmod : (a : ℤ) % m = (b : ℤ) % m := by exact_mod_cast h
    rw [Int.bmod_eq_emod, Int.bmod_eq_emod (b : ℤ), hmod]

/-- Two values are the same if the numbers of increments are up to multiples of `2 ^ 32`. -/
theorem value_eq_iff {a b : ℕ} : value a = value b ↔ a % 2 ^ 32 = b % 2 ^ 32 :=
  bmod_natCast_eq_iff

end AtomicInteger

/-- A table with ids in `ι` and rows in `ρ`: the number of ids given out, the rows, the ids in
somebody's hands, and those of them whose row has not been saved. -/
structure Numbered (ι ρ : Type) where
  sequence : ℕ
  rows : ι → Option ρ
  held : List ι
  unsaved : List ι

namespace Numbered

variable {ι ρ : Type}

/-- With the numbers up to `bound`: ids not given out have no row, those given out are held once,
and have no row until it is saved. -/
structure WellNumbered (id : ℕ → ι) (bound : ℕ) (s : Numbered ι ρ) : Prop where
  fresh : ∀ k, s.sequence < k → k ≤ bound → s.rows (id k) = none
  nodup : s.held.Nodup
  issued : ∀ x ∈ s.held, ∃ k ∈ Set.Ioc 0 s.sequence, id k = x
  unsaved_nodup : s.unsaved.Nodup
  unsaved_subset : ∀ x ∈ s.unsaved, x ∈ s.held
  unsaved_none : ∀ x ∈ s.unsaved, s.rows x = none

variable {id : ℕ → ι} {bound : ℕ} {s s' : Numbered ι ρ}

/-- Nothing has been given out, and no row has an id that will be. -/
theorem WellNumbered.empty {rows : ι → Option ρ}
    (h : ∀ k ∈ Set.Ioc 0 bound, rows (id k) = none) :
    WellNumbered id bound { sequence := 0, rows, held := [], unsaved := [] } where
  fresh k hk hkb := h k ⟨hk, hkb⟩
  nodup := List.nodup_nil
  issued := nofun
  unsaved_nodup := List.nodup_nil
  unsaved_subset := nofun
  unsaved_none := nofun

/-- The id given out next is not in anybody's hands. -/
theorem WellNumbered.not_mem_held (hid : Set.InjOn id (Set.Ioc 0 bound))
    (h : WellNumbered id bound s)
    (hbound : s.sequence + 1 ≤ bound) : id (s.sequence + 1) ∉ s.held := by
  intro hmem
  obtain ⟨k, ⟨hk0, hk⟩, hkid⟩ := h.issued _ hmem
  have heq := hid ⟨hk0, by omega⟩ ⟨Nat.succ_pos _, hbound⟩ hkid
  omega

/-- An id in somebody's hands was not given out after the counter's last step. -/
theorem WellNumbered.ne_of_mem_held (hid : Set.InjOn id (Set.Ioc 0 bound))
    (h : WellNumbered id bound s) {x : ι} (hx : x ∈ s.held) {k : ℕ} (hk : s.sequence < k)
    (hbound : k ≤ bound) : id k ≠ x := by
  obtain ⟨m, ⟨hm0, hm⟩, rfl⟩ := h.issued x hx
  intro heq
  have hkm := hid ⟨by omega, hbound⟩ ⟨hm0, by omega⟩ heq
  omega

/-- The next id is given out, the row of an id in hand is saved, or the row of a stored id is
replaced. -/
inductive Change [DecidableEq ι] (id : ℕ → ι) (s s' : Numbered ι ρ) : Prop where
  | next (hsequence : s'.sequence = s.sequence + 1) (hrows : s'.rows = s.rows)
      (hheld : s'.held.Perm (id (s.sequence + 1) :: s.held))
      (hunsaved : s'.unsaved.Perm (id (s.sequence + 1) :: s.unsaved))
  | save (x : ι) (row : ρ) (hsequence : s'.sequence = s.sequence)
      (hrows : s'.rows = Function.update s.rows x (some row))
      (hheld : s'.held.Perm s.held) (hunsaved : s.unsaved.Perm (x :: s'.unsaved))
  | replace (x : ι) (row : ρ) (hstored : s.rows x ≠ none) (hsequence : s'.sequence = s.sequence)
      (hrows : s'.rows = Function.update s.rows x (some row))
      (hheld : s'.held.Perm s.held) (hunsaved : s'.unsaved.Perm s.unsaved)
  | keep (hsequence : s'.sequence = s.sequence) (hrows : s'.rows = s.rows)
      (hheld : s'.held.Perm s.held) (hunsaved : s'.unsaved.Perm s.unsaved)

/-- Where no id is given out or saved, it is enough that no free id gets a row. -/
theorem WellNumbered.of_rows (h : WellNumbered id bound s) (hsequence : s'.sequence = s.sequence)
    (hheld : s'.held.Perm s.held) (hunsaved : s'.unsaved.Perm s.unsaved)
    (hrows : ∀ x, s.rows x = none → s'.rows x = none) : WellNumbered id bound s' where
  fresh k hk hkb := hrows _ (h.fresh k (hsequence ▸ hk) hkb)
  nodup := hheld.nodup_iff.mpr h.nodup
  issued x hx := hsequence ▸ h.issued x (hheld.mem_iff.mp hx)
  unsaved_nodup := hunsaved.nodup_iff.mpr h.unsaved_nodup
  unsaved_subset x hx := hheld.mem_iff.mpr (h.unsaved_subset x (hunsaved.mem_iff.mp hx))
  unsaved_none x hx := hrows x (h.unsaved_none x (hunsaved.mem_iff.mp hx))

/-- Every step keeps the table well numbered, up to the bound. -/
theorem WellNumbered.change [DecidableEq ι] (hid : Set.InjOn id (Set.Ioc 0 bound))
    (h : WellNumbered id bound s) (hchange : Change id s s') (hbound : s'.sequence ≤ bound) :
    WellNumbered id bound s' := by
  cases hchange with
  | next hsequence hrows hheld hunsaved =>
    -- the new id is in nobody's hands, and has no row as it is one of the fresh ones
    have hnot : id (s.sequence + 1) ∉ s.held := h.not_mem_held hid (hsequence ▸ hbound)
    have hissued : ∀ x ∈ id (s.sequence + 1) :: s.held,
        ∃ k ∈ Set.Ioc 0 (s.sequence + 1), id k = x := by
      intro x hx
      rcases List.mem_cons.mp hx with rfl | hx
      · exact ⟨s.sequence + 1, ⟨Nat.succ_pos _, le_rfl⟩, rfl⟩
      · obtain ⟨k, ⟨hk0, hk⟩, hkid⟩ := h.issued x hx
        exact ⟨k, ⟨hk0, by omega⟩, hkid⟩
    refine ⟨fun k hk hkb => ?_, ?_, fun x hx => ?_, ?_, fun x hx => ?_, fun x hx => ?_⟩
    · rw [hrows]
      exact h.fresh k (by omega) hkb
    · exact hheld.nodup_iff.mpr (List.nodup_cons.mpr ⟨hnot, h.nodup⟩)
    · rw [hsequence]
      exact hissued x (hheld.mem_iff.mp hx)
    · refine hunsaved.nodup_iff.mpr (List.nodup_cons.mpr ⟨fun hx => ?_, h.unsaved_nodup⟩)
      exact hnot (h.unsaved_subset _ hx)
    · refine hheld.mem_iff.mpr ?_
      rcases List.mem_cons.mp (hunsaved.mem_iff.mp hx) with rfl | hx
      · exact List.mem_cons_self
      · exact List.mem_cons_of_mem _ (h.unsaved_subset x hx)
    · rw [hrows]
      rcases List.mem_cons.mp (hunsaved.mem_iff.mp hx) with rfl | hx
      · exact h.fresh _ (Nat.lt_succ_self _) (hsequence ▸ hbound)
      · exact h.unsaved_none x hx
  | save x row hsequence hrows hheld hunsaved =>
    have hnodup : (x :: s'.unsaved).Nodup := hunsaved.nodup_iff.mp h.unsaved_nodup
    have hmem : ∀ y ∈ s'.unsaved, y ∈ s.unsaved := fun y hy =>
      hunsaved.mem_iff.mpr (List.mem_cons_of_mem x hy)
    have hx : x ∈ s.held := h.unsaved_subset x (hunsaved.mem_iff.mpr List.mem_cons_self)
    refine ⟨fun k hk hkb => ?_, hheld.nodup_iff.mpr h.nodup, fun y hy => ?_, hnodup.of_cons,
      fun y hy => hheld.mem_iff.mpr (h.unsaved_subset y (hmem y hy)), fun y hy => ?_⟩
    · -- the saved id was given out, so it is none of the fresh ones
      rw [hsequence] at hk
      rw [hrows, Function.update_of_ne (h.ne_of_mem_held hid hx hk hkb)]
      exact h.fresh k hk hkb
    · rw [hsequence]
      exact h.issued y (hheld.mem_iff.mp hy)
    -- no other id in hand is the saved one, as each is held once
    · have hne : y ≠ x := by
        rintro rfl
        exact (List.nodup_cons.mp hnodup).1 hy
      rw [hrows, Function.update_of_ne hne]
      exact h.unsaved_none y (hmem y hy)
  | replace x row hstored hsequence hrows hheld hunsaved =>
    refine h.of_rows hsequence hheld hunsaved fun y hy => ?_
    -- the replaced row was there, so that its id is not free
    have hne : y ≠ x := fun heq => hstored (heq ▸ hy)
    rwa [hrows, Function.update_of_ne hne]
  | keep hsequence hrows hheld hunsaved =>
    exact h.of_rows hsequence hheld hunsaved fun y hy => hrows ▸ hy

/-- A change leaves the ids in other hands alone. -/
theorem Change.frame [DecidableEq ι] {t t' : Numbered ι ρ} (h : Change id s s')
    (hsequence : t.sequence = s.sequence) (hsequence' : t'.sequence = s'.sequence)
    (hrows : t.rows = s.rows) (hrows' : t'.rows = s'.rows) {held unsaved : List ι}
    (hheld : t.held.Perm (s.held ++ held)) (hheld' : t'.held.Perm (s'.held ++ held))
    (hunsaved : t.unsaved.Perm (s.unsaved ++ unsaved))
    (hunsaved' : t'.unsaved.Perm (s'.unsaved ++ unsaved)) : Change id t t' := by
  -- the ids in other hands stand behind those of the step, before and after it
  cases h with
  | next hseq hrow hh hu =>
    refine .next (by rw [hsequence', hseq, hsequence]) (by rw [hrows', hrow, hrows]) ?_ ?_
    · rw [hsequence]
      exact hheld'.trans ((hh.append_right held).trans (hheld.symm.cons _))
    · rw [hsequence]
      exact hunsaved'.trans ((hu.append_right unsaved).trans (hunsaved.symm.cons _))
  | save x row hseq hrow hh hu =>
    refine .save x row (by rw [hsequence', hseq, hsequence]) (by rw [hrows', hrow, hrows]) ?_ ?_
    · exact hheld'.trans ((hh.append_right held).trans hheld.symm)
    · exact hunsaved.trans ((hu.append_right unsaved).trans (hunsaved'.symm.cons _))
  | replace x row hstored hseq hrow hh hu =>
    refine .replace x row (hrows ▸ hstored) (by rw [hsequence', hseq, hsequence])
      (by rw [hrows', hrow, hrows]) ?_ ?_
    · exact hheld'.trans ((hh.append_right held).trans hheld.symm)
    · exact hunsaved'.trans ((hu.append_right unsaved).trans hunsaved.symm)
  | keep hseq hrow hh hu =>
    refine .keep (by rw [hsequence', hseq, hsequence]) (by rw [hrows', hrow, hrows]) ?_ ?_
    · exact hheld'.trans ((hh.append_right held).trans hheld.symm)
    · exact hunsaved'.trans ((hu.append_right unsaved).trans hunsaved.symm)

theorem Change.sequence_le [DecidableEq ι] (h : Change id s s') : s.sequence ≤ s'.sequence := by
  cases h with
  | next hsequence => exact hsequence ▸ Nat.le_succ _
  | save _ _ hsequence => exact hsequence.ge
  | replace _ _ _ hsequence => exact hsequence.ge
  | keep hsequence => exact hsequence.ge

/-- A row that is stored stays stored. -/
theorem Change.rows_ne_none [DecidableEq ι] (h : Change id s s') {x : ι} (hx : s.rows x ≠ none) :
    s'.rows x ≠ none := by
  have hupdate : ∀ y row, Function.update s.rows y (some row) x ≠ none := by
    intro y row
    by_cases hxy : x = y
    · rw [hxy, Function.update_self]
      simp
    · rwa [Function.update_of_ne hxy]
  cases h with
  | next hseq hrow => rwa [hrow]
  | save y row hseq hrow =>
    rw [hrow]
    exact hupdate y row
  | replace y row hstored hseq hrow =>
    rw [hrow]
    exact hupdate y row
  | keep hseq hrow => rwa [hrow]

/-- Ids that are held once are in the hands of one element. -/
theorem eq_of_nodup_flatMap {α β : Type} {l : List α} {f : α → List β} (h : (l.flatMap f).Nodup)
    {a b : α} {x : β} (ha : a ∈ l) (hb : b ∈ l) (hxa : x ∈ f a) (hxb : x ∈ f b) : a = b := by
  have hdisjoint : l.Pairwise fun a b => ∀ x, x ∈ f a → x ∉ f b :=
    (List.nodup_flatMap.mp h).2.imp fun hab x hxa hxb => hab hxa hxb
  have hsymm : Std.Symm fun a b => ∀ x, x ∈ f a → x ∉ f b :=
    ⟨fun _ _ hab x hxb hxa => hab x hxa hxb⟩
  -- two different elements would hold different ids
  by_contra hne
  exact hdisjoint.forall ha hb hne x hxa hxb

/-- Ids in the hands of the elements of a list, when one element is replaced. -/
theorem exists_flatMap_set_perm {α β : Type} {l : List α} {i : ℕ} {a : α} (h : l[i]? = some a)
    (f : α → List β) :
    ∃ rest, (l.flatMap f).Perm (f a ++ rest) ∧
      ∀ a', ((l.set i a').flatMap f).Perm (f a' ++ rest) := by
  obtain ⟨hi, rfl⟩ := List.getElem?_eq_some_iff.mp h
  refine ⟨(l.eraseIdx i).flatMap f, ?_, fun a' => ?_⟩
  · exact (List.getElem_cons_eraseIdx_perm hi).symm.flatMap_right f
  · exact (List.set_perm_cons_eraseIdx hi a').flatMap_right f

/-! ## Counting who holds something -/

section Counting

variable {α β : Type} {l : List α} {p : α → Bool}

/-- Where one element at most is counted, there is only one. -/
theorem eq_of_countP_le_one (h : l.countP p ≤ 1) {a b : α} (ha : a ∈ l) (hb : b ∈ l)
    (hpa : p a = true) (hpb : p b = true) : a = b := by
  rw [List.countP_eq_length_filter] at h
  have ha' : a ∈ l.filter p := List.mem_filter.mpr ⟨ha, hpa⟩
  have hb' : b ∈ l.filter p := List.mem_filter.mpr ⟨hb, hpb⟩
  obtain ⟨c, hc⟩ := List.length_eq_one_iff.mp (h.antisymm (List.length_pos_of_mem ha'))
  rw [hc, List.mem_singleton] at ha' hb'
  rw [ha', hb']

/-- Where more than one is counted, there are two, one before the other. -/
theorem exists_pair_of_one_lt_countP (h : 1 < l.countP p) :
    ∃ a b, [a, b].Sublist l ∧ p a = true ∧ p b = true := by
  rw [List.countP_eq_length_filter] at h
  match hl : l.filter p, h with
  | a :: b :: rest, _ =>
    have hpair : [a, b].Sublist (l.filter p) := by
      rw [hl]
      exact ((List.nil_sublist rest).cons_cons b).cons_cons a
    have hp : ∀ x ∈ [a, b], p x = true := fun x hx => List.of_mem_filter (hpair.subset hx)
    exact ⟨a, b, hpair.trans List.filter_sublist, hp a (by simp), hp b (by simp)⟩

/-- Ids that are held once are not in the hands of two elements. -/
theorem notMem_of_nodup_flatMap {f : α → List β} (h : (l.flatMap f).Nodup) {a b : α}
    (hab : [a, b].Sublist l) {x : β} (hxa : x ∈ f a) : x ∉ f b := by
  obtain ⟨-, hdisjoint⟩ := List.nodup_flatMap.mp h
  have hpair := List.pairwise_pair.mp (hdisjoint.sublist hab)
  exact fun hxb => hpair hxa hxb

/-- One element is replaced: the others are counted as before. -/
theorem exists_countP_set {i : ℕ} {a : α} (h : l[i]? = some a) (p : α → Bool) :
    ∃ others, l.countP p = others + (if p a then 1 else 0) ∧
      ∀ a', (l.set i a').countP p = others + if p a' then 1 else 0 := by
  obtain ⟨hi, rfl⟩ := List.getElem?_eq_some_iff.mp h
  refine ⟨(l.eraseIdx i).countP p, ?_, fun a' => ?_⟩
  · rw [← (List.getElem_cons_eraseIdx_perm hi).countP_eq p, List.countP_cons]
  · rw [(List.set_perm_cons_eraseIdx hi a').countP_eq p, List.countP_cons]

end Counting

end Numbered
