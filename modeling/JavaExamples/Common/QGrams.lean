import Mathlib.Algebra.BigOperators.Group.Finset.Basic
import Mathlib.Algebra.Order.Sub.Basic
import Mathlib.Data.Finset.Dedup
import Mathlib.Data.Multiset.OrderedMonoid
import JavaExamples.Common.EditDistance

/-!
# q-grams

How much the parts of length `q` of two words differ, and what that says about their edit distance.

* `difference A B`: how many elements one multiset has that the other one has not.
* `qGrams q l`: the parts of length `q` of a word.
* `sublist_qGrams`: what is put together keeps the parts of both sides.
* `difference_qGrams_le`: an edit inside a word changes at most `2 * q` of them.
-/

namespace QGrams

open EditDistance

section Difference

variable {β : Type*} [DecidableEq β]

/-- How many elements are in one of two multisets only. -/
def difference (A B : Multiset β) : ℕ := (A - B).card + (B - A).card

variable {A B C : Multiset β}

theorem difference_comm (A B : Multiset β) : difference A B = difference B A := Nat.add_comm _ _

theorem difference_triangle (A B C : Multiset β) :
    difference A C ≤ difference A B + difference B C := by
  have hAC : (A - C).card ≤ (A - B).card + (B - C).card := by
    rw [← Multiset.card_add]
    exact Multiset.card_le_card tsub_le_tsub_add_tsub
  have hCA : (C - A).card ≤ (C - B).card + (B - A).card := by
    rw [← Multiset.card_add]
    exact Multiset.card_le_card tsub_le_tsub_add_tsub
  rw [difference, difference, difference]
  omega

theorem difference_eq_zero_iff : difference A B = 0 ↔ A = B := by
  rw [difference, Nat.add_eq_zero_iff, Multiset.card_eq_zero, Multiset.card_eq_zero,
    tsub_eq_zero_iff_le, tsub_eq_zero_iff_le]
  exact ⟨fun h => le_antisymm h.1 h.2, fun h => ⟨h.le, h.ge⟩⟩

theorem difference_le_card (A B : Multiset β) : difference A B ≤ A.card + B.card :=
  Nat.add_le_add (Multiset.card_le_card tsub_le_self) (Multiset.card_le_card tsub_le_self)

/-- What both have does not matter. -/
theorem difference_le_of_le (hA : C ≤ A) (hB : C ≤ B) :
    difference A B ≤ (A.card - C.card) + (B.card - C.card) := by
  rw [← Multiset.card_sub hA, ← Multiset.card_sub hB]
  exact Nat.add_le_add (Multiset.card_le_card (tsub_le_tsub_left hB A))
    (Multiset.card_le_card (tsub_le_tsub_left hA B))

/-- Elements that are left out on both sides make no difference. -/
theorem difference_filter_le (p : β → Prop) [DecidablePred p] (A B : Multiset β) :
    difference (A.filter p) (B.filter p) ≤ difference A B := by
  rw [difference, difference, ← Multiset.filter_sub, ← Multiset.filter_sub]
  exact Nat.add_le_add (Multiset.card_le_card (Multiset.filter_le _ _))
    (Multiset.card_le_card (Multiset.filter_le _ _))

/-- The difference, counted element by element. -/
theorem sum_eq_difference {S : Finset β} (hA : ∀ a ∈ A, a ∈ S) (hB : ∀ b ∈ B, b ∈ S) :
    ∑ a ∈ S, ((A.count a - B.count a) + (B.count a - A.count a)) = difference A B := by
  simp only [← Multiset.count_sub]
  rw [Finset.sum_add_distrib, Multiset.sum_count_eq_card, Multiset.sum_count_eq_card, difference]
  · exact fun a ha => hB a (Multiset.mem_of_le tsub_le_self ha)
  · exact fun a ha => hA a (Multiset.mem_of_le tsub_le_self ha)

end Difference

section QGrams

variable {α : Type*} {q : ℕ} {u v x y : List α}

/-- The parts of length `q`. -/
def qGrams (q : ℕ) (l : List α) : List (List α) :=
  (List.range (l.length - (q - 1))).map fun i => (l.drop i).take q

theorem length_qGrams (l : List α) : (qGrams q l).length = l.length - (q - 1) := by
  rw [qGrams, List.length_map, List.length_range]

theorem qGrams_of_lt {l : List α} (h : l.length ≤ q - 1) : qGrams q l = [] := by
  rw [← List.length_eq_zero_iff, length_qGrams, Nat.sub_eq_zero_of_le h]

theorem qGrams_cons (a : α) {l : List α} (h : q - 1 ≤ l.length) :
    qGrams q (a :: l) = (a :: l).take q :: qGrams q l := by
  rw [qGrams, List.length_cons, Nat.sub_add_comm h, List.range_succ_eq_map, List.map_cons,
    List.map_map]
  rfl

theorem qGrams_sublist_cons (a : α) (l : List α) : (qGrams q l).Sublist (qGrams q (a :: l)) := by
  rcases le_or_gt (q - 1) l.length with h | h
  · rw [qGrams_cons a h]
    exact List.sublist_cons_self _ _
  · rw [qGrams_of_lt h.le]
    exact List.nil_sublist _

/-- What is put together keeps the parts of both sides. -/
theorem sublist_qGrams (u v : List α) :
    (qGrams q u ++ qGrams q v).Sublist (qGrams q (u ++ v)) := by
  induction u with
  | nil => simp [qGrams_of_lt (q := q) (l := ([] : List α)) (Nat.zero_le _)]
  | cons a u ih =>
    rcases le_or_gt (q - 1) u.length with h | h
    -- the first part of `u` ends before `v` begins
    · have htake : ((a :: u) ++ v).take q = (a :: u).take q :=
        List.take_append_of_le_length (by simp only [List.length_cons]; omega)
      have happend : q - 1 ≤ (u ++ v).length := by
        rw [List.length_append]
        omega
      rw [qGrams_cons a h, List.cons_append, ← htake, List.cons_append, qGrams_cons a happend]
      exact ih.cons_cons _
    · rw [qGrams_of_lt (l := a :: u) (by simp only [List.length_cons]; omega), List.nil_append]
      exact ((List.sublist_append_right _ _).trans ih).trans (qGrams_sublist_cons a _)

theorem sublist_qGrams_middle (u x v : List α) :
    (qGrams q u ++ qGrams q v).Sublist (qGrams q (u ++ x ++ v)) := by
  rw [List.append_assoc]
  refine List.Sublist.trans ?_ (sublist_qGrams u (x ++ v))
  exact ((List.sublist_append_right _ _).trans (sublist_qGrams x v)).append_left _

variable [DecidableEq α]

/-- Two words that differ in the middle share the parts of both ends. -/
theorem difference_middle_le (hu : q - 1 ≤ u.length) (hv : q - 1 ≤ v.length) (x y : List α) :
    difference (qGrams q (u ++ x ++ v) : Multiset (List α)) (qGrams q (u ++ y ++ v)) ≤
      (x.length + (q - 1)) + (y.length + (q - 1)) := by
  have hle := difference_le_of_le
    (Multiset.coe_le.mpr (sublist_qGrams_middle (q := q) u x v).subperm)
    (Multiset.coe_le.mpr (sublist_qGrams_middle (q := q) u y v).subperm)
  refine hle.trans ?_
  simp only [Multiset.coe_card, List.length_append, length_qGrams]
  omega

/-- An edit inside a word that is padded on both sides. -/
theorem Edit.difference_le {pad pad' : List α} (hpad : q - 1 ≤ pad.length)
    (hpad' : q - 1 ≤ pad'.length) (h : Edit x y) :
    difference (qGrams q (pad ++ x ++ pad') : Multiset (List α)) (qGrams q (pad ++ y ++ pad')) ≤
      2 + 2 * (q - 1) := by
  -- all three edits put one letter at most in the place of one
  have hmiddle : ∀ u v a b : List α, a.length ≤ 1 → b.length ≤ 1 →
      difference (qGrams q (pad ++ (u ++ a ++ v) ++ pad') : Multiset (List α))
        (qGrams q (pad ++ (u ++ b ++ v) ++ pad')) ≤ 2 + 2 * (q - 1) := by
    intro u v a b ha hb
    have hle := difference_middle_le (q := q) (u := pad ++ u) (v := v ++ pad')
      (by rw [List.length_append]; omega) (by rw [List.length_append]; omega) a b
    simp only [List.append_assoc] at hle ⊢
    omega
  cases h with
  | delete u v a => simpa using hmiddle u v [a] [] le_rfl (Nat.zero_le _)
  | insert u v b => simpa using hmiddle u v [] [b] (Nat.zero_le _) le_rfl
  | replace u v a b => simpa using hmiddle u v [a] [b] le_rfl le_rfl

/-- So the parts bound the number of edits from below. -/
theorem Edits.difference_le {pad pad' : List α} (hpad : q - 1 ≤ pad.length)
    (hpad' : q - 1 ≤ pad'.length) {n : ℕ} (h : Edits n x y) :
    difference (qGrams q (pad ++ x ++ pad') : Multiset (List α)) (qGrams q (pad ++ y ++ pad')) ≤
      n * (2 + 2 * (q - 1)) := by
  induction h with
  | refl x => rw [difference_eq_zero_iff.mpr rfl]; exact Nat.zero_le _
  | @head n x y z hedit _ ih =>
    have htriangle := difference_triangle (qGrams q (pad ++ x ++ pad') : Multiset (List α))
      (qGrams q (pad ++ y ++ pad')) (qGrams q (pad ++ z ++ pad'))
    have hfirst := Edit.difference_le hpad hpad' hedit
    rw [Nat.succ_mul]
    omega

end QGrams

end QGrams
