import Mathlib.Data.List.Basic
import Mathlib.Order.Bounds.Basic
import Mathlib.Order.MinMax

/-!
# Edit distance

How many letters have to be deleted, inserted or replaced to turn one word into another.

* `Edit`, `Edits n`: one edit at any place of a word, and `n` of them one after the other.
* `Script x y n`: a way from `x` to `y` letter by letter, from left to right, at a price of `n`.
* `isLeast_edits`: the cheapest script has as many edits as the shortest sequence of edits.
* `isLeast_concat`: the recurrence for words that are one letter longer.
* `eq_zero_iff`, `symm`, `triangle`: the distance is a metric.
-/

namespace EditDistance

variable {α : Type*} {x y z u v : List α} {k l m n : ℕ}

/-- A letter is deleted, inserted or replaced. -/
inductive Edit : List α → List α → Prop where
  | delete (u v : List α) (a : α) : Edit (u ++ a :: v) (u ++ v)
  | insert (u v : List α) (b : α) : Edit (u ++ v) (u ++ b :: v)
  | replace (u v : List α) (a b : α) : Edit (u ++ a :: v) (u ++ b :: v)

/-- Edits one after the other. -/
inductive Edits : ℕ → List α → List α → Prop where
  | refl (x : List α) : Edits 0 x x
  | head {n : ℕ} {x y z : List α} (h : Edit x y) (hrest : Edits n y z) : Edits (n + 1) x z

theorem Edit.cons (a : α) (h : Edit x y) : Edit (a :: x) (a :: y) := by
  cases h with
  | delete u v b => exact .delete (a :: u) v b
  | insert u v b => exact .insert (a :: u) v b
  | replace u v b c => exact .replace (a :: u) v b c

theorem Edits.cons (a : α) (h : Edits n x y) : Edits n (a :: x) (a :: y) := by
  induction h with
  | refl x => exact .refl _
  | head hedit _ ih => exact .head (hedit.cons a) ih

section Script

variable [DecidableEq α]

/-- The price of a letter in the place of another one. -/
def price (a b : α) : ℕ := if a = b then 0 else 1

theorem price_self (a : α) : price a a = 0 := if_pos rfl

theorem price_comm (a b : α) : price a b = price b a := by simp only [price, eq_comm]

theorem price_le_one (a b : α) : price a b ≤ 1 := by
  rw [price]
  split <;> omega

theorem price_triangle (a b c : α) : price a c ≤ price a b + price b c := by
  by_cases hab : a = b
  · rw [hab]
    exact Nat.le_add_left _ _
  · have : price a b = 1 := if_neg hab
    exact this ▸ (price_le_one a c).trans (Nat.le_add_right _ _)

/-- Two words next to each other, letter by letter. -/
inductive Script : List α → List α → ℕ → Prop where
  | nil : Script [] [] 0
  | delete (a : α) {x y : List α} {n : ℕ} (h : Script x y n) : Script (a :: x) y (n + 1)
  | insert (b : α) {x y : List α} {n : ℕ} (h : Script x y n) : Script x (b :: y) (n + 1)
  | pair (a b : α) {x y : List α} {n : ℕ} (h : Script x y n) :
    Script (a :: x) (b :: y) (n + price a b)

namespace Script

theorem refl (x : List α) : Script x x 0 := by
  induction x with
  | nil => exact .nil
  | cons a x ih => simpa only [price_self] using ih.pair a a

theorem deletes (x : List α) : Script x [] x.length := by
  induction x with
  | nil => exact .nil
  | cons a x ih => exact ih.delete a

theorem symm (h : Script x y n) : Script y x n := by
  induction h with
  | nil => exact .nil
  | delete a _ ih => exact ih.insert a
  | insert b _ ih => exact ih.delete b
  | pair a b _ ih => exact price_comm a b ▸ ih.pair b a

theorem append (h : Script x y m) (h' : Script u v n) : Script (x ++ u) (y ++ v) (m + n) := by
  induction h with
  | nil => simpa using h'
  | delete a _ ih => exact Nat.add_right_comm _ _ _ ▸ ih.delete a
  | insert b _ ih => exact Nat.add_right_comm _ _ _ ▸ ih.insert b
  | pair a b _ ih => exact Nat.add_right_comm _ _ _ ▸ ih.pair a b

theorem concat_delete (h : Script x y n) (a : α) : Script (x ++ [a]) y (n + 1) := by
  simpa using h.append (Script.nil.delete a)

theorem concat_pair (h : Script x y n) (a b : α) :
    Script (x ++ [a]) (y ++ [b]) (n + price a b) := by
  simpa using h.append (Script.nil.pair a b)

theorem reverse (h : Script x y n) : Script x.reverse y.reverse n := by
  induction h with
  | nil => exact .nil
  | delete a _ ih => exact List.reverse_cons ▸ ih.concat_delete a
  | insert b _ ih => exact List.reverse_cons ▸ (ih.symm.concat_delete b).symm
  | pair a b _ ih =>
    rw [List.reverse_cons, List.reverse_cons]
    exact ih.concat_pair a b

/-- What becomes of the last letters. -/
theorem concat_cases {a b : α} (h : Script (x ++ [a]) (y ++ [b]) n) :
    (∃ k, n = k + 1 ∧ Script x (y ++ [b]) k) ∨ (∃ k, n = k + 1 ∧ Script (x ++ [a]) y k) ∨
      ∃ k, n = k + price a b ∧ Script x y k := by
  -- the last letters are the first ones of the reversed words
  have hreverse := h.reverse
  rw [List.reverse_append, List.reverse_append, List.reverse_singleton, List.reverse_singleton,
    List.singleton_append, List.singleton_append] at hreverse
  cases hreverse with
  | delete _ hrest => exact .inl ⟨_, rfl, by simpa using hrest.reverse⟩
  | insert _ hrest => exact .inr (.inl ⟨_, rfl, by simpa using hrest.reverse⟩)
  | pair _ _ hrest => exact .inr (.inr ⟨_, rfl, by simpa using hrest.reverse⟩)

/-- One script after the other costs no more than both. -/
theorem trans (h : Script x y m) (h' : Script y z n) : ∃ k ≤ m + n, Script x z k := by
  -- every step takes a letter off one of the words
  induction hlen : x.length + y.length + z.length using Nat.strong_induction_on
    generalizing x y z m n with
  | _ l ih =>
    subst hlen
    cases h with
    | nil => exact ⟨n, Nat.le_add_left _ _, h'⟩
    | delete a hrest =>
      obtain ⟨k, hk, hscript⟩ := ih _ (by simp) hrest h' rfl
      exact ⟨k + 1, by omega, hscript.delete a⟩
    | insert b hrest =>
      cases h' with
      | delete _ hrest' =>
        obtain ⟨k, hk, hscript⟩ := ih _ (by simp) hrest hrest' rfl
        exact ⟨k, by omega, hscript⟩
      | insert c hrest' =>
        obtain ⟨k, hk, hscript⟩ := ih _ (by simp) (hrest.insert b) hrest' rfl
        exact ⟨k + 1, by omega, hscript.insert c⟩
      | pair _ c hrest' =>
        obtain ⟨k, hk, hscript⟩ := ih _ (by simp; omega) hrest hrest' rfl
        exact ⟨k + 1, by omega, hscript.insert c⟩
    | pair a b hrest =>
      cases h' with
      | delete _ hrest' =>
        obtain ⟨k, hk, hscript⟩ := ih _ (by simp; omega) hrest hrest' rfl
        exact ⟨k + 1, by omega, hscript.delete a⟩
      | insert c hrest' =>
        obtain ⟨k, hk, hscript⟩ := ih _ (by simp) (hrest.pair a b) hrest' rfl
        exact ⟨k + 1, by omega, hscript.insert c⟩
      | pair _ c hrest' =>
        obtain ⟨k, hk, hscript⟩ := ih _ (by simp; omega) hrest hrest' rfl
        have htriangle := price_triangle a b c
        exact ⟨k + price a c, by omega, hscript.pair a c⟩

theorem eq_of_zero (h : Script x y 0) : x = y := by
  generalize hzero : 0 = n at h
  induction h with
  | nil => rfl
  | delete => cases hzero
  | insert => cases hzero
  | pair a b _ ih =>
    obtain ⟨hn, hprice⟩ := Nat.add_eq_zero_iff.mp hzero.symm
    have hab : a = b := by
      by_contra hne
      rw [price, if_neg hne] at hprice
      cases hprice
    rw [ih hn.symm, hab]

theorem length_le (h : Script x y n) : x.length ≤ y.length + n := by
  induction h with
  | nil => exact le_rfl
  | delete _ _ ih => simp only [List.length_cons]; omega
  | insert _ _ ih => simp only [List.length_cons]; omega
  | pair _ _ _ ih => simp only [List.length_cons]; omega

/-- Letters in the place of each other, and the rest deleted. -/
theorem exists_le (h : y.length ≤ x.length) : ∃ n ≤ x.length, Script x y n := by
  induction y generalizing x with
  | nil => exact ⟨_, le_rfl, deletes x⟩
  | cons b y ih =>
    obtain ⟨a, x, rfl⟩ := List.exists_cons_of_length_pos (Nat.lt_of_lt_of_le (Nat.succ_pos _) h)
    obtain ⟨n, hn, hscript⟩ := ih (Nat.le_of_succ_le_succ h)
    exact ⟨n + price a b, Nat.add_le_add hn (price_le_one a b), hscript.pair a b⟩

theorem exists_le_max (x y : List α) : ∃ n ≤ max x.length y.length, Script x y n := by
  rcases le_total y.length x.length with h | h
  · rw [max_eq_left h]
    exact exists_le h
  · rw [max_eq_right h]
    obtain ⟨n, hn, hscript⟩ := exists_le h
    exact ⟨n, hn, hscript.symm⟩

theorem edits (h : Script x y n) : Edits n x y := by
  -- a pair of the same letters is no edit
  induction h with
  | nil => exact .refl _
  | delete a _ ih => exact .head (.delete [] _ a) ih
  | @insert b x y n _ ih => exact .head (.insert [] x b) (ih.cons b)
  | @pair a b x y n _ ih =>
    rw [price]
    split
    · subst ‹a = b›
      exact ih.cons a
    · exact .head (.replace [] x a b) (ih.cons b)

end Script

theorem Edit.script (h : Edit x y) : ∃ n ≤ 1, Script x y n := by
  cases h with
  | delete u v a =>
    exact ⟨1, le_rfl, by simpa using (Script.refl u).append ((Script.refl v).delete a)⟩
  | insert u v b =>
    exact ⟨1, le_rfl, by simpa using (Script.refl u).append ((Script.refl v).insert b)⟩
  | replace u v a b =>
    exact ⟨price a b, price_le_one a b,
      by simpa using (Script.refl u).append ((Script.refl v).pair a b)⟩

theorem Edits.script (h : Edits n x y) : ∃ k ≤ n, Script x y k := by
  induction h with
  | refl x => exact ⟨0, le_rfl, .refl x⟩
  | head hedit _ ih =>
    obtain ⟨k, hk, hscript⟩ := hedit.script
    obtain ⟨l, hl, hrest⟩ := ih
    obtain ⟨m, hm, htrans⟩ := hscript.trans hrest
    exact ⟨m, by omega, htrans⟩

/-! ## The least price -/

/-- The least price of a script is the distance of two words. -/
def IsDistance (x y : List α) (d : ℕ) : Prop := IsLeast {n | Script x y n} d

namespace IsDistance

variable {d e f : ℕ}

theorem isLeast_edits (h : IsDistance x y d) : IsLeast {n | Edits n x y} d := by
  refine ⟨h.1.edits, fun n hn => ?_⟩
  obtain ⟨k, hk, hscript⟩ := Edits.script hn
  exact (h.2 hscript).trans hk

theorem nil_right (x : List α) : IsDistance x [] x.length :=
  ⟨.deletes x, fun n h => by simpa using Script.length_le h⟩

theorem symm (h : IsDistance x y d) : IsDistance y x d :=
  ⟨h.1.symm, fun _ hn => h.2 (Script.symm hn)⟩

theorem nil_left (y : List α) : IsDistance [] y y.length := (nil_right y).symm

theorem concat {a b : α} (hdelete : IsDistance x (y ++ [b]) d) (hinsert : IsDistance (x ++ [a]) y e)
    (hpair : IsDistance x y f) :
    IsDistance (x ++ [a]) (y ++ [b]) (min (d + 1) (min (e + 1) (f + price a b))) := by
  constructor
  · exact min_rec' (Script (x ++ [a]) (y ++ [b])) (hdelete.1.concat_delete a)
      (min_rec' _ (hinsert.1.symm.concat_delete b).symm (hpair.1.concat_pair a b))
  · intro n hn
    -- the script ends in one of three ways, each no cheaper than its minimum
    rcases Script.concat_cases hn with ⟨k, rfl, h⟩ | ⟨k, rfl, h⟩ | ⟨k, rfl, h⟩
    · have := hdelete.2 h
      omega
    · have := hinsert.2 h
      omega
    · have := hpair.2 h
      omega

theorem unique (h : IsDistance x y d) (h' : IsDistance x y e) : d = e := IsLeast.unique h h'

theorem eq_zero_iff (h : IsDistance x y d) : d = 0 ↔ x = y := by
  constructor
  · rintro rfl
    exact h.1.eq_of_zero
  · rintro rfl
    exact Nat.le_zero.mp (h.2 (Script.refl x))

theorem triangle (h : IsDistance x z f) (hxy : IsDistance x y d) (hyz : IsDistance y z e) :
    f ≤ d + e := by
  obtain ⟨k, hk, hscript⟩ := hxy.1.trans hyz.1
  exact (h.2 hscript).trans hk

theorem le_max (h : IsDistance x y d) : d ≤ max x.length y.length := by
  obtain ⟨n, hn, hscript⟩ := Script.exists_le_max x y
  exact (h.2 hscript).trans hn

end IsDistance

end Script

end EditDistance
