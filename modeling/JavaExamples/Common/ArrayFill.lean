import Mathlib.Algebra.Group.Nat.Defs
import Mathlib.Algebra.Ring.Int.Defs
import Mathlib.Data.List.Basic
import Mathlib.Tactic.Common

/-!
# Filling an array at a running position

A loop over items that writes `array[position++] = value item`, with an `int` for the position that
starts at zero.

* `foldlM_foldlM_put`: nested loops are one loop.
* `foldlM_put_of_le`: as long as the array has room, the values stand one behind the other and each
  item has been written to a place of its own.
* `foldlM_put_of_lt`: the first item without room is written outside of the array.
-/

namespace ArrayFill

variable {α β : Type}

/-- The array and the position, and of each item written so far, where it went. -/
structure Filling (α β : Type) where
  array : List β
  position : ℤ
  written : List (α × ℕ)

/-- Before the first write. -/
def start (array : List β) : Filling α β := { array, position := 0, written := [] }

/-- `array[position++] = value item`. Outside of the array it fails with the index. -/
def put (value : α → β) (filling : Filling α β) (item : α) : Except ℤ (Filling α β) :=
  if 0 ≤ filling.position ∧ filling.position < filling.array.length then
    .ok {
      array := filling.array.set filling.position.toNat (value item)
      position := (filling.position + 1).bmod (2 ^ 32)
      written := filling.written ++ [(item, filling.position.toNat)] }
  else .error filling.position

variable {value : α → β} {done rest : List β} {written : List (α × ℕ)}

/-- Behind the values written so far there is room for one more. -/
theorem put_of_room {item : α} {old : β} (hlen : (done ++ old :: rest).length < 2 ^ 31) :
    put value ⟨done ++ old :: rest, done.length, written⟩ item =
      .ok ⟨(done ++ [value item]) ++ rest, (done ++ [value item]).length,
        written ++ [(item, done.length)]⟩ := by
  have hlt : done.length + 1 < 2 ^ 31 := by
    rw [List.length_append, List.length_cons] at hlen
    omega
  have hnext : ((done.length : ℤ) + 1).bmod (2 ^ 32) = (done ++ [value item]).length := by
    rw [Int.bmod_eq_of_le (by omega) (by omega), List.length_append]
    rfl
  have hroom : (0 : ℤ) ≤ done.length ∧ (done.length : ℤ) < (done ++ old :: rest).length := by
    rw [List.length_append, List.length_cons]
    omega
  have hset : (done ++ old :: rest).set done.length (value item) =
      (done ++ [value item]) ++ rest := by
    rw [List.set_append_right _ _ (Nat.le_refl _), Nat.sub_self, List.append_assoc]
    rfl
  rw [put, if_pos hroom]
  simp only [Int.toNat_natCast, hset, hnext]

/-- A full array has none. -/
theorem put_of_full (item : α) :
    put value ⟨done, done.length, written⟩ item = .error (done.length : ℤ) :=
  if_neg fun hroom => absurd hroom.2 (Int.lt_irrefl _)

/-- From the values `done` on, with room for all items. -/
theorem foldlM_put_append (items : List α) (hlen : (done ++ rest).length < 2 ^ 31)
    (hroom : items.length ≤ rest.length) :
    items.foldlM (put value) ⟨done ++ rest, done.length, written⟩ =
      .ok ⟨done ++ items.map value ++ rest.drop items.length, (done.length + items.length : ℕ),
        written ++ items.zipIdx done.length⟩ := by
  induction items generalizing done rest written with
  -- nothing to write: the rest of the array is as it was
  | nil => simp [pure, Except.pure]
  | cons item items ih =>
    -- the place of the next item is taken from the rest
    cases rest with
    | nil => cases hroom
    | cons old rest =>
      rw [List.foldlM_cons, put_of_room hlen]
      have hlen' : ((done ++ [value item]) ++ rest).length < 2 ^ 31 := by
        simp only [List.length_append, List.length_cons, List.length_nil] at hlen ⊢
        omega
      refine (ih hlen' (Nat.le_of_succ_le_succ hroom)).trans ?_
      simp [Nat.add_comm 1, Nat.add_assoc]

/-- From the values `done` on, with room for fewer. -/
theorem foldlM_put_append_of_lt (items : List α) (hlen : (done ++ rest).length < 2 ^ 31)
    (hroom : rest.length < items.length) :
    items.foldlM (put value) ⟨done ++ rest, done.length, written⟩ =
      .error ((done.length + rest.length : ℕ) : ℤ) := by
  induction items generalizing done rest written with
  | nil => cases hroom
  | cons item items ih =>
    rw [List.foldlM_cons]
    cases rest with
    -- this item is the first one without a place
    | nil =>
      rw [List.append_nil, put_of_full]
      rfl
    | cons old rest =>
      rw [put_of_room hlen]
      have hlen' : ((done ++ [value item]) ++ rest).length < 2 ^ 31 := by
        simp only [List.length_append, List.length_cons, List.length_nil] at hlen ⊢
        omega
      refine (ih hlen' (Nat.lt_of_succ_lt_succ hroom)).trans ?_
      simp [Nat.add_comm 1, Nat.add_assoc]

/-- Nested loops that write one item after the other. -/
theorem foldlM_foldlM_put {ι : Type} (items : ι → List α) (is : List ι) (filling : Filling α β) :
    is.foldlM (fun filling i => (items i).foldlM (put value) filling) filling =
      (is.flatMap items).foldlM (put value) filling := by
  induction is generalizing filling with
  | nil => rfl
  | cons i is ih =>
    rw [List.foldlM_cons, List.flatMap_cons, List.foldlM_append]
    exact bind_congr ih

variable {array : List β} (value : α → β) (items : List α)

/-- If the array has room for all items, it holds their values in order. -/
theorem foldlM_put_of_le (hlen : array.length < 2 ^ 31) (hroom : items.length ≤ array.length) :
    items.foldlM (put value) (start array) =
      .ok ⟨items.map value ++ array.drop items.length, items.length, items.zipIdx⟩ := by
  have hlen' : ([] ++ array).length < 2 ^ 31 := hlen
  have hfold : items.foldlM (put value) (start array) =
      .ok ⟨[] ++ items.map value ++ array.drop items.length, (0 + items.length : ℕ),
        [] ++ items.zipIdx 0⟩ := foldlM_put_append items hlen' hroom
  simpa using hfold

/-- If it has not, the loop stops behind the array. -/
theorem foldlM_put_of_lt (hlen : array.length < 2 ^ 31) (hroom : array.length < items.length) :
    items.foldlM (put value) (start array) = .error (array.length : ℤ) := by
  have hlen' : ([] ++ array).length < 2 ^ 31 := hlen
  have hfold : items.foldlM (put value) (start array) = .error ((0 + array.length : ℕ) : ℤ) :=
    foldlM_put_append_of_lt items hlen' hroom
  simpa using hfold

end ArrayFill
