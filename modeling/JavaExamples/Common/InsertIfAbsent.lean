import Mathlib.Data.Finset.Card
import Mathlib.Data.Finset.Dedup

/-!
# Inserting what is absent

Rows with a key are put one after the other into a table that keeps the row it has of a key.

* `insertAll_apply`: the table keeps its rows, and takes the first of each other key.
* `countNew_eq`: how many rows have been put in.
* `allNew_cons`: all rows are put in if the first one is, and all others after it.
* `insertAll_of_allNew`: the table and the rows together.
-/

namespace InsertIfAbsent

variable {κ ν : Type*} [DecidableEq κ]

/-- The table with the row, unless it has one of the key. -/
def insert (table : κ → Option ν) (row : κ × ν) : κ → Option ν :=
  if table row.1 = none then Function.update table row.1 (some row.2) else table

def insertAll (table : κ → Option ν) (rows : List (κ × ν)) : κ → Option ν := rows.foldl insert table

/-- The value of the first row with the key. -/
def first (rows : List (κ × ν)) (k : κ) : Option ν :=
  (rows.find? fun row => row.1 = k).map Prod.snd

/-- The number of rows that are put in. -/
def countNew (table : κ → Option ν) : List (κ × ν) → ℕ
  | [] => 0
  | row :: rows => (if table row.1 = none then 1 else 0) + countNew (insert table row) rows

/-- The keys that the table does not have. -/
def newKeys (table : κ → Option ν) (rows : List (κ × ν)) : Finset κ :=
  (rows.map Prod.fst).toFinset.filter fun k => table k = none

/-- No key occurs twice or is in the table. -/
def AllNew (table : κ → Option ν) (rows : List (κ × ν)) : Prop :=
  (rows.map Prod.fst).Nodup ∧ ∀ k ∈ rows.map Prod.fst, table k = none

theorem insert_apply (table : κ → Option ν) (row : κ × ν) (k : κ) :
    insert table row k = (table k).or (if k = row.1 then some row.2 else none) := by
  unfold insert
  by_cases hnew : table row.1 = none
  · rw [if_pos hnew]
    by_cases hk : k = row.1
    · simp [hk, hnew]
    · simp [hk]
  · rw [if_neg hnew]
    by_cases hk : k = row.1
    · obtain ⟨v, hv⟩ := Option.ne_none_iff_exists'.mp hnew
      simp [hk, hv]
    · simp [hk]

theorem insert_eq_none_iff {table : κ → Option ν} {row : κ × ν} {k : κ} :
    insert table row k = none ↔ table k = none ∧ k ≠ row.1 := by
  simp [insert_apply]

theorem first_cons (row : κ × ν) (rows : List (κ × ν)) (k : κ) :
    first (row :: rows) k = (if k = row.1 then some row.2 else none).or (first rows k) := by
  by_cases hk : row.1 = k
  · simp [first, hk]
  · have hk' : k ≠ row.1 := fun h => hk h.symm
    simp [first, hk, hk']

theorem insertAll_apply (table : κ → Option ν) (rows : List (κ × ν)) (k : κ) :
    insertAll table rows k = (table k).or (first rows k) := by
  induction rows generalizing table with
  | nil => simp [insertAll, first]
  | cons row rows ih =>
    rw [first_cons, ← Option.or_assoc, ← insert_apply]
    exact ih (insert table row)

theorem newKeys_cons (table : κ → Option ν) (row : κ × ν) (rows : List (κ × ν)) :
    newKeys table (row :: rows) =
      if table row.1 = none then Insert.insert row.1 (newKeys (insert table row) rows)
      else newKeys (insert table row) rows := by
  ext k
  by_cases hnew : table row.1 = none
  · by_cases hk : k = row.1
    · simp [newKeys, hnew, hk]
    · simp [newKeys, hnew, hk, insert_eq_none_iff]
  · by_cases hk : k = row.1
    · simp [newKeys, hnew, hk, insert_eq_none_iff]
    · simp [newKeys, hnew, hk, insert_eq_none_iff]

theorem countNew_eq (table : κ → Option ν) (rows : List (κ × ν)) :
    countNew table rows = (newKeys table rows).card := by
  induction rows generalizing table with
  | nil => rfl
  | cons row rows ih =>
    -- once inserted, the key is not new any more
    have hnotMem : row.1 ∉ newKeys (insert table row) rows := by
      simp [newKeys, insert_eq_none_iff]
    rw [countNew, ih, newKeys_cons]
    by_cases hnew : table row.1 = none
    · rw [if_pos hnew, if_pos hnew, Finset.card_insert_of_notMem hnotMem, Nat.add_comm]
    · rw [if_neg hnew, if_neg hnew, Nat.zero_add]

omit [DecidableEq κ] in
theorem allNew_nil (table : κ → Option ν) : AllNew table [] := by
  simp [AllNew]

theorem allNew_cons {table : κ → Option ν} {row : κ × ν} {rows : List (κ × ν)} :
    AllNew table (row :: rows) ↔ table row.1 = none ∧ AllNew (insert table row) rows := by
  simp only [AllNew, List.map_cons, List.nodup_cons, List.forall_mem_cons, insert_eq_none_iff]
  constructor
  · rintro ⟨⟨hfresh, hnodup⟩, hrow, hrows⟩
    refine ⟨hrow, hnodup, fun k hk => ⟨hrows k hk, ?_⟩⟩
    rintro rfl
    exact hfresh hk
  · rintro ⟨hrow, hnodup, hrows⟩
    exact ⟨⟨fun hmem => (hrows _ hmem).2 rfl, hnodup⟩, hrow, fun k hk => (hrows k hk).1⟩

theorem insertAll_of_allNew {table : κ → Option ν} {rows : List (κ × ν)} (h : AllNew table rows)
    (k : κ) (v : ν) : insertAll table rows k = some v ↔ table k = some v ∨ (k, v) ∈ rows := by
  induction rows generalizing table with
  | nil => simp [insertAll]
  | cons row rows ih =>
    obtain ⟨hrow, hrows⟩ := allNew_cons.mp h
    have hinsert : insert table row k = some v ↔ table k = some v ∨ (k, v) = row := by
      by_cases hk : k = row.1
      · simp [insert_apply, hk, hrow, Prod.ext_iff, eq_comm]
      · simp [insert_apply, hk, Prod.ext_iff]
    rw [List.mem_cons, ← or_assoc, ← hinsert]
    exact ih hrows

end InsertIfAbsent
