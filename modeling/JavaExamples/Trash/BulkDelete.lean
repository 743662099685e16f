import JavaExamples.Common.KeyDeletion
import JavaExamples.Sharding.CustomerBalance

/-!
# Bulk deletes

The three ways in which `TrashDAOPostgres` deletes the rows with given ids from the table `TRASH`:
in chunks of 1000 ids, in one batch of statements, and one by one. Each of them validates a number
before it goes on; the batch counts its statements instead of the rows that they have deleted.

* `toText_injective`: ids are told apart by the texts that are their keys.
* `flatten_chunks`: the chunks hold each element of the list once.
* `Interchangeable`: what the three ways should do.
* `interchangeable_iff`: the tables and lists on which they do.
* `not_interchangeable_absent`: an id that is not in the table.
-/

namespace Trash

open Program KeyDeletion
open Sharding (UUID)

/-! ## Ids -/

/-- The last `n` hexadecimal digits. -/
def digits (val : ℕ) : (n : ℕ) → Text
  | 0 => []
  | n + 1 => digits (val / 16) n ++ [Nat.digitChar (val % 16)]

/-- `UUID.toString`. -/
def toText (id : UUID) : Text :=
  digits (id.mostSigBits.toNat / 2 ^ 32) 8 ++ '-' ::
    (digits (id.mostSigBits.toNat / 2 ^ 16) 4 ++ '-' ::
      (digits id.mostSigBits.toNat 4 ++ '-' ::
        (digits (id.leastSigBits.toNat / 2 ^ 48) 4 ++ '-' :: digits id.leastSigBits.toNat 12)))

theorem length_digits (val n : ℕ) : (digits val n).length = n := by
  induction n generalizing val with
  | zero => rfl
  | succ n ih => simp [digits, ih]

theorem digitChar_injective :
    ∀ m < 16, ∀ n < 16, Nat.digitChar m = Nat.digitChar n → m = n := by
  decide

theorem digits_injective {val val' n : ℕ} (h : digits val n = digits val' n) :
    val % 16 ^ n = val' % 16 ^ n := by
  induction n generalizing val val' with
  | zero => simp [Nat.mod_one]
  | succ n ih =>
    obtain ⟨hinit, hlast⟩ := List.append_inj' h rfl
    have hdigit : val % 16 = val' % 16 :=
      digitChar_injective _ (Nat.mod_lt _ (by decide)) _ (Nat.mod_lt _ (by decide))
        (List.singleton_inj.mp hlast)
    rw [Nat.pow_succ', Nat.mod_mul, Nat.mod_mul, hdigit, ih hinit]

/-- Two ids with the same text are the same. -/
theorem toText_injective : Function.Injective toText := by
  intro id id' h
  have hlength : ∀ val val' n, (digits val n).length = (digits val' n).length := by
    simp [length_digits]
  obtain ⟨h₁, h⟩ := List.append_inj h (hlength _ _ 8)
  obtain ⟨h₂, h⟩ := List.append_inj (List.cons.inj h).2 (hlength _ _ 4)
  obtain ⟨h₃, h⟩ := List.append_inj (List.cons.inj h).2 (hlength _ _ 4)
  obtain ⟨h₄, h⟩ := List.append_inj (List.cons.inj h).2 (hlength _ _ 4)
  have h₅ := (List.cons.inj h).2
  have hmost := id.mostSigBits.isLt
  have hmost' := id'.mostSigBits.isLt
  have hleast := id.leastSigBits.isLt
  have hleast' := id'.leastSigBits.isLt
  replace h₁ := digits_injective h₁
  replace h₂ := digits_injective h₂
  replace h₃ := digits_injective h₃
  replace h₄ := digits_injective h₄
  replace h₅ := digits_injective h₅
  rw [UUID.mk.injEq, ← BitVec.toNat_inj, ← BitVec.toNat_inj]
  omega

/-! ## The three ways -/

/-- Programs on the keys of `TRASH`, with the messages of what they throw. -/
abbrev Connection := Program (Finset Text) Text

/-- `Validate.isTrue`. -/
def isTrue (expression : Bool) (message : Text) : Connection Unit :=
  if expression then return () else throw message

/-- `Statement.executeBatch`: the count of each queued statement, which deletes by one key. -/
def executeBatch (keys : List Text) : Connection (List ℕ) :=
  keys.mapM fun key => deleteAll [key]

namespace TrashDAOPostgres

/-- The part of a turn of the loop that comes after the break. -/
def deleteChunk (batchIds : List UUID) : Connection Unit := do
  let affected ← deleteAll (batchIds.map toText)
  isTrue (affected == batchIds.length)
    ("Didn't delete all records, expected=".toList ++ Nat.toDigits 10 batchIds.length ++
      ", actual=".toList ++ Nat.toDigits 10 affected)

/-- A chunk that is not empty brings `skip` nearer to the end. -/
theorem length_sub_lt {ids : List UUID} {skip : ℕ} (h : (ids.drop skip).take 1000 ≠ []) :
    ids.length - (skip + ((ids.drop skip).take 1000).length) < ids.length - skip := by
  rw [ne_eq, List.take_eq_nil_iff, List.drop_eq_nil_iff] at h
  rw [List.length_take, List.length_drop]
  omega

/-- The loop of `deleteUsingIn` from `skip` on. -/
def deleteUsingInFrom (ids : List UUID) (skip : ℕ) : Connection Unit := do
  let batchIds := (ids.drop skip).take 1000
  if batchIds = [] then return ()
  else
    deleteChunk batchIds
    deleteUsingInFrom ids (skip + batchIds.length)
termination_by ids.length - skip
decreasing_by exact length_sub_lt ‹_›

def deleteUsingIn (ids : List UUID) : Connection Unit := deleteUsingInFrom ids 0

def deleteUsingBatch (ids : List UUID) : Connection Unit := do
  let counts ← executeBatch (ids.map toText)
  isTrue (counts.length == ids.length) "Didn't update all records".toList

/-- `deleteOneByOne` of a single id. -/
def deleteOne (id : UUID) : Connection Unit := do
  let affected ← deleteAll [toText id]
  isTrue (affected == 1) "Didn't update record".toList

def deleteOneByOne (ids : List UUID) : Connection Unit := forM ids deleteOne

end TrashDAOPostgres

open TrashDAOPostgres

/-! ## Chunks -/

/-- The chunks that the loop goes through from `skip` on. -/
def chunks (ids : List UUID) (skip : ℕ) : List (List UUID) :=
  let batchIds := (ids.drop skip).take 1000
  if batchIds = [] then [] else batchIds :: chunks ids (skip + batchIds.length)
termination_by ids.length - skip
decreasing_by exact length_sub_lt ‹_›

/-- What the loop has yet to go through is one chunk and what it has to go through after it. -/
theorem take_append_drop_skip (ids : List UUID) (skip : ℕ) :
    (ids.drop skip).take 1000 ++ ids.drop (skip + ((ids.drop skip).take 1000).length) =
      ids.drop skip := by
  rw [← List.drop_drop]
  exact List.prefix_iff_eq_append.mp (List.take_prefix 1000 (ids.drop skip))

/-- The chunks are the list from `skip` on, cut up. -/
theorem flatten_chunks (ids : List UUID) (skip : ℕ) :
    (chunks ids skip).flatten = ids.drop skip := by
  induction skip using chunks.induct ids with
  | case1 skip batchIds hempty =>
    have hend : ids.drop skip = [] := (List.take_eq_nil_iff.mp hempty).resolve_left (by decide)
    rw [chunks, if_pos hempty, hend, List.flatten_nil]
  | case2 skip batchIds hempty ih =>
    rw [chunks, if_neg hempty, List.flatten_cons, ih]
    exact take_append_drop_skip ids skip

theorem deleteUsingInFrom_eq (ids : List UUID) (skip : ℕ) :
    deleteUsingInFrom ids skip = forM (chunks ids skip) deleteChunk := by
  induction skip using chunks.induct ids with
  | case1 skip batchIds hempty =>
    rw [deleteUsingInFrom, chunks, if_pos hempty, if_pos hempty]
    rfl
  | case2 skip batchIds hempty ih =>
    rw [deleteUsingInFrom, chunks, if_neg hempty, if_neg hempty, List.forM_cons, ← ih]

/-! ## What they delete -/

theorem isTrue_true (message : Text) : isTrue true message = Pure.pure () := rfl

theorem isTrue_false (message : Text) : isTrue false message = throw message := rfl

theorem deletesExactly_deleteChunk (batchIds : List UUID) :
    DeletesExactly (batchIds.map toText) (deleteChunk batchIds) := by
  apply DeletesExactly.check
  · rw [List.length_map, beq_self_eq_true]
    exact isTrue_true _
  · intro count hcount
    rw [List.length_map] at hcount
    rw [beq_false_of_ne hcount]
    exact ⟨_, isTrue_false _⟩

theorem deletesExactly_deleteOne (id : UUID) : DeletesExactly [toText id] (deleteOne id) := by
  apply DeletesExactly.check
  · exact isTrue_true _
  · intro count hcount
    rw [List.length_singleton] at hcount
    rw [beq_false_of_ne hcount]
    exact ⟨_, isTrue_false _⟩

theorem deletesExactly_deleteUsingIn (ids : List UUID) :
    DeletesExactly (ids.map toText) (deleteUsingIn ids) := by
  have h := DeletesExactly.forM deletesExactly_deleteChunk (chunks ids 0)
  rwa [List.flatMap_def, ← List.map_flatten, flatten_chunks, List.drop_zero,
    ← deleteUsingInFrom_eq] at h

theorem deletesExactly_deleteOneByOne (ids : List UUID) :
    DeletesExactly (ids.map toText) (deleteOneByOne ids) := by
  have h := DeletesExactly.forM deletesExactly_deleteOne ids
  rwa [← List.map_eq_flatMap] at h

/-- A batch deletes what is there, and has one count for each key. -/
theorem executeBatch_returns (keys : List Text) (table : Finset Text) :
    ∃ counts, Returns (executeBatch keys) table counts (table \ keys.toFinset) ∧
      counts.length = keys.length := by
  induction keys generalizing table with
  | nil =>
    rw [List.toFinset_nil, Finset.sdiff_empty]
    exact ⟨[], Returns.pure [] table, rfl⟩
  | cons key keys ih =>
    obtain ⟨counts, hrest, hlength⟩ := ih (table \ [key].toFinset)
    have hrows : table \ (key :: keys).toFinset = (table \ [key].toFinset) \ keys.toFinset := by
      rw [sdiff_sdiff_left, Finset.sup_eq_union, ← List.toFinset_append, List.singleton_append]
    rw [executeBatch, List.mapM_cons, hrows]
    refine ⟨(table ∩ [key].toFinset).card :: counts, ?_, by simp [hlength]⟩
    exact (Returns.step _ table).bind (hrest.bind (Returns.pure _ _))

/-- A batch is always found to be complete. -/
theorem deleteUsingBatch_returns (table : Finset Text) (ids : List UUID) :
    Returns (deleteUsingBatch ids) table () (table \ (ids.map toText).toFinset) := by
  obtain ⟨counts, hcounts, hlength⟩ := executeBatch_returns (ids.map toText) table
  refine hcounts.bind ?_
  rw [hlength, List.length_map, beq_self_eq_true]
  exact Returns.pure () _

/-! ## The statement -/

/-- `delete` succeeds when the ids are distinct and all in the table, and deletes their rows. -/
structure Deletes (delete : List UUID → Connection Unit) (table : Finset Text) (ids : List UUID) :
    Prop where
  succeeds : (∃ table', Returns (delete ids) table () table') ↔
    ids.Nodup ∧ ∀ id ∈ ids, toText id ∈ table
  leaves : ∀ table', Returns (delete ids) table () table' →
    ∀ key, key ∈ table' ↔ key ∈ table ∧ ∀ id ∈ ids, toText id ≠ key

/-- The three ways do the same, the first one in chunks that hold each element once. -/
structure Interchangeable (table : Finset Text) (ids : List UUID) : Prop where
  usingIn : Deletes deleteUsingIn table ids
  usingBatch : Deletes deleteUsingBatch table ids
  oneByOne : Deletes deleteOneByOne table ids
  covered : (chunks ids 0).flatten = ids

section Deletes

variable {table : Finset Text} {ids : List UUID}

theorem deletable_iff :
    Deletable (ids.map toText) table ↔ ids.Nodup ∧ ∀ id ∈ ids, toText id ∈ table := by
  simp [Deletable, List.nodup_map_iff toText_injective]

theorem mem_sdiff_iff {key : Text} :
    key ∈ table \ (ids.map toText).toFinset ↔ key ∈ table ∧ ∀ id ∈ ids, toText id ≠ key := by
  simp

theorem deletes_of_deletesExactly {delete : List UUID → Connection Unit}
    (h : DeletesExactly (ids.map toText) (delete ids)) : Deletes delete table ids where
  succeeds := (h.succeeds_iff table).trans deletable_iff
  leaves table' hreturns := by
    have hdeletable := (h.succeeds_iff table).mp ⟨table', hreturns⟩
    obtain ⟨-, rfl⟩ := Prod.mk.inj (hreturns.symm.trans (h.returns table hdeletable))
    exact fun _ => mem_sdiff_iff

/-- The batch succeeds in any case, and so it is right when it should succeed. -/
theorem deletes_deleteUsingBatch_iff :
    Deletes deleteUsingBatch table ids ↔ ids.Nodup ∧ ∀ id ∈ ids, toText id ∈ table := by
  have hbatch := deleteUsingBatch_returns table ids
  constructor
  · exact fun h => h.succeeds.mp ⟨_, hbatch⟩
  · intro hids
    refine ⟨iff_of_true ⟨_, hbatch⟩ hids, fun table' hreturns => ?_⟩
    obtain ⟨-, rfl⟩ := Prod.mk.inj (hreturns.symm.trans hbatch)
    exact fun _ => mem_sdiff_iff

/-- The three ways are interchangeable on lists of distinct ids that are all in the table. -/
theorem interchangeable_iff (table : Finset Text) (ids : List UUID) :
    Interchangeable table ids ↔ ids.Nodup ∧ ∀ id ∈ ids, toText id ∈ table := by
  rw [← deletes_deleteUsingBatch_iff]
  constructor
  · exact Interchangeable.usingBatch
  · exact fun hbatch => {
      usingIn := deletes_of_deletesExactly (deletesExactly_deleteUsingIn ids)
      usingBatch := hbatch
      oneByOne := deletes_of_deletesExactly (deletesExactly_deleteOneByOne ids)
      covered := flatten_chunks ids 0 }

end Deletes

/-- The batch finds nothing wrong with an id that is not in the table. -/
theorem not_interchangeable_absent :
    ¬∀ (table : Finset Text) (ids : List UUID), Interchangeable table ids := by
  intro h
  have hsucceeds := (h ∅ [⟨0, 0⟩]).usingBatch.succeeds.mp ⟨_, deleteUsingBatch_returns ∅ [⟨0, 0⟩]⟩
  simp at hsucceeds

end Trash
