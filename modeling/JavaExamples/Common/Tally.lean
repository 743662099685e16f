import Mathlib.Algebra.BigOperators.Group.List.Lemmas
import Mathlib.Tactic.Common

/-!
# Amounts merged by key

Amounts in a commutative monoid, added up by key in a map that keeps its keys in the order in which
they have come: what `LinkedHashMap.merge` does with an addition.

* `merge key amount entries` — the amount added to the entry of the key, which is new if there is
  none.
* `total entries key` — the sum of the amounts of a key.

What a sequence of merges leaves: the keys are those merged (`mem_keys_mergeAll`), each once
(`nodup_keys_mergeAll`), and an entry is the total of its key (`eq_total_of_mem`,
`total_mergeAll`).
-/

namespace Tally

variable {κ ν : Type*} [DecidableEq κ] [AddCommMonoid ν]

/-- The entries with `amount` added to the one of `key`. -/
def merge (key : κ) (amount : ν) : List (κ × ν) → List (κ × ν)
  | [] => [(key, amount)]
  | (k, v) :: entries =>
    if k = key then (k, v + amount) :: entries else (k, v) :: merge key amount entries

/-- The amounts of `key` together. -/
def total (entries : List (κ × ν)) (key : κ) : ν :=
  ((entries.filter fun entry => entry.1 = key).map Prod.snd).sum

@[simp]
theorem total_nil (key : κ) : total ([] : List (κ × ν)) key = 0 := rfl

theorem total_cons (entry : κ × ν) (entries : List (κ × ν)) (key : κ) :
    total (entry :: entries) key = (if entry.1 = key then entry.2 else 0) + total entries key := by
  unfold total
  by_cases h : entry.1 = key
  · rw [List.filter_cons_of_pos (by simpa using h), if_pos h, List.map_cons, List.sum_cons]
  · rw [List.filter_cons_of_neg (by simpa using h), if_neg h, zero_add]

/-- A key without an entry has nothing. -/
theorem total_eq_zero {entries : List (κ × ν)} {key : κ} (h : key ∉ entries.map Prod.fst) :
    total entries key = 0 := by
  unfold total
  rw [List.filter_eq_nil_iff.mpr]
  · rfl
  · intro entry hentry
    rw [decide_eq_true_iff]
    rintro rfl
    exact h (List.mem_map_of_mem hentry)

/-- Where keys are not repeated, an entry is the total of its key. -/
theorem eq_total_of_mem {entries : List (κ × ν)} (hnodup : (entries.map Prod.fst).Nodup) {key : κ}
    {amount : ν} (h : (key, amount) ∈ entries) : amount = total entries key := by
  induction entries with
  | nil => cases h
  | cons entry entries ih =>
    rw [List.map_cons, List.nodup_cons] at hnodup
    rw [total_cons]
    rcases List.mem_cons.mp h with rfl | h
    · rw [if_pos rfl, total_eq_zero hnodup.1, add_zero]
    · have hne : entry.1 ≠ key := by
        intro hsame
        exact hnodup.1 (hsame ▸ List.mem_map_of_mem h)
      rw [if_neg hne, zero_add]
      exact ih hnodup.2 h

/-! ## One merge -/

theorem mem_keys_merge {entries : List (κ × ν)} {key other : κ} {amount : ν} :
    other ∈ (merge key amount entries).map Prod.fst ↔
      other = key ∨ other ∈ entries.map Prod.fst := by
  induction entries with
  | nil => simp [merge]
  | cons entry entries ih =>
    unfold merge
    split_ifs with h
    · rw [List.map_cons, List.map_cons, List.mem_cons, h]
      tauto
    · rw [List.map_cons, List.map_cons, List.mem_cons, List.mem_cons, ih]
      tauto

theorem nodup_keys_merge {entries : List (κ × ν)} (h : (entries.map Prod.fst).Nodup) (key : κ)
    (amount : ν) : ((merge key amount entries).map Prod.fst).Nodup := by
  induction entries with
  | nil => exact List.nodup_singleton key
  | cons entry entries ih =>
    rw [List.map_cons, List.nodup_cons] at h
    unfold merge
    split_ifs with hkey
    · exact List.nodup_cons.mpr h
    · rw [List.map_cons, List.nodup_cons, mem_keys_merge]
      refine ⟨?_, ih h.2⟩
      rintro (hsame | hmem)
      · exact hkey hsame
      · exact h.1 hmem

theorem total_merge (entries : List (κ × ν)) (key other : κ) (amount : ν) :
    total (merge key amount entries) other =
      total entries other + if key = other then amount else 0 := by
  induction entries with
  | nil => rw [merge, total_cons, total_nil, add_zero, zero_add]
  | cons entry entries ih =>
    unfold merge
    split_ifs with hkey hother hother
    · rw [total_cons, total_cons, if_pos (hkey.trans hother), if_pos (hkey.trans hother),
        add_right_comm]
    · rw [total_cons, total_cons, if_neg (hkey ▸ hother), if_neg (hkey ▸ hother), add_zero]
    · rw [total_cons, total_cons, ih, if_pos hother, add_assoc]
    · rw [total_cons, total_cons, ih, if_neg hother, add_zero, add_zero]

theorem sum_merge (entries : List (κ × ν)) (key : κ) (amount : ν) :
    ((merge key amount entries).map Prod.snd).sum = (entries.map Prod.snd).sum + amount := by
  induction entries with
  | nil => simp [merge]
  | cons entry entries ih =>
    unfold merge
    split_ifs
    · rw [List.map_cons, List.map_cons, List.sum_cons, List.sum_cons, add_right_comm]
    · rw [List.map_cons, List.map_cons, List.sum_cons, List.sum_cons, ih, add_assoc]

/-! ## Any number of merges -/

/-- Amounts merged one after the other. -/
def mergeAll (amounts entries : List (κ × ν)) : List (κ × ν) :=
  amounts.foldl (fun entries amount => merge amount.1 amount.2 entries) entries

theorem mem_keys_mergeAll {amounts entries : List (κ × ν)} {key : κ} :
    key ∈ (mergeAll amounts entries).map Prod.fst ↔
      key ∈ amounts.map Prod.fst ∨ key ∈ entries.map Prod.fst := by
  induction amounts generalizing entries with
  | nil => simp [mergeAll]
  | cons amount amounts ih =>
    refine ih.trans ?_
    rw [mem_keys_merge, List.map_cons, List.mem_cons]
    tauto

theorem nodup_keys_mergeAll {amounts entries : List (κ × ν)} (h : (entries.map Prod.fst).Nodup) :
    ((mergeAll amounts entries).map Prod.fst).Nodup := by
  induction amounts generalizing entries with
  | nil => exact h
  | cons amount amounts ih => exact ih (nodup_keys_merge h _ _)

theorem total_mergeAll (amounts entries : List (κ × ν)) (key : κ) :
    total (mergeAll amounts entries) key = total entries key + total amounts key := by
  induction amounts generalizing entries with
  | nil => exact (add_zero _).symm
  | cons amount amounts ih =>
    refine (ih _).trans ?_
    rw [total_merge, total_cons, add_assoc]

theorem sum_mergeAll (amounts entries : List (κ × ν)) :
    ((mergeAll amounts entries).map Prod.snd).sum =
      (entries.map Prod.snd).sum + (amounts.map Prod.snd).sum := by
  induction amounts generalizing entries with
  | nil => exact (add_zero _).symm
  | cons amount amounts ih =>
    refine (ih _).trans ?_
    rw [sum_merge, List.map_cons, List.sum_cons, add_assoc]

/-- Renaming the keys apart renames them in the entries. -/
theorem mergeAll_map {κ' : Type*} [DecidableEq κ'] {f : κ → κ'} (hf : Function.Injective f)
    (amounts entries : List (κ × ν)) :
    mergeAll (amounts.map (Prod.map f id)) (entries.map (Prod.map f id)) =
      (mergeAll amounts entries).map (Prod.map f id) := by
  have hmerge : ∀ key amount (entries : List (κ × ν)),
      merge (f key) amount (entries.map (Prod.map f id)) =
        (merge key amount entries).map (Prod.map f id) := by
    intro key amount entries
    induction entries with
    | nil => rfl
    | cons entry entries ih =>
      obtain ⟨k, v⟩ := entry
      rw [List.map_cons, Prod.map_apply, merge, merge]
      by_cases hkey : k = key
      · rw [if_pos hkey, if_pos (congrArg f hkey)]
        rfl
      · rw [if_neg hkey, if_neg (mt (@hf _ _) hkey), List.map_cons]
        exact congrArg _ ih
  induction amounts generalizing entries with
  | nil => rfl
  | cons amount amounts ih =>
    refine Eq.trans ?_ (ih (merge amount.1 amount.2 entries))
    exact congrArg (mergeAll _) (hmerge amount.1 amount.2 entries)

end Tally
