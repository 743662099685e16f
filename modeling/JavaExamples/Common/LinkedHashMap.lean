import Mathlib.Data.List.AList
import Mathlib.Tactic.Common

/-!
# Access-ordered maps of bounded size

The `LinkedHashMap` of Java in access order with a `removeEldestEntry` that bounds its size, over
`AList`: the entry used last comes first, the eldest one last.

* `get` — the value of a key, and the map with its entry moved to the front.
* `put` — the map with a new first entry, and without the eldest one if it has grown too large.

Neither makes up an entry: `lookup_get`, `eq_or_lookup_of_lookup_put`.
-/

namespace LinkedHashMap

variable {κ ν : Type} [DecidableEq κ]

/-- The value of a key; the access moves its entry to the front. -/
def get (key : κ) (map : AList fun _ : κ => ν) : Option ν × AList fun _ : κ => ν :=
  match map.lookup key with
  | some value => (some value, map.insert key value)
  | none => (none, map)

/-- The map without its eldest entry, if it has more than `maxEntries`. -/
def removeEldest (maxEntries : ℕ) (map : AList fun _ : κ => ν) : AList fun _ : κ => ν :=
  if maxEntries < map.keys.length then
    match map.keys.getLast? with
    | some eldest => map.erase eldest
    | none => map
  else map

/-- The map with the entry in front. -/
def put (maxEntries : ℕ) (key : κ) (value : ν) (map : AList fun _ : κ => ν) :
    AList fun _ : κ => ν :=
  removeEldest maxEntries (map.insert key value)

variable {map : AList fun _ : κ => ν} {key other : κ} {value : ν}

@[simp]
theorem get_fst (key : κ) (map : AList fun _ : κ => ν) : (get key map).1 = map.lookup key := by
  rw [get]
  cases map.lookup key <;> rfl

/-- An access changes no value. -/
theorem lookup_get : (get key map).2.lookup other = map.lookup other := by
  rw [get]
  cases hlookup : map.lookup key with
  | none => rfl
  | some value =>
    by_cases hkey : other = key
    · rw [hkey, hlookup]
      exact AList.lookup_insert map
    · exact AList.lookup_insert_ne hkey

/-- Removing the eldest entry leaves the other ones. -/
theorem lookup_of_lookup_removeEldest {maxEntries : ℕ}
    (h : (removeEldest maxEntries map).lookup key = some value) : map.lookup key = some value := by
  unfold removeEldest at h
  split_ifs at h
  · split at h
    · next eldest _ =>
      -- the eldest entry is not found any more
      by_cases hkey : key = eldest
      · rw [hkey, AList.lookup_erase] at h
        cases h
      · rwa [AList.lookup_erase_ne hkey] at h
    · exact h
  · exact h

/-- What is in the map after a `put` was put or was there before. -/
theorem eq_or_lookup_of_lookup_put {maxEntries : ℕ} {found : ν}
    (h : (put maxEntries key value map).lookup other = some found) :
    (other = key ∧ found = value) ∨ map.lookup other = some found := by
  have hinsert := lookup_of_lookup_removeEldest h
  by_cases hkey : other = key
  · rw [hkey, AList.lookup_insert, Option.some.injEq] at hinsert
    exact Or.inl ⟨hkey, hinsert.symm⟩
  · rw [AList.lookup_insert_ne hkey] at hinsert
    exact Or.inr hinsert

end LinkedHashMap
