import Mathlib.Data.List.AList
import JavaExamples.Common.Text

/-!
# The timed cache

`LRUTimedInMemoryCache` of `CachingStateRepository`: a concurrent map from features to entries with
a time stamp. An expired entry is evicted by the `get` that finds it, which still returns its state;
a `put` into a full map first evicts the entry the map's iterator comes upon.

* `lookup_get`, `lookup_put`: neither makes up an entry.
-/

namespace Togglz

/-- A state, which may be null, and the time it was put. -/
structure CacheEntry (α : Type) where
  state : Option α
  timestamp : ℕ

abbrev LRUTimedInMemoryCache (α : Type) := AList fun _ : Text => CacheEntry α

namespace LRUTimedInMemoryCache

variable {α : Type}

/-- 30 minutes, in milliseconds. -/
def ttl : ℕ := 30 * 60 * 1000

def maxEntries : ℕ := 1256

def isExpired (now : ℕ) (entry : CacheEntry α) : Bool :=
  if ttl = 0 then false else entry.timestamp + ttl < now

def evict (k : Text) (cache : LRUTimedInMemoryCache α) : LRUTimedInMemoryCache α := cache.erase k

/-- The state of a key and the map left behind. -/
def get (now : ℕ) (k : Text) (cache : LRUTimedInMemoryCache α) :
    Option α × LRUTimedInMemoryCache α :=
  match cache.lookup k with
  -- an expired entry is dropped from the map, but its state is still returned
  | some entry => (entry.state, if isExpired now entry then evict k cache else cache)
  | none => (none, cache)

/-- `nextKey` is the key that `keySet().iterator().next()` gives. -/
def put (nextKey : List Text → Text) (now : ℕ) (k : Text) (v : Option α)
    (cache : LRUTimedInMemoryCache α) : LRUTimedInMemoryCache α :=
  let cache := if maxEntries ≤ cache.keys.length then evict (nextKey cache.keys) cache else cache
  cache.insert k { state := v, timestamp := now }

variable {cache : LRUTimedInMemoryCache α} {k other : Text} {entry : CacheEntry α}

theorem lookup_evict_self : (evict k cache).lookup k = none := AList.lookup_erase k cache

theorem lookup_evict (h : (evict k cache).lookup other = some entry) :
    cache.lookup other = some entry := by
  by_cases hkey : other = k
  · rw [hkey, lookup_evict_self] at h
    cases h
  · rwa [evict, AList.lookup_erase_ne hkey] at h

/-- `get` returns what is in the map, expired or not. -/
theorem get_fst (now : ℕ) : (get now k cache).1 = (cache.lookup k).bind CacheEntry.state := by
  rw [get]
  cases cache.lookup k <;> rfl

theorem lookup_get {now : ℕ} (h : (get now k cache).2.lookup other = some entry) :
    cache.lookup other = some entry := by
  unfold get at h
  split at h
  · split_ifs at h
    · exact lookup_evict h
    · exact h
  · exact h

theorem lookup_put_self (nextKey : List Text → Text) (now : ℕ) (v : Option α) :
    (put nextKey now k v cache).lookup k = some { state := v, timestamp := now } :=
  AList.lookup_insert _

theorem lookup_put {nextKey : List Text → Text} {now : ℕ} {v : Option α}
    (h : (put nextKey now k v cache).lookup other = some entry) :
    (other = k ∧ entry = { state := v, timestamp := now }) ∨ cache.lookup other = some entry := by
  unfold put at h
  -- another key keeps its entry, unless the full map evicted it to make room
  by_cases hkey : other = k
  · rw [hkey, AList.lookup_insert, Option.some.injEq] at h
    exact Or.inl ⟨hkey, h.symm⟩
  · rw [AList.lookup_insert_ne hkey] at h
    split_ifs at h
    · exact Or.inr (lookup_evict h)
    · exact Or.inr h

end LRUTimedInMemoryCache

end Togglz
