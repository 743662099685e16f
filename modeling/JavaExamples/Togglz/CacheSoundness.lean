import JavaExamples.Common.Transition
import JavaExamples.Togglz.FeatureState
import JavaExamples.Togglz.TimedCache

/-!
# What the timed cache may return

Runs of `get`, `put` and `evict` on an `LRUTimedInMemoryCache` that is empty at first, at times that
do not decrease.

* `lastChange`: the last `put` or `evict` of a key.
* `SoundGet`: a state that `get` returns was put last, is not evicted and is at most `ttl` old.
* `soundAndBounded_iff`: a run has sound gets only, in a map that is never too large, exactly if no
  `get` comes upon an expired entry.
* `not_soundAndBounded_expired`: one that does returns the expired state.
-/

namespace Togglz

namespace LRUTimedInMemoryCache

/-- What `keySet().iterator().next()` gives, which is a key of the map if there is one. -/
structure KeyIterator where
  next : List Text → Text
  next_mem : ∀ keys, keys ≠ [] → next keys ∈ keys

/-- A call. States are not null. -/
inductive Call (α : Type) where
  | get (k : Text)
  | put (k : Text) (v : α) (keySet : KeyIterator)
  | evict (k : Text)

variable {α : Type}

/-- The call puts or evicts the key. -/
def Call.changes (k : Text) : Call α → Bool
  | get _ => false
  | put other _ _ | evict other => other = k

/-- A cache, the time and the calls up to it, with their times. -/
structure History (α : Type) where
  cache : LRUTimedInMemoryCache α
  now : ℕ
  past : List (ℕ × Call α)

def History.initial : History α where
  cache := ∅
  now := 0
  past := []

/-- The map after a call. -/
def Call.perform (now : ℕ) (cache : LRUTimedInMemoryCache α) : Call α → LRUTimedInMemoryCache α
  | .get k => (LRUTimedInMemoryCache.get now k cache).2
  | .put k v keySet => LRUTimedInMemoryCache.put keySet.next now k (some v) cache
  | .evict k => LRUTimedInMemoryCache.evict k cache

/-- One call, not before the last one. -/
def History.step (h : History α) : ℕ × Call α → Option (History α)
  | (now, call) =>
    if h.now ≤ now then
      some { cache := call.perform now h.cache, now, past := h.past ++ [(now, call)] }
    else none

/-- The last call that puts or evicts the key. -/
def lastChange (past : List (ℕ × Call α)) (k : Text) : Option (ℕ × Call α) :=
  (past.filter fun timed => timed.2.changes k).getLast?

/-- If the call is a `get` that returns a state, then the last change of the key has put it, at most
`ttl` ago. -/
def SoundGet (h : History α) : ℕ × Call α → Prop
  | (now, .get k) => ∀ v, (LRUTimedInMemoryCache.get now k h.cache).1 = some v →
      ∃ timestamp keySet, lastChange h.past k = some (timestamp, .put k v keySet) ∧
        now ≤ timestamp + ttl
  | _ => True

/-- If the call is a `get`, the entry that it finds is not expired. -/
def FreshGet (h : History α) : ℕ × Call α → Prop
  | (now, .get k) => ∀ entry, h.cache.lookup k = some entry → isExpired now entry = false
  | _ => True

def Bounded (h : History α) : Prop := h.cache.keys.length ≤ maxEntries

/-- The gets of a run are sound, and the map is never too large. -/
def SoundAndBounded (calls : List (ℕ × Call α)) : Prop :=
  Transition.Along History.step SoundGet History.initial calls ∧
    Transition.Throughout History.step Bounded History.initial calls

/-! ## Sizes -/

section Sizes

variable {κ : Type} {β : κ → Type} [DecidableEq κ] {map : AList β} {a : κ}

theorem length_keys_erase_le : (map.erase a).keys.length ≤ map.keys.length := by
  rw [AList.keys_erase]
  exact List.length_erase_le

theorem length_keys_erase (h : a ∈ map.keys) : (map.erase a).keys.length = map.keys.length - 1 := by
  rw [AList.keys_erase]
  exact List.length_erase_of_mem h

theorem length_keys_insert_le (b : β a) :
    (map.insert a b).keys.length ≤ map.keys.length + 1 := by
  rw [AList.keys_insert, List.length_cons]
  exact Nat.succ_le_succ List.length_erase_le

end Sizes

/-! ## What a call keeps -/

/-- An entry is what was put last. -/
def Tracked (h : History α) : Prop :=
  ∀ k entry, h.cache.lookup k = some entry → ∃ v keySet, entry.state = some v ∧
    lastChange h.past k = some (entry.timestamp, .put k v keySet)

variable {h h' : History α} {past : List (ℕ × Call α)} {timed : ℕ × Call α} {k : Text}

theorem lastChange_append_self (hchanges : timed.2.changes k = true) :
    lastChange (past ++ [timed]) k = some timed := by
  simp [lastChange, hchanges]

theorem lastChange_append_of_not (hchanges : timed.2.changes k = false) :
    lastChange (past ++ [timed]) k = lastChange past k := by
  simp [lastChange, hchanges]

/-- What is in the map after a call was put by it or was there before, and the call does not change
it then. -/
theorem lookup_perform {now : ℕ} {cache : LRUTimedInMemoryCache α} {call : Call α}
    {entry : CacheEntry α} (hentry : (call.perform now cache).lookup k = some entry) :
    (∃ v keySet, call = .put k v keySet ∧ entry = { state := some v, timestamp := now }) ∨
      (call.changes k = false ∧ cache.lookup k = some entry) := by
  cases call with
  | get other => exact Or.inr ⟨rfl, lookup_get hentry⟩
  | put other v keySet =>
    by_cases hkey : other = k
    · subst hkey
      have hput := (lookup_put_self keySet.next now (some v)).symm.trans hentry
      exact Or.inl ⟨v, keySet, rfl, (Option.some.inj hput).symm⟩
    · rcases lookup_put hentry with ⟨hsame, -⟩ | hbefore
      · exact absurd hsame.symm hkey
      · exact Or.inr ⟨decide_eq_false hkey, hbefore⟩
  | evict other =>
    by_cases hkey : other = k
    · subst hkey
      cases lookup_evict_self.symm.trans hentry
    · exact Or.inr ⟨decide_eq_false hkey, lookup_evict hentry⟩

theorem step_eq_some : h.step timed = some h' ↔ h.now ≤ timed.1 ∧
    { cache := timed.2.perform timed.1 h.cache, now := timed.1,
      past := h.past ++ [timed] } = h' := by
  rw [History.step, Option.ite_none_right_eq_some, Option.some.injEq]

theorem Tracked.step (htracked : Tracked h) (hstep : h.step timed = some h') : Tracked h' := by
  obtain ⟨-, rfl⟩ := step_eq_some.mp hstep
  intro k entry hentry
  rcases lookup_perform hentry with ⟨v, keySet, hcall, rfl⟩ | ⟨hchanges, hbefore⟩
  · refine ⟨v, keySet, rfl, ?_⟩
    have hself : timed.2.changes k = true := by
      rw [hcall]
      exact decide_eq_true rfl
    dsimp only
    rw [lastChange_append_self hself, ← hcall]
  · obtain ⟨v, keySet, hstate, hlast⟩ := htracked k entry hbefore
    exact ⟨v, keySet, hstate, (lastChange_append_of_not hchanges).trans hlast⟩

/-- A `put` makes room before it adds an entry. -/
theorem length_keys_put_le {cache : LRUTimedInMemoryCache α} (keySet : KeyIterator) (now : ℕ)
    (v : Option α) (hcache : cache.keys.length ≤ maxEntries) :
    (LRUTimedInMemoryCache.put keySet.next now k v cache).keys.length ≤ maxEntries := by
  unfold LRUTimedInMemoryCache.put
  refine (length_keys_insert_le _).trans ?_
  split_ifs with hfull
  · have hpos : 0 < maxEntries := by decide
    have hne : cache.keys ≠ [] := List.ne_nil_of_length_pos (hpos.trans_le hfull)
    rw [evict, length_keys_erase (keySet.next_mem _ hne)]
    omega
  · omega

theorem Bounded.step (hbounded : Bounded h) (hstep : h.step timed = some h') : Bounded h' := by
  obtain ⟨-, rfl⟩ := step_eq_some.mp hstep
  obtain ⟨now, call⟩ := timed
  cases call with
  | get k =>
    show (LRUTimedInMemoryCache.get now k h.cache).2.keys.length ≤ maxEntries
    unfold LRUTimedInMemoryCache.get
    split
    · split_ifs
      · exact length_keys_erase_le.trans hbounded
      · exact hbounded
    · exact hbounded
  | put k v keySet => exact length_keys_put_le keySet now (some v) hbounded
  | evict k => exact length_keys_erase_le.trans hbounded

theorem isExpired_eq_false {now : ℕ} {entry : CacheEntry α} :
    isExpired now entry = false ↔ now ≤ entry.timestamp + ttl := by
  have httl : ttl ≠ 0 := by decide
  rw [isExpired, if_neg httl, decide_eq_false_iff_not, not_lt]

/-- A `get` is sound exactly if what it finds is not expired. -/
theorem soundGet_iff (htracked : Tracked h) : SoundGet h timed ↔ FreshGet h timed := by
  obtain ⟨now, call⟩ := timed
  cases call with
  | get k =>
    constructor
    · intro hsound entry hentry
      obtain ⟨v, keySet, hstate, hlast⟩ := htracked k entry hentry
      have hget : (LRUTimedInMemoryCache.get now k h.cache).1 = some v := by
        rw [get_fst, hentry, Option.bind_some, hstate]
      -- the last change of the key is the one that made the entry
      obtain ⟨timestamp, other, hchange, hage⟩ := hsound v hget
      obtain ⟨rfl, -⟩ := Prod.mk.inj (Option.some.inj (hlast.symm.trans hchange))
      exact isExpired_eq_false.mpr hage
    · intro hfresh v hget
      rw [get_fst] at hget
      obtain ⟨entry, hentry, hv⟩ := Option.bind_eq_some_iff.mp hget
      obtain ⟨put, keySet, hstate, hlast⟩ := htracked k entry hentry
      obtain rfl := Option.some.inj (hstate.symm.trans hv)
      exact ⟨entry.timestamp, keySet, hlast, isExpired_eq_false.mp (hfresh entry hentry)⟩
  | put k v keySet => exact Iff.rfl
  | evict k => exact Iff.rfl

theorem tracked_initial : Tracked (History.initial : History α) := by
  intro k entry hentry
  cases hentry

theorem bounded_throughout (calls : List (ℕ × Call α)) :
    Transition.Throughout History.step Bounded History.initial calls := by
  refine Transition.throughout_iff_initial.mpr fun before h _ hrun => ?_
  refine Transition.run_invariant _ (fun _ _ _ => Bounded.step) ?_ hrun
  exact Nat.zero_le maxEntries

/-- A run is sound and bounded exactly if each of its gets finds an entry that is not expired, if it
finds one. -/
theorem soundAndBounded_iff (calls : List (ℕ × Call α)) :
    SoundAndBounded calls ↔ Transition.Along History.step FreshGet History.initial calls := by
  rw [SoundAndBounded, and_iff_left (bounded_throughout calls)]
  constructor
  · exact Transition.Along.imp_of_invariant (fun _ _ _ htracked _ => htracked.step)
      (fun _ _ htracked => (soundGet_iff htracked).mp) tracked_initial
  · exact Transition.Along.imp_of_invariant (fun _ _ _ htracked _ => htracked.step)
      (fun _ _ htracked => (soundGet_iff htracked).mpr) tracked_initial

/-- A map that is iterated in its order. -/
def firstKey : KeyIterator where
  next keys := keys.headD []
  next_mem keys hkeys := by
    obtain ⟨key, rest, rfl⟩ := List.exists_cons_of_ne_nil hkeys
    exact List.mem_cons_self

/-- A state that is put and got more than `ttl` later. -/
def expiredRun (v : α) : List (ℕ × Call α) :=
  [(0, .put "beta".toList v firstKey), (ttl + 1, .get "beta".toList)]

/-- The expired state is returned. -/
theorem not_soundAndBounded_expired :
    ¬∀ calls : List (ℕ × Call FeatureState), SoundAndBounded calls := by
  intro h
  let v := FeatureState.new "beta".toList true
  have hgets := (h (expiredRun v)).1
  have hget := ((hgets _ rfl).2 _ rfl).1
  obtain ⟨timestamp, keySet, hlast, hage⟩ := hget v rfl
  -- the state was put at 0
  have hput : some (0, Call.put "beta".toList v firstKey) =
      some (timestamp, Call.put "beta".toList v keySet) := hlast
  obtain ⟨rfl, -⟩ := Prod.mk.inj (Option.some.inj hput)
  omega

end LRUTimedInMemoryCache

end Togglz
