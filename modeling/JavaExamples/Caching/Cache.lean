import Mathlib.Data.Fintype.Basic
import Mathlib.Logic.Function.Basic
import JavaExamples.Common.Transition

/-!
# The two-tier cache

`Cache` keeps every value in a MapDB map on disk and some of them in a Caffeine cache in memory.
`put` and `invalidate` change the disk tier first and the memory tier next, `get` reads through the
memory tier. The two changes of a call are two steps, and between them any other call may run.

* `Cache.get`, `Cache.put`, `Cache.invalidate` — the three methods, run alone.
* `step` — one access to one tier by one thread, or an eviction by Caffeine.
* `Coherent` — a value in memory is the one on disk, or some call on its key is not over.
* `FreshPut` — the value that a `put` brings to memory is still the one on disk, or some other call
  on its key is not over.

**Statement.** A step keeps `Coherent` exactly if it is a `FreshPut`. When no call is in progress,
`Coherent` says that the memory tier agrees with the disk tier, so that `get` returns what is on
disk. A late `put` breaks this for good.
-/

namespace Caching

open Function

variable {τ K V : Type*}

/-! ## The tiers -/

/-- What the two tiers hold. -/
structure Cache (K V : Type*) where
  caffeineCache : K → Option V
  mapDbMap : K → Option V

namespace Cache

variable [DecidableEq K]

/-- `mapDbMap.put` and, with no value, `mapDbMap.remove`. -/
def storeOnDisk (c : Cache K V) (key : K) (value : Option V) : Cache K V :=
  { c with mapDbMap := update c.mapDbMap key value }

/-- `caffeineCache.put` and, with no value, `caffeineCache.invalidate`. -/
def storeInMemory (c : Cache K V) (key : K) (value : Option V) : Cache K V :=
  { c with caffeineCache := update c.caffeineCache key value }

/-- `get`: the value in memory, else what the loader finds on disk, which is kept unless `null`. -/
def get (c : Cache K V) (key : K) : Option V × Cache K V :=
  match c.caffeineCache key with
  | some value => (some value, c)
  | none => (c.mapDbMap key, c.storeInMemory key (c.mapDbMap key))

/-- `put`, run alone. -/
def put (c : Cache K V) (key : K) (value : V) : Cache K V :=
  (c.storeOnDisk key (some value)).storeInMemory key (some value)

/-- `invalidate`, run alone. -/
def invalidate (c : Cache K V) (key : K) : Cache K V :=
  (c.storeOnDisk key none).storeInMemory key none

/-- Whatever is in memory is on disk as well. -/
def TiersAgree (c : Cache K V) : Prop :=
  ∀ key value, c.caffeineCache key = some value → c.mapDbMap key = some value

theorem storeOnDisk_self (c : Cache K V) (key : K) (value : Option V) :
    (c.storeOnDisk key value).mapDbMap key = value := update_self _ _ _

theorem storeOnDisk_ne (c : Cache K V) {key other : K} (value : Option V) (h : other ≠ key) :
    (c.storeOnDisk key value).mapDbMap other = c.mapDbMap other := update_of_ne h _ _

theorem storeInMemory_self (c : Cache K V) (key : K) (value : Option V) :
    (c.storeInMemory key value).caffeineCache key = value := update_self _ _ _

theorem storeInMemory_ne (c : Cache K V) {key other : K} (value : Option V) (h : other ≠ key) :
    (c.storeInMemory key value).caffeineCache other = c.caffeineCache other := update_of_ne h _ _

theorem get_mapDbMap (c : Cache K V) (key : K) : (c.get key).2.mapDbMap = c.mapDbMap := by
  rw [get]
  split <;> rfl

/-- What a `get` finds or leaves in memory was there before, or it comes from disk. -/
theorem caffeineCache_get {c : Cache K V} {key other : K} {value : V}
    (h : (c.get key).2.caffeineCache other = some value) :
    c.caffeineCache other = some value ∨ c.mapDbMap other = some value := by
  rw [get] at h
  split at h
  · exact Or.inl h
  · by_cases hother : other = key
    · subst hother
      exact Or.inr ((storeInMemory_self c other (c.mapDbMap other)).symm.trans h)
    · exact Or.inl ((storeInMemory_ne c _ hother).symm.trans h)

/-- If the tiers agree, `get` returns what the disk tier holds. -/
theorem TiersAgree.get_eq {c : Cache K V} (h : c.TiersAgree) (key : K) :
    (c.get key).1 = c.mapDbMap key := by
  rw [get]
  split
  · next value hvalue => exact (h key value hvalue).symm
  · rfl

end Cache

/-! ## Calls and their steps -/

variable [DecidableEq τ]

/-- Where a thread is: outside, or between the two halves of a call. -/
inductive Call (K V : Type*) where
  | idle
  | putting (key : K) (value : V)
  | invalidating (key : K)
  deriving DecidableEq

/-- The call still has to change the memory tier at the key. -/
def Call.On (key : K) : Call K V → Prop
  | .idle => False
  | .putting other _ => other = key
  | .invalidating other => other = key

/-- One access to a tier, or an eviction. -/
inductive Event (τ K V : Type*) where
  | get (thread : τ) (key : K)
  | putOnDisk (thread : τ) (key : K) (value : V)
  | putInMemory (thread : τ)
  | removeFromDisk (thread : τ) (key : K)
  | invalidateInMemory (thread : τ)
  | evict (key : K)

structure State (τ K V : Type*) where
  cache : Cache K V
  calls : τ → Call K V

/-- The file as it was found, nothing in memory yet, and nobody in a call. -/
def State.opened (mapDbMap : K → Option V) : State τ K V where
  cache := { caffeineCache := fun _ => none, mapDbMap }
  calls := fun _ => .idle

def State.move (s : State τ K V) (thread : τ) (call : Call K V) (cache : Cache K V) :
    State τ K V where
  cache := cache
  calls := update s.calls thread call

def step [DecidableEq K] (s : State τ K V) : Event τ K V → Option (State τ K V)
  | .get thread key =>
    match s.calls thread with
    | .idle => some { s with cache := (s.cache.get key).2 }
    | _ => none
  | .putOnDisk thread key value =>
    match s.calls thread with
    | .idle => some (s.move thread (.putting key value) (s.cache.storeOnDisk key (some value)))
    | _ => none
  | .putInMemory thread =>
    match s.calls thread with
    | .putting key value => some (s.move thread .idle (s.cache.storeInMemory key (some value)))
    | _ => none
  | .removeFromDisk thread key =>
    match s.calls thread with
    | .idle => some (s.move thread (.invalidating key) (s.cache.storeOnDisk key none))
    | _ => none
  | .invalidateInMemory thread =>
    match s.calls thread with
    | .invalidating key => some (s.move thread .idle (s.cache.storeInMemory key none))
    | _ => none
  -- by size or by age, Caffeine may drop any entry
  | .evict key => some { s with cache := s.cache.storeInMemory key none }

/-- No call is in progress. -/
def State.Quiescent (s : State τ K V) : Prop := ∀ thread, s.calls thread = .idle

/-- A call of another thread still has to change the memory tier at the key. -/
def State.OnApart (s : State τ K V) (thread : τ) (key : K) : Prop :=
  ∃ other, other ≠ thread ∧ (s.calls other).On key

/-- A call of some thread still has to change the memory tier at the key. -/
def State.OnKey (s : State τ K V) (key : K) : Prop := ∃ thread, (s.calls thread).On key

/-- A value in memory is the one on disk, or it is still going to be replaced. -/
def Coherent (s : State τ K V) : Prop :=
  ∀ key value, s.cache.caffeineCache key = some value →
    s.cache.mapDbMap key = some value ∨ s.OnKey key

/-- If the step brings the value of a `put` to memory, then the value is still on disk, or another
call on its key is not over. -/
def FreshPut (s : State τ K V) : Event τ K V → Prop
  | .putInMemory thread => ∀ key value, s.calls thread = .putting key value →
      s.cache.mapDbMap key = some value ∨ s.OnApart thread key
  | _ => True

/-- When no call is in progress, the tiers agree and `get` returns what the disk tier holds. -/
def Settled [DecidableEq K] (s : State τ K V) : Prop :=
  s.Quiescent → s.cache.TiersAgree ∧ ∀ key, (s.cache.get key).1 = s.cache.mapDbMap key

/-! ## Where the calls are -/

variable {s s' : State τ K V} {thread : τ} {key : K} {cache : Cache K V} {call : Call K V}

instance [DecidableEq K] (key : K) : ∀ call : Call K V, Decidable (call.On key)
  | .idle => isFalse id
  | .putting other _ => inferInstanceAs (Decidable (other = key))
  | .invalidating other => inferInstanceAs (Decidable (other = key))

instance [Fintype τ] [DecidableEq K] (s : State τ K V) (thread : τ) (key : K) :
    Decidable (s.OnApart thread key) :=
  inferInstanceAs (Decidable (∃ other, other ≠ thread ∧ (s.calls other).On key))

omit [DecidableEq τ] in
theorem freshPut_iff_of_putting {value : V} (hputting : s.calls thread = .putting key value) :
    FreshPut s (.putInMemory thread) ↔
      s.cache.mapDbMap key = some value ∨ s.OnApart thread key := by
  constructor
  · exact fun h => h key value hputting
  · intro h other value' hother
    obtain ⟨rfl, rfl⟩ := Call.putting.inj (hputting.symm.trans hother)
    exact h

omit [DecidableEq τ] in
/-- Who is not in a `put` brings nothing to memory. -/
theorem freshPut_of_not_putting (hcall : ∀ key value, s.calls thread ≠ .putting key value) :
    FreshPut s (.putInMemory thread) :=
  fun key value hputting => absurd hputting (hcall key value)

instance [Fintype τ] [DecidableEq K] [DecidableEq V] (s : State τ K V) :
    ∀ event, Decidable (FreshPut s event)
  | .putInMemory thread =>
    match hcall : s.calls thread with
    | .putting _ _ => decidable_of_iff _ (freshPut_iff_of_putting hcall).symm
    | .idle => isTrue (freshPut_of_not_putting (by simp [hcall]))
    | .invalidating _ => isTrue (freshPut_of_not_putting (by simp [hcall]))
  | .get _ _ => isTrue trivial
  | .putOnDisk _ _ _ => isTrue trivial
  | .removeFromDisk _ _ => isTrue trivial
  | .invalidateInMemory _ => isTrue trivial
  | .evict _ => isTrue trivial

theorem calls_move_self : (s.move thread call cache).calls thread = call := update_self _ _ _

theorem calls_move_ne {other : τ} (h : other ≠ thread) :
    (s.move thread call cache).calls other = s.calls other := update_of_ne h _ _

/-- The calls on a key are those of one thread and those of the others. -/
theorem onKey_iff (thread : τ) :
    s.OnKey key ↔ (s.calls thread).On key ∨ s.OnApart thread key := by
  constructor
  · rintro ⟨other, hother⟩
    by_cases hthread : other = thread
    · subst hthread
      exact Or.inl hother
    · exact Or.inr ⟨other, hthread, hother⟩
  · rintro (hcall | ⟨other, -, hother⟩)
    · exact ⟨thread, hcall⟩
    · exact ⟨other, hother⟩

/-- A thread that moves leaves the calls of the others as they were. -/
theorem onKey_move_iff :
    (s.move thread call cache).OnKey key ↔ call.On key ∨ s.OnApart thread key :=
  exists_update_iff s.calls fun _ call => Call.On key call

/-- A thread that goes idle ends no call on another key. -/
theorem onKey_move_of_not_on (hcall : ¬ (s.calls thread).On key) (h : s.OnKey key) :
    (s.move thread call cache).OnKey key :=
  onKey_move_iff.mpr (Or.inr (((onKey_iff thread).mp h).resolve_left hcall))

/-! ## What a step keeps -/

variable [DecidableEq K]

omit [DecidableEq τ] in
theorem coherent_get (h : Coherent s) (key : K) :
    Coherent { s with cache := (s.cache.get key).2 } := by
  intro other value hvalue
  show (s.cache.get key).2.mapDbMap other = some value ∨ s.OnKey other
  rw [Cache.get_mapDbMap]
  rcases Cache.caffeineCache_get hvalue with hmemory | hdisk
  · exact h other value hmemory
  · exact Or.inl hdisk

omit [DecidableEq τ] in
theorem coherent_evict (h : Coherent s) (key : K) :
    Coherent { s with cache := s.cache.storeInMemory key none } := by
  intro other value hvalue
  have hother : other ≠ key := by
    rintro rfl
    cases (s.cache.storeInMemory_self other none).symm.trans hvalue
  exact h other value ((s.cache.storeInMemory_ne none hother).symm.trans hvalue)

/-- After the disk half of a call, the memory half is to come. -/
theorem coherent_storeOnDisk (h : Coherent s) (hidle : s.calls thread = .idle)
    (hcall : call.On key) (stored : Option V) :
    Coherent (s.move thread call (s.cache.storeOnDisk key stored)) := by
  intro other value hvalue
  by_cases hother : other = key
  · subst hother
    exact Or.inr (onKey_move_iff.mpr (Or.inl hcall))
  · rcases h other value hvalue with hdisk | hlater
    · exact Or.inl ((s.cache.storeOnDisk_ne stored hother).trans hdisk)
    · refine Or.inr (onKey_move_of_not_on ?_ hlater)
      rw [hidle]
      exact id

/-- At the other keys, the memory half of a call changes nothing. -/
theorem coherent_storeInMemory_ne (h : Coherent s) {other : K} {value : V} {kept : Option V}
    (hcall : ¬ (s.calls thread).On other) (hother : other ≠ key)
    (hvalue : (s.cache.storeInMemory key kept).caffeineCache other = some value) :
    s.cache.mapDbMap other = some value ∨
      (s.move thread .idle (s.cache.storeInMemory key kept)).OnKey other := by
  rw [Cache.storeInMemory_ne _ _ hother] at hvalue
  exact (h other value hvalue).imp id (onKey_move_of_not_on hcall)

/-- The memory half of an `invalidate` leaves nothing that could be stale. -/
theorem coherent_invalidateInMemory (h : Coherent s) (hcall : s.calls thread = .invalidating key) :
    Coherent (s.move thread .idle (s.cache.storeInMemory key none)) := by
  intro other value hvalue
  have hother : other ≠ key := by
    rintro rfl
    cases (s.cache.storeInMemory_self other none).symm.trans hvalue
  refine coherent_storeInMemory_ne h ?_ hother hvalue
  rw [hcall]
  exact hother.symm

/-- What the memory half of a `put` leaves has to be on disk, or another call has to replace it. -/
theorem coherent_putInMemory_iff (h : Coherent s) {value : V}
    (hcall : s.calls thread = .putting key value) :
    Coherent (s.move thread .idle (s.cache.storeInMemory key (some value))) ↔
      s.cache.mapDbMap key = some value ∨ s.OnApart thread key := by
  have hidle : (s.move thread .idle (s.cache.storeInMemory key (some value))).OnKey key ↔
      s.OnApart thread key := onKey_move_iff.trans (or_iff_right id)
  constructor
  · intro hput
    exact (hput key value (s.cache.storeInMemory_self key (some value))).imp id hidle.mp
  · intro hfresh other kept hkept
    by_cases hother : other = key
    · subst hother
      obtain rfl := Option.some.inj
        ((s.cache.storeInMemory_self other (some value)).symm.trans hkept)
      exact hfresh.imp id hidle.mpr
    · refine coherent_storeInMemory_ne h ?_ hother hkept
      rw [hcall]
      exact Ne.symm hother

/-- A step keeps coherence exactly if it is not a late `put`. -/
theorem coherent_step_iff (h : Coherent s) {event : Event τ K V}
    (hstep : step s event = some s') : Coherent s' ↔ FreshPut s event := by
  -- every step but the memory half of a `put` keeps coherence, whatever the other threads do
  cases event with
  | get thread key =>
    refine iff_of_true ?_ trivial
    rw [step] at hstep
    split at hstep
    · obtain rfl := Option.some.inj hstep
      exact coherent_get h key
    · cases hstep
  | putOnDisk thread key value =>
    refine iff_of_true ?_ trivial
    rw [step] at hstep
    split at hstep
    · next hidle =>
      obtain rfl := Option.some.inj hstep
      have hcall : (Call.putting key value).On key := rfl
      exact coherent_storeOnDisk h hidle hcall _
    · cases hstep
  | putInMemory thread =>
    rw [step] at hstep
    split at hstep
    · next key value hcall =>
      obtain rfl := Option.some.inj hstep
      rw [coherent_putInMemory_iff h hcall]
      constructor
      · intro hfresh other value' hother
        obtain ⟨rfl, rfl⟩ := Call.putting.inj (hcall.symm.trans hother)
        exact hfresh
      · exact fun hfresh => hfresh key value hcall
    · cases hstep
  | removeFromDisk thread key =>
    refine iff_of_true ?_ trivial
    rw [step] at hstep
    split at hstep
    · next hidle =>
      obtain rfl := Option.some.inj hstep
      have hcall : (Call.invalidating key : Call K V).On key := rfl
      exact coherent_storeOnDisk h hidle hcall _
    · cases hstep
  | invalidateInMemory thread =>
    refine iff_of_true ?_ trivial
    rw [step] at hstep
    split at hstep
    · next key hcall =>
      obtain rfl := Option.some.inj hstep
      exact coherent_invalidateInMemory h hcall
    · cases hstep
  | evict key =>
    refine iff_of_true ?_ trivial
    obtain rfl := Option.some.inj hstep
    exact coherent_evict h key

/-! ## Whole runs -/

omit [DecidableEq τ] [DecidableEq K] in
theorem coherent_opened (mapDbMap : K → Option V) :
    Coherent (State.opened mapDbMap : State τ K V) := by
  intro key value hvalue
  cases hvalue

/-- Coherence is kept throughout a run exactly if no `put` of the run is late. -/
theorem coherent_throughout_iff (mapDbMap : K → Option V) (events : List (Event τ K V)) :
    Transition.Throughout step Coherent (State.opened mapDbMap) events ↔
      Transition.Along step FreshPut (State.opened mapDbMap) events :=
  Transition.throughout_iff_along (J := fun _ => True) (fun _ _ _ _ _ => trivial)
    (fun _ _ _ _ h hstep => coherent_step_iff h hstep) trivial (coherent_opened mapDbMap)

omit [DecidableEq τ] in
/-- Where no call is in progress, nothing in memory is still going to be replaced. -/
theorem Coherent.settled (h : Coherent s) : Settled s := by
  intro hquiescent
  have hagree : s.cache.TiersAgree := by
    intro key value hvalue
    refine (h key value hvalue).resolve_right ?_
    rintro ⟨thread, hthread⟩
    rw [hquiescent thread] at hthread
    exact hthread
  exact ⟨hagree, hagree.get_eq⟩

/-- As long as no `put` is late, the tiers agree whenever no call is in progress. -/
theorem settled_of_freshPuts (mapDbMap : K → Option V) (events : List (Event τ K V))
    (hfresh : Transition.Along step FreshPut (State.opened mapDbMap) events) :
    Transition.Throughout step Settled (State.opened mapDbMap) events :=
  ((coherent_throughout_iff mapDbMap events).mpr hfresh).imp fun _ => Coherent.settled

/-! ## Calls that do not overlap -/

/-- A call that changes a key begins when no other call on that key is in progress. -/
def Serialised (s : State τ K V) : Event τ K V → Prop
  | .putOnDisk _ key _ => ¬ s.OnKey key
  | .removeFromDisk _ key => ¬ s.OnKey key
  | _ => True

/-- What a thread is putting is on disk. -/
def PutsOnDisk (s : State τ K V) : Prop :=
  ∀ thread key value, s.calls thread = .putting key value → s.cache.mapDbMap key = some value

omit [DecidableEq K] in
/-- What the other threads are putting has to stay on disk, and what the thread is putting now has
to be there. -/
theorem PutsOnDisk.move (h : PutsOnDisk s)
    (hothers : ∀ other, s.OnApart thread other → cache.mapDbMap other = s.cache.mapDbMap other)
    (hcall : ∀ key value, call = .putting key value → cache.mapDbMap key = some value) :
    PutsOnDisk (s.move thread call cache) := by
  intro other key value hother
  by_cases hthread : other = thread
  · subst hthread
    exact hcall key value (calls_move_self.symm.trans hother)
  · have hputting : s.calls other = .putting key value := (calls_move_ne hthread).symm.trans hother
    have hon : (s.calls other).On key := by
      rw [hputting]
      exact rfl
    show cache.mapDbMap key = some value
    rw [hothers key ⟨other, hthread, hon⟩]
    exact h other key value hputting

/-- On disk a call changes only its own key, on which no other call is in progress. -/
theorem mapDbMap_of_onApart (hkey : ¬ s.OnKey key) {stored : Option V} {other : K}
    (hother : s.OnApart thread other) :
    (s.cache.storeOnDisk key stored).mapDbMap other = s.cache.mapDbMap other := by
  apply Cache.storeOnDisk_ne
  rintro rfl
  exact hkey ((onKey_iff thread).mpr (Or.inr hother))

/-- A call that waits for the others on its key leaves on disk what they are putting. -/
theorem putsOnDisk_step (h : PutsOnDisk s) {event : Event τ K V} (hserial : Serialised s event)
    (hstep : step s event = some s') : PutsOnDisk s' := by
  cases event with
  | get thread key =>
    rw [step] at hstep
    split at hstep
    · obtain rfl := Option.some.inj hstep
      intro other key' value hother
      show (s.cache.get key).2.mapDbMap key' = some value
      rw [Cache.get_mapDbMap]
      exact h other key' value hother
    · cases hstep
  | putOnDisk thread key value =>
    rw [step] at hstep
    split at hstep
    · obtain rfl := Option.some.inj hstep
      refine h.move (fun other => mapDbMap_of_onApart hserial) fun key' value' hcall => ?_
      obtain ⟨rfl, rfl⟩ := Call.putting.inj hcall
      exact s.cache.storeOnDisk_self key (some value)
    · cases hstep
  | removeFromDisk thread key =>
    rw [step] at hstep
    split at hstep
    · obtain rfl := Option.some.inj hstep
      refine h.move (fun other => mapDbMap_of_onApart hserial) fun key' value' hcall => ?_
      cases hcall
    · cases hstep
  | putInMemory thread =>
    rw [step] at hstep
    split at hstep
    · obtain rfl := Option.some.inj hstep
      exact h.move (fun _ _ => rfl) fun key value hcall => by cases hcall
    · cases hstep
  | invalidateInMemory thread =>
    rw [step] at hstep
    split at hstep
    · obtain rfl := Option.some.inj hstep
      exact h.move (fun _ _ => rfl) fun key value hcall => by cases hcall
    · cases hstep
  | evict key =>
    obtain rfl := Option.some.inj hstep
    exact h

/-- If the calls that change one key run one after the other, no `put` is late. -/
theorem freshPuts_of_serialised (mapDbMap : K → Option V) (events : List (Event τ K V))
    (hserial : Transition.Along step Serialised (State.opened mapDbMap) events) :
    Transition.Along step FreshPut (State.opened mapDbMap) events := by
  have hopened : PutsOnDisk (State.opened mapDbMap : State τ K V) := by
    intro thread key value hcall
    cases hcall
  refine hserial.imp_of_invariant (fun _ _ _ h => putsOnDisk_step h) ?_ hopened
  intro s event hs _
  cases event with
  | putInMemory thread => exact fun key value hcall => Or.inl (hs thread key value hcall)
  | _ => trivial

/-- The two halves of a `put` that runs alone are the method. -/
theorem run_put (hidle : s.calls thread = .idle) (key : K) (value : V) :
    Transition.run step s [.putOnDisk thread key value, .putInMemory thread] =
      some { s with cache := s.cache.put key value } := by
  have hcall : (s.move thread (.putting key value)
      (s.cache.storeOnDisk key (some value))).calls thread = .putting key value := calls_move_self
  have hdisk : step s (.putOnDisk thread key value) =
      some (s.move thread (.putting key value) (s.cache.storeOnDisk key (some value))) := by
    rw [step, hidle]
  rw [Transition.run_cons, hdisk, Option.bind_some, Transition.run_cons, step, hcall]
  show some _ = some _
  simp [State.move, Cache.put, ← hidle]

/-- The two halves of an `invalidate` that runs alone are the method. -/
theorem run_invalidate (hidle : s.calls thread = .idle) (key : K) :
    Transition.run step s [.removeFromDisk thread key, .invalidateInMemory thread] =
      some { s with cache := s.cache.invalidate key } := by
  have hcall : (s.move thread (.invalidating key)
      (s.cache.storeOnDisk key none)).calls thread = .invalidating key := calls_move_self
  have hdisk : step s (.removeFromDisk thread key) =
      some (s.move thread (.invalidating key) (s.cache.storeOnDisk key none)) := by
    rw [step, hidle]
  rw [Transition.run_cons, hdisk, Option.bind_some, Transition.run_cons, step, hcall]
  show some _ = some _
  simp [State.move, Cache.invalidate, ← hidle]

/-! ## A late put -/

/-- Threads 0 and 1 put on one key at the same time, in the same order on disk and in memory, and
thread 2 reads in between; then thread 0 invalidates the key while thread 1 puts on another one. -/
def overlapping : List (Event (Fin 3) ℕ ℕ) :=
  [.putOnDisk 0 7 1, .putOnDisk 1 7 2, .get 2 7, .putInMemory 0, .get 2 7, .putInMemory 1,
    .removeFromDisk 0 7, .putOnDisk 1 8 3, .evict 7, .invalidateInMemory 0, .putInMemory 1]

theorem settled_overlapping :
    Transition.Throughout step Settled (State.opened fun _ => none) overlapping ∧
      (Transition.run step (State.opened fun _ => none) overlapping).map
          (fun s => (s.cache.caffeineCache 7, s.cache.mapDbMap 7, s.cache.caffeineCache 8)) =
        some (none, none, some 3) := by
  constructor
  · apply settled_of_freshPuts
    decide +kernel
  · decide +kernel

/-- Thread 0 writes 1 to disk and thread 1 writes 2; thread 1 gets to memory first. -/
theorem not_settled_latePut :
    ¬ ∀ (events : List (Event ℕ ℕ ℕ)),
      Transition.Throughout step Settled (State.opened fun _ => none) events := by
  intro h
  have hrun : ∃ s : State ℕ ℕ ℕ, Transition.run step (State.opened fun _ => none)
      [.putOnDisk 0 7 1, .putOnDisk 1 7 2, .putInMemory 1, .putInMemory 0] = some s ∧
        s.calls = update (update (update (update (fun _ => .idle) 0 (.putting 7 1)) 1
          (.putting 7 2)) 1 .idle) 0 .idle ∧
        s.cache.caffeineCache 7 = some 1 ∧ s.cache.mapDbMap 7 = some 2 := ⟨_, rfl, rfl, rfl, rfl⟩
  obtain ⟨s, hrun, hcalls, hmemory, hdisk⟩ := hrun
  have hquiescent : s.Quiescent := by
    intro thread
    rw [hcalls]
    by_cases hthread : thread = 0 ∨ thread = 1
    · rcases hthread with rfl | rfl <;> rfl
    · obtain ⟨h₀, h₁⟩ := not_or.mp hthread
      rw [update_of_ne h₀, update_of_ne h₁, update_of_ne h₁, update_of_ne h₀]
  obtain ⟨hagree, -⟩ :=
    Transition.throughout_iff_initial.mp (h _) _ s (List.prefix_refl _) hrun hquiescent
  cases hdisk.symm.trans (hagree 7 1 hmemory)

end Caching
