import JavaExamples.Common.Transition
import JavaExamples.Togglz.JdbcRepository
import JavaExamples.Togglz.TimedCache
import Mathlib.Data.Fintype.Sum

/-!
# Concurrent callers of the caching repository

Any number of threads call `getFeatureState` and `setFeatureState` of a `CachingStateRepository`.
`getFeatureState` looks into the cache and on a miss reads the repository and then puts what it
read; `setFeatureState` writes the repository and then evicts. The steps of different threads
interleave.

* `StateRepository`: the repository behind the cache; `jdbcRepository` is one.
* `Coherent`: a cached state is the stored one, or somebody is about to evict it.
* `coherent_throughout_iff`: runs keep this exactly if no `put` comes too late, `FreshPut`.
* `cached_eq_stored_of_freshPut`: in such runs the cache agrees with the repository when nobody is
  in a call.
* `exists_stale`: a write and its eviction between a read and its `put` leave a stale state.
-/

namespace Togglz

/-- A repository with contents in `ρ` that is written states in `ς` and returns states in `α`. A
write concerns the feature of the state alone. -/
structure StateRepository (ρ ς α : Type) where
  feature : ς → Text
  getFeatureState : ρ → Text → Option α
  setFeatureState : ρ → ς → ρ
  getFeatureState_setFeatureState_ne : ∀ stored featureState other, other ≠ feature featureState →
    getFeatureState (setFeatureState stored featureState) other = getFeatureState stored other

/-- Where a thread is. -/
inductive Position (α : Type) where
  | idle
  /-- In `getFeatureState`, after a miss. -/
  | missed (feature : Text)
  /-- In `getFeatureState`, with the state read from the repository. -/
  | loaded (feature : Text) (state : Option α)
  /-- In `setFeatureState`, after the write. -/
  | written (feature : Text)
deriving DecidableEq

/-- The repository, the cache and the positions of the threads `τ`. -/
structure CachingState (τ ρ α : Type) where
  stored : ρ
  cache : LRUTimedInMemoryCache α
  position : τ → Position α

/-- The next step of a thread. A step that uses the clock says what it shows, and `put` which key
the iterator of a full map comes upon. -/
inductive CachingStep (τ ς : Type) where
  | lookup (thread : τ) (feature : Text) (now : ℕ)
  | read (thread : τ)
  | put (thread : τ) (nextKey : List Text → Text) (now : ℕ)
  | write (thread : τ) (featureState : ς)
  | evict (thread : τ)

section System

variable {τ ρ ς α : Type} [DecidableEq τ] (repository : StateRepository ρ ς α)

/-- Empty cache, nobody in a call. -/
def CachingState.initial (stored : ρ) : CachingState τ ρ α :=
  { stored, cache := ∅, position := fun _ => .idle }

def CachingState.move (s : CachingState τ ρ α) (thread : τ) (position : Position α) :
    CachingState τ ρ α :=
  { s with position := Function.update s.position thread position }

/-- One step of `getFeatureState` or `setFeatureState` of `CachingStateRepository`. -/
def cachingStep (s : CachingState τ ρ α) : CachingStep τ ς → Option (CachingState τ ρ α)
  | .lookup thread feature now =>
    match s.position thread with
    | .idle =>
      let (cached, cache) := LRUTimedInMemoryCache.get now feature s.cache
      match cached with
      -- a hit ends the call
      | some _ => some { s with cache }
      | none => some ({ s with cache }.move thread (.missed feature))
    | _ => none
  | .read thread =>
    match s.position thread with
    | .missed feature =>
      some (s.move thread (.loaded feature (repository.getFeatureState s.stored feature)))
    | _ => none
  | .put thread nextKey now =>
    match s.position thread with
    | .loaded feature state =>
      let cache := LRUTimedInMemoryCache.put nextKey now feature state s.cache
      some ({ s with cache }.move thread .idle)
    | _ => none
  | .write thread featureState =>
    match s.position thread with
    | .idle =>
      let stored := repository.setFeatureState s.stored featureState
      some ({ s with stored }.move thread (.written (repository.feature featureState)))
    | _ => none
  | .evict thread =>
    match s.position thread with
    | .written feature =>
      some ({ s with cache := LRUTimedInMemoryCache.evict feature s.cache }.move thread .idle)
    | _ => none

/-- Nobody is in a call. -/
def CachingState.Quiescent (s : CachingState τ ρ α) : Prop := ∀ thread, s.position thread = .idle

/-- A write of the feature has yet to be followed by its eviction. -/
def CachingState.EvictionPending (s : CachingState τ ρ α) (feature : Text) : Prop :=
  ∃ thread, s.position thread = .written feature

/-- A cached state is the stored one, or is going to be evicted. -/
def Coherent (s : CachingState τ ρ α) : Prop :=
  ∀ feature entry, s.cache.lookup feature = some entry →
    entry.state = repository.getFeatureState s.stored feature ∨ s.EvictionPending feature

/-- If the step is a `put`, the repository still holds what was read, or an eviction is to come. -/
def FreshPut (s : CachingState τ ρ α) : CachingStep τ ς → Prop
  | .put thread _ _ => ∀ feature state, s.position thread = .loaded feature state →
      state = repository.getFeatureState s.stored feature ∨ s.EvictionPending feature
  | _ => True

variable {repository} {s s' : CachingState τ ρ α} {thread : τ} {feature : Text}

omit [DecidableEq τ] in
theorem freshPut_iff_of_loaded {state : Option α} {nextKey : List Text → Text} {now : ℕ}
    (hposition : s.position thread = .loaded feature state) :
    FreshPut repository s (.put thread nextKey now) ↔
      state = repository.getFeatureState s.stored feature ∨
        ∃ other, s.position other = .written feature := by
  constructor
  · exact fun h => h feature state hposition
  · intro h other state' hother
    obtain ⟨rfl, rfl⟩ := Position.loaded.inj (hposition.symm.trans hother)
    exact h

omit [DecidableEq τ] in
/-- Who has not read has nothing to put. -/
theorem freshPut_of_not_loaded {nextKey : List Text → Text} {now : ℕ}
    (hposition : ∀ feature state, s.position thread ≠ .loaded feature state) :
    FreshPut repository s (.put thread nextKey now) :=
  fun feature state hloaded => absurd hloaded (hposition feature state)

instance [Fintype τ] [DecidableEq α] :
    ∀ step : CachingStep τ ς, Decidable (FreshPut repository s step)
  | .put thread _ _ =>
    match hposition : s.position thread with
    | .loaded _ _ => decidable_of_iff _ (freshPut_iff_of_loaded hposition).symm
    | .idle => isTrue (freshPut_of_not_loaded (by simp [hposition]))
    | .missed _ => isTrue (freshPut_of_not_loaded (by simp [hposition]))
    | .written _ => isTrue (freshPut_of_not_loaded (by simp [hposition]))
  | .lookup _ _ _ => isTrue trivial
  | .read _ => isTrue trivial
  | .write _ _ => isTrue trivial
  | .evict _ => isTrue trivial

/-! ## What a step keeps -/

theorem move_position_self (position : Position α) :
    (s.move thread position).position thread = position := Function.update_self _ _ _

theorem move_position_ne {other : τ} (h : other ≠ thread) (position : Position α) :
    (s.move thread position).position other = s.position other := Function.update_of_ne h _ _

/-- A thread that moves on takes only its own eviction along. -/
theorem evictionPending_move {position : Position α}
    (hold : s.position thread ≠ .written feature) :
    (s.move thread position).EvictionPending feature ↔
      position = .written feature ∨ s.EvictionPending feature := by
  have hothers : (∃ other ≠ thread, s.position other = .written feature) ↔
      s.EvictionPending feature := by
    constructor
    · rintro ⟨other, -, hother⟩
      exact ⟨other, hother⟩
    · rintro ⟨other, hother⟩
      have hthread : other ≠ thread := by
        rintro rfl
        exact hold hother
      exact ⟨other, hthread, hother⟩
  rw [← hothers]
  exact Function.exists_update_iff s.position fun _ position => position = .written feature

/-- A step that caches nothing and writes nothing keeps coherence, if its thread was not to
evict. -/
theorem Coherent.move (h : Coherent repository s) {cache : LRUTimedInMemoryCache α}
    (hcache : ∀ other entry, cache.lookup other = some entry → s.cache.lookup other = some entry)
    (hold : ∀ other, s.position thread ≠ .written other) (position : Position α) :
    Coherent repository ({ s with cache }.move thread position) := by
  intro other entry hentry
  rcases h other entry (hcache other entry hentry) with hstored | hpending
  · exact Or.inl hstored
  · exact Or.inr ((evictionPending_move (s := { s with cache }) (hold other)).mpr (Or.inr hpending))

/-- What a `put` caches has to be the stored state, or an eviction has to follow. -/
theorem coherent_put_iff (h : Coherent repository s) {state : Option α}
    (hposition : s.position thread = .loaded feature state) (nextKey : List Text → Text) (now : ℕ) :
    Coherent repository ({ s with
        cache := LRUTimedInMemoryCache.put nextKey now feature state s.cache }.move thread .idle) ↔
      state = repository.getFeatureState s.stored feature ∨ s.EvictionPending feature := by
  let cache := LRUTimedInMemoryCache.put nextKey now feature state s.cache
  -- the thread goes idle and was not about to evict, so that the evictions stay the same
  have hpending : ∀ other, ({ s with cache }.move thread .idle).EvictionPending other ↔
      s.EvictionPending other := by
    intro other
    have hold : s.position thread ≠ .written other := by simp [hposition]
    have hidle : (Position.idle : Position α) ≠ .written other := by simp
    exact (evictionPending_move (s := { s with cache }) hold).trans (or_iff_right hidle)
  constructor
  · intro hput
    -- what is cached now is the state that was read
    rcases hput feature _ (LRUTimedInMemoryCache.lookup_put_self nextKey now state) with
      hstored | hnext
    · exact Or.inl hstored
    · exact Or.inr ((hpending feature).mp hnext)
  · intro hfresh other entry hentry
    rcases LRUTimedInMemoryCache.lookup_put hentry with ⟨rfl, rfl⟩ | hentry
    · exact hfresh.imp id (hpending other).mpr
    · exact (h other entry hentry).imp id (hpending other).mpr

/-- After a write the eviction is pending. -/
theorem coherent_write (h : Coherent repository s) (hposition : s.position thread = .idle)
    (featureState : ς) :
    Coherent repository ({ s with
        stored := repository.setFeatureState s.stored featureState }.move thread
          (.written (repository.feature featureState))) := by
  let stored := repository.setFeatureState s.stored featureState
  have hpending : ∀ other, ({ s with stored }.move thread
      (.written (repository.feature featureState))).EvictionPending other ↔
        (Position.written (repository.feature featureState) : Position α) = .written other ∨
          s.EvictionPending other := fun other =>
    evictionPending_move (s := { s with stored }) (by simp [hposition])
  intro other entry hentry
  -- of the written feature the entry may be stale, but the writer evicts it next
  by_cases hother : other = repository.feature featureState
  · exact Or.inr ((hpending other).mpr (Or.inl (by rw [hother])))
  · refine (h other entry hentry).imp (fun hstored => ?_) fun hlater =>
      (hpending other).mpr (Or.inr hlater)
    exact hstored.trans (repository.getFeatureState_setFeatureState_ne _ _ _ hother).symm

/-- An eviction removes what it was pending for. -/
theorem coherent_evict (h : Coherent repository s)
    (hposition : s.position thread = .written feature) :
    Coherent repository
      ({ s with cache := LRUTimedInMemoryCache.evict feature s.cache }.move thread .idle) := by
  let cache := LRUTimedInMemoryCache.evict feature s.cache
  intro other entry hentry
  -- what is still cached is of another feature, so that this eviction was not for it
  have hother : other ≠ feature := by
    rintro rfl
    have hnone : (LRUTimedInMemoryCache.evict other s.cache).lookup other = some entry := hentry
    rw [LRUTimedInMemoryCache.lookup_evict_self] at hnone
    cases hnone
  have hold : s.position thread ≠ .written other := by simp [hposition, Ne.symm hother]
  refine (h other entry (LRUTimedInMemoryCache.lookup_evict hentry)).imp id fun hpending => ?_
  exact (evictionPending_move (s := { s with cache }) hold).mpr (Or.inr hpending)

/-- A step keeps coherence exactly if it is not a late `put`. -/
theorem coherent_cachingStep_iff (h : Coherent repository s) {step : CachingStep τ ς}
    (hstep : cachingStep repository s step = some s') :
    Coherent repository s' ↔ FreshPut repository s step := by
  -- every step but `put` keeps coherence, whatever the other threads do
  cases step with
  | lookup thread feature now =>
    refine iff_of_true ?_ trivial
    rw [cachingStep] at hstep
    split at hstep
    · next hposition =>
      have hcache : ∀ other entry,
          (LRUTimedInMemoryCache.get now feature s.cache).2.lookup other = some entry →
            s.cache.lookup other = some entry := fun _ _ => LRUTimedInMemoryCache.lookup_get
      dsimp only at hstep
      split at hstep
      · obtain rfl := Option.some.inj hstep
        exact fun other entry hentry => h other entry (hcache other entry hentry)
      · obtain rfl := Option.some.inj hstep
        exact h.move hcache (by simp [hposition]) _
    · cases hstep
  | read thread =>
    refine iff_of_true ?_ trivial
    rw [cachingStep] at hstep
    split at hstep
    · next feature hposition =>
      obtain rfl := Option.some.inj hstep
      exact h.move (fun _ _ hentry => hentry) (by simp [hposition]) _
    · cases hstep
  | put thread nextKey now =>
    rw [cachingStep] at hstep
    split at hstep
    · next feature state hposition =>
      obtain rfl := Option.some.inj hstep
      rw [coherent_put_iff h hposition]
      constructor
      · intro hfresh other state' hloaded
        obtain ⟨rfl, rfl⟩ := Position.loaded.inj (hposition.symm.trans hloaded)
        exact hfresh
      · exact fun hfresh => hfresh feature state hposition
    · cases hstep
  | write thread featureState =>
    refine iff_of_true ?_ trivial
    rw [cachingStep] at hstep
    split at hstep
    · next hposition =>
      obtain rfl := Option.some.inj hstep
      exact coherent_write h hposition featureState
    · cases hstep
  | evict thread =>
    refine iff_of_true ?_ trivial
    rw [cachingStep] at hstep
    split at hstep
    · next feature hposition =>
      obtain rfl := Option.some.inj hstep
      exact coherent_evict h hposition
    · cases hstep

omit [DecidableEq τ] in
theorem coherent_initial (stored : ρ) :
    Coherent repository (CachingState.initial stored : CachingState τ ρ α) := by
  intro feature entry hentry
  simp [CachingState.initial] at hentry

/-- Coherence is kept throughout a run exactly if no `put` of the run comes too late. -/
theorem coherent_throughout_iff (stored : ρ) (steps : List (CachingStep τ ς)) :
    Transition.Throughout (cachingStep repository) (Coherent repository)
        (CachingState.initial stored : CachingState τ ρ α) steps ↔
      Transition.Along (cachingStep repository) (FreshPut repository)
        (CachingState.initial stored : CachingState τ ρ α) steps :=
  Transition.throughout_iff_along (J := fun _ => True) (fun _ _ _ _ _ => trivial)
    (fun _ _ _ _ h hstep => coherent_cachingStep_iff h hstep) trivial (coherent_initial stored)

/-- In every state of such a run in which nobody is in a call, what is cached is what is stored. -/
theorem cached_eq_stored_of_freshPut (repository : StateRepository ρ ς α) {stored : ρ}
    {steps : List (CachingStep τ ς)}
    (hfresh : Transition.Along (cachingStep repository) (FreshPut repository)
      (CachingState.initial stored) steps) :
    Transition.Throughout (cachingStep repository)
      (fun s => s.Quiescent → ∀ feature entry, s.cache.lookup feature = some entry →
        entry.state = repository.getFeatureState s.stored feature)
      (CachingState.initial stored : CachingState τ ρ α) steps := by
  have hcoherent := (coherent_throughout_iff stored steps).mpr hfresh
  rw [Transition.throughout_iff_initial] at hcoherent ⊢
  intro before s hbefore hrun hquiescent feature entry hentry
  -- where nobody is in a call no eviction is pending
  refine (hcoherent before s hbefore hrun feature entry hentry).resolve_right ?_
  rintro ⟨thread, hthread⟩
  rw [hquiescent thread] at hthread
  cases hthread

/-- A call that nobody overtakes has a fresh `put`. -/
theorem along_freshPut_of_alone (stored : ρ) (thread : τ) (feature : Text)
    (nextKey : List Text → Text) (now : ℕ) :
    Transition.Along (cachingStep repository) (FreshPut repository) (CachingState.initial stored)
      [.lookup thread feature now, .read thread, .put thread nextKey now] := by
  intro s₁ hlookup
  obtain rfl : (CachingState.initial stored).move thread (.missed feature) = s₁ :=
    Option.some.inj hlookup
  refine ⟨trivial, fun s₂ hread => ?_⟩
  rw [cachingStep, move_position_self] at hread
  obtain rfl := Option.some.inj hread
  refine ⟨trivial, fun s₃ _ => ⟨fun other state hloaded => ?_, trivial⟩⟩
  rw [move_position_self] at hloaded
  obtain ⟨rfl, rfl⟩ := Position.loaded.inj hloaded
  -- nothing was written since the read
  exact Or.inl rfl

/-! ## A late put -/

/-- `getFeatureState` in one thread, `setFeatureState` in another between its read and its `put`. -/
def overtaken (reader writer : τ) (feature : Text) (featureState : ς)
    (nextKey : List Text → Text) (now : ℕ) : List (CachingStep τ ς) :=
  [.lookup reader feature now, .read reader, .write writer featureState, .evict writer,
    .put reader nextKey now]

/-- The reader leaves what it read in the cache, though the repository holds something else now. -/
theorem exists_stale (repository : StateRepository ρ ς α) {reader writer : τ}
    (hthreads : reader ≠ writer) (stored : ρ) (featureState : ς) (nextKey : List Text → Text)
    (now : ℕ) :
    ∃ s, Transition.run (cachingStep repository) (CachingState.initial stored)
        (overtaken reader writer (repository.feature featureState) featureState nextKey now) =
          some s ∧
      s.Quiescent ∧
      s.cache.lookup (repository.feature featureState) =
        some { state := repository.getFeatureState stored (repository.feature featureState)
               timestamp := now } ∧
      s.stored = repository.setFeatureState stored featureState := by
  let feature := repository.feature featureState
  let s₀ : CachingState τ ρ α := CachingState.initial stored
  let s₁ := s₀.move reader (.missed feature)
  let s₂ := s₁.move reader (.loaded feature (repository.getFeatureState stored feature))
  let s₃ := { s₂ with stored := repository.setFeatureState stored featureState }.move writer
    (.written feature)
  let s₄ := { s₃ with cache := LRUTimedInMemoryCache.evict feature s₃.cache }.move writer .idle
  let s₅ := { s₄ with
    cache := LRUTimedInMemoryCache.put nextKey now feature
      (repository.getFeatureState stored feature) s₄.cache }.move reader .idle
  -- the cache is empty, and so the reader misses
  have hlookup : cachingStep repository s₀ (.lookup reader feature now) = some s₁ := rfl
  have hread : cachingStep repository s₁ (.read reader) = some s₂ := by
    rw [cachingStep, move_position_self]
    rfl
  have hwrite : cachingStep repository s₂ (.write writer featureState) = some s₃ := by
    rw [cachingStep, move_position_ne hthreads.symm, move_position_ne hthreads.symm]
    rfl
  -- there is nothing to evict yet: the reader has not put
  have hevict : cachingStep repository s₃ (.evict writer) = some s₄ := by
    rw [cachingStep, move_position_self]
  have hput : cachingStep repository s₄ (.put reader nextKey now) = some s₅ := by
    have hposition : s₄.position reader =
        .loaded feature (repository.getFeatureState stored feature) := by
      rw [move_position_ne hthreads]
      exact (move_position_ne hthreads _).trans (move_position_self _)
    rw [cachingStep, hposition]
  refine ⟨s₅, ?_, fun thread => ?_, LRUTimedInMemoryCache.lookup_put_self _ _ _, rfl⟩
  · simp only [overtaken, Transition.run_cons]
    rw [hlookup, Option.bind_some, hread, Option.bind_some, hwrite, Option.bind_some, hevict,
      Option.bind_some, hput]
    rfl
  · by_cases hreader : thread = reader
    · rw [hreader]
      exact move_position_self _
    · refine (move_position_ne hreader _).trans ?_
      by_cases hwriter : thread = writer
      · rw [hwriter]
        exact move_position_self _
      · -- no other thread has moved
        refine (move_position_ne hwriter _).trans ((move_position_ne hwriter _).trans ?_)
        exact (move_position_ne hreader _).trans (move_position_ne hreader _)

end System

/-! ## Over the JDBC repository -/

/-- The JDBC repository; what it returns is the flag and the strategy of the row. -/
def jdbcRepository : StateRepository Database FeatureState FeatureAttrs where
  feature := FeatureState.feature
  getFeatureState db feature := (db.features.lookup feature).map FeatureRow.attrs
  setFeatureState := Database.store
  getFeatureState_setFeatureState_ne db featureState other hother := by
    rw [lookup_features_store, if_neg hother]

/-- The feature "beta" with a flag. -/
def betaState (enabled : Bool) : FeatureState := FeatureState.new "beta".toList enabled

/-- A writer on the left and two readers on the right: what is put while a write is being made is
evicted after it, and later reads put what has been written. -/
def betaSteps : List (CachingStep (Unit ⊕ Bool) FeatureState) :=
  [.lookup (.inr false) "beta".toList 0, .write (.inl ()) (betaState false), .read (.inr false),
    .lookup (.inr true) "beta".toList 1, .put (.inr false) (fun keys => keys.headD []) 2,
    .evict (.inl ()), .read (.inr true), .put (.inr true) (fun keys => keys.headD []) 3,
    .write (.inl ()) (betaState true), .lookup (.inr false) "beta".toList 4, .evict (.inl ()),
    .lookup (.inr false) "beta".toList 5, .read (.inr false),
    .put (.inr false) (fun keys => keys.headD []) 6]

/-- At the end nobody is in a call, and the feature is cached as it was written last. -/
theorem cached_eq_stored_betaSteps :
    Transition.Throughout (cachingStep jdbcRepository)
        (fun s => s.Quiescent → ∀ feature entry, s.cache.lookup feature = some entry →
          entry.state = jdbcRepository.getFeatureState s.stored feature)
        (CachingState.initial (Database.empty.store (betaState true))) betaSteps ∧
      ((Transition.run (cachingStep jdbcRepository)
        (CachingState.initial (Database.empty.store (betaState true))) betaSteps).map
          fun s => (s.position (.inr false), (s.cache.lookup "beta".toList).map CacheEntry.state)) =
        some (.idle, some (some { enabled := true, strategyId := none })) := by
  constructor
  · apply cached_eq_stored_of_freshPut
    decide +kernel
  · decide +kernel

/-- A read that is overtaken by the call that disables the feature leaves it enabled in the
cache. -/
theorem stale_betaState :
    ¬∀ (steps : List (CachingStep ℕ FeatureState)) (s : CachingState ℕ Database FeatureAttrs),
      Transition.run (cachingStep jdbcRepository)
          (CachingState.initial (Database.empty.store (betaState true))) steps = some s →
        s.Quiescent → ∀ feature entry, s.cache.lookup feature = some entry →
          entry.state = jdbcRepository.getFeatureState s.stored feature := by
  intro h
  have hthreads : (0 : ℕ) ≠ 1 := by decide
  obtain ⟨s, hrun, hquiescent, hcached, hstored⟩ :=
    exists_stale jdbcRepository hthreads (Database.empty.store (betaState true)) (betaState false)
      (fun keys => keys.headD []) 0
  have hequal := h _ s hrun hquiescent _ _ hcached
  rw [hstored] at hequal
  cases hequal

end Togglz
