import JavaExamples.Common.LinkedHashMap
import JavaExamples.Togglz.JdbcRepository
import JavaExamples.Togglz.TimedCache

/-!
# The togglz stack

`UserSwitchStateRepository` over `CachingStateRepository` over `JDBCStreamedStateRepository`, and
`DefaultUserFeatureManager.isActive` on top. The state of a feature is an object,
`StreamFeatureState`, that loads parameters when they are asked for and remembers them; the caching
repository remembers these objects.

* `Database.active`: what `isActive` should return, read off the tables.
* `World.Inv`: every cached object and everything it remembers agrees with the tables.
* `isActive_returns`: under the invariant `isActive` returns `Database.active`.
-/

namespace Togglz

open AutoCommit Program StreamedUserSwitchActivationStrategy

/-- The object that `getFeatureState` returns; `cache` holds the parameters asked for, `null` ones
included. -/
structure StreamFeatureState where
  feature : Text
  enabled : Bool
  strategyId : Option Text
  cache : AList fun _ : Text => Option Text

/-- The database session, the objects by reference, the cache of the caching repository and the
clock, by the number of its readings. -/
structure World where
  session : Session Database
  objects : List StreamFeatureState
  cache : LRUTimedInMemoryCache ℕ
  clock : ℕ → ℕ
  readings : ℕ

/-- A process that has just started on a database. -/
def World.fresh (db : Database) (clock : ℕ → ℕ) : World :=
  { session := Session.open db none, objects := [], cache := ∅, clock, readings := 0 }

/-- Methods of the stack. -/
abbrev App := Program World Failure

/-- A call of the JDBC repository. -/
def jdbc {α : Type} (prog : Jdbc α) : App α :=
  ExceptT.mk fun w =>
    let (result, session) := perform prog w.session
    (result, { w with session })

namespace StreamFeatureState

def maxEntries : ℕ := 512

/-- The remembered value if it is not null, else the value in the database. -/
def getParameter (ref : ℕ) (name : Text) : App (Option Text) := do
  let object ← step fun w => (w.objects[ref]?, w)
  match object with
  | none => return none
  | some object =>
    let accessed := (LinkedHashMap.get name object.cache).2
    step fun w => ((), { w with
      objects := w.objects.set ref { object with cache := accessed } })
    match (LinkedHashMap.get name object.cache).1 with
    | some (some value) => return some value
    | _ =>
      let v ← jdbc (JDBCStreamedStateRepository.getParameter object.feature name)
      step fun w => ((), { w with
        objects := w.objects.set ref
          { object with cache := LinkedHashMap.put maxEntries name v accessed } })
      return v

end StreamFeatureState

namespace JDBCStreamedStateRepository

/-- A new object for the feature, `null` without a row. -/
def getFeatureState (feature : Text) : App (Option ℕ) := do
  match ← jdbc (fillFeatureAttrs feature) with
  | none => return none
  | some attrs =>
    step fun w => (some w.objects.length, { w with
      objects := w.objects ++
        [⟨feature, attrs.enabled, attrs.strategyId, ∅⟩] })

end JDBCStreamedStateRepository

namespace CachingStateRepository

/-- The cached object, or a new one that is cached. A cached `null` counts as not cached. -/
def getFeatureState (nextKey : List Text → Text) (feature : Text) : App (Option ℕ) := do
  let cached ← step fun w =>
    let (cached, cache) := LRUTimedInMemoryCache.get (w.clock w.readings) feature w.cache
    (cached, { w with cache, readings := w.readings + 1 })
  match cached with
  | some ref => return some ref
  | none =>
    let v ← JDBCStreamedStateRepository.getFeatureState feature
    step fun w => ((), { w with
      cache := LRUTimedInMemoryCache.put nextKey (w.clock w.readings) feature v w.cache
      readings := w.readings + 1 })
    return v

def setFeatureState (featureState : FeatureState) : App Unit := do
  jdbc (JDBCStreamedStateRepository.setFeatureState featureState)
  step fun w => ((), { w with cache := LRUTimedInMemoryCache.evict featureState.feature w.cache })

end CachingStateRepository

/-! ## Activation -/

/-- The state `isActive` works with: an object of the repository or a plain default state. -/
inductive GlobalState where
  | streamed (ref : ℕ)
  | plain (state : FeatureState)

namespace GlobalState

def isEnabled : GlobalState → App Bool
  | streamed ref => step fun w => ((w.objects[ref]?.map StreamFeatureState.enabled).getD false, w)
  | plain state => return state.enabled

def getStrategyId : GlobalState → App (Option Text)
  | streamed ref => step fun w => (w.objects[ref]?.bind StreamFeatureState.strategyId, w)
  | plain state => return state.strategyId

def getParameter (name : Text) : GlobalState → App (Option Text)
  | streamed ref => StreamFeatureState.getParameter ref name
  | plain state => return state.getParameter name

end GlobalState

/-- An activation strategy; the user is given by name, `none` for no user. -/
structure ActivationStrategy where
  id : Text
  isActive : GlobalState → Option Text → App Bool

namespace StreamedUserSwitchActivationStrategy

/-- Not restricted, or the user's activation parameter is "1". -/
def isActive (state : GlobalState) (user : Option Text) : App Bool := do
  let restriction ← state.getParameter RESTRICTED_FEATURE_PARAM
  if restriction.any (Text.equalsIgnoreCase RESTRICTED_FEATURE_VAL) then
    match user with
    | none => return false
    | some name =>
      let val ← state.getParameter (getUserActivationKey (some name))
      return val = some ACTIVATED_USER_VAL
  else return true

def strategy : ActivationStrategy := { id := getId, isActive }

end StreamedUserSwitchActivationStrategy

/-- What a manager is built from: the repository, the features enabled by default, and the known
strategies. -/
structure UserFeatureManager where
  getFeatureState : Text → App (Option ℕ)
  enabledByDefault : Text → Bool
  activationStrategies : List ActivationStrategy

/-- The strategy the manager chooses for an id. -/
def UserFeatureManager.findStrategy (manager : UserFeatureManager) (strategyId : Text) :
    Option ActivationStrategy :=
  manager.activationStrategies.find? fun strategy => Text.equalsIgnoreCase strategy.id strategyId

namespace DefaultUserFeatureManager

/-- A feature without a state has its default state, which has no strategy. -/
def isActive (manager : UserFeatureManager) (feature : Text) (user : Option Text) : App Bool := do
  let globalState : GlobalState ← match ← manager.getFeatureState feature with
    | some ref => pure (.streamed ref)
    | none => pure (.plain (FeatureState.new feature (manager.enabledByDefault feature)))
  if ← globalState.isEnabled then
    match ← globalState.getStrategyId with
    | none => return true
    | some [] => return true
    | some strategyId =>
      match manager.findStrategy strategyId with
      | some strategy => strategy.isActive globalState user
      | none => return false
  else return false

end DefaultUserFeatureManager

/-! ## Activation as the tables have it -/

/-- The feature is restricted to its users. -/
def Database.restricted (db : Database) (feature : Text) : Bool :=
  (db.getParameter feature RESTRICTED_FEATURE_PARAM).any
    (Text.equalsIgnoreCase RESTRICTED_FEATURE_VAL)

/-- The user's activation parameter is "1". -/
def Database.activated (db : Database) (feature : Text) (user : Option Text) : Bool :=
  user.any fun name =>
    db.getParameter feature (getUserActivationKey (some name)) = some ACTIVATED_USER_VAL

/-- A feature without a row is active if it is enabled by default, one with a row if it is enabled
and not restricted to others. -/
def Database.active (db : Database) (enabledByDefault : Text → Bool) (feature : Text)
    (user : Option Text) : Bool :=
  match db.features.lookup feature with
  | none => enabledByDefault feature
  | some row => row.attrs.enabled && (!db.restricted feature || db.activated feature user)

/-- The feature's row has the streamed strategy, if it is enabled at all. -/
def Database.Streamed (db : Database) (feature : Text) : Prop :=
  ∀ row ∈ db.features.lookup feature, row.attrs.enabled → row.codStrategy = some getId

/-- The manager finds the streamed strategy by its id. The file under `META-INF/services` does not
make it do so: it names a class of `com.mageddo.togglz.core.strategy`, which there is none of, as
the strategy is in `org.togglz.core.strategy`. -/
def UserFeatureManager.FindsStreamed (manager : UserFeatureManager) : Prop :=
  manager.findStrategy StreamedUserSwitchActivationStrategy.getId =
    some StreamedUserSwitchActivationStrategy.strategy

/-! ## The invariant of the caches -/

/-- The object at `ref` is the feature's row, and the values it remembers are those of the
tables. -/
def World.Current (w : World) (feature : Text) (ref : ℕ) : Prop :=
  ∃ object row, w.objects[ref]? = some object ∧ object.feature = feature ∧
    w.session.db.features.lookup feature = some row ∧
    object.enabled = row.attrs.enabled ∧ object.strategyId = row.codStrategy ∧
    ∀ name value, object.cache.lookup name = some (some value) →
      w.session.db.getParameter feature name = some value

/-- All statements succeed and all cached objects are current. -/
structure World.Inv (w : World) : Prop where
  failAt : w.session.failAt = none
  cached : ∀ feature entry, w.cache.lookup feature = some entry →
    ∀ ref ∈ entry.state, w.Current feature ref

theorem inv_fresh (db : Database) (clock : ℕ → ℕ) : (World.fresh db clock).Inv where
  failAt := rfl
  cached feature entry hentry := by simp [World.fresh] at hentry

/-- A step that changes neither the tables nor what is current. -/
structure World.ReadStep (w w' : World) : Prop where
  db : w'.session.db = w.session.db
  inv : w'.Inv
  current : ∀ feature ref, w.Current feature ref → w'.Current feature ref

section ReadSteps

variable {w w' w'' : World} {feature : Text} {ref : ℕ} {object : StreamFeatureState}

theorem World.ReadStep.trans (h : w.ReadStep w') (h' : w'.ReadStep w'') : w.ReadStep w'' where
  db := h'.db.trans h.db
  inv := h'.inv
  current feature ref hcurrent := h'.current feature ref (h.current feature ref hcurrent)

/-- A program on the tables that completes in the session of the world. -/
theorem perform_jdbc {α : Type} (prog : Jdbc α) (w : World) :
    perform (jdbc prog) w =
      ((perform prog w.session).1, { w with session := (perform prog w.session).2 }) := rfl

theorem jdbc_returns {α : Type} {prog : Jdbc α} {a : α} {db : Database}
    (hfail : w.session.failAt = none) (h : Completes prog w.session.db a db) :
    ∃ observed, Returns (jdbc prog) w a
      { w with session := { db, observed, failAt := none } } := by
  obtain ⟨observed, hreturns⟩ := h w.session.observed
  refine ⟨observed, ?_⟩
  have hsession : w.session =
      { db := w.session.db, observed := w.session.observed, failAt := none } := by
    rw [← hfail]
  rw [Returns, ← hsession] at hreturns
  rw [Returns, perform_jdbc, hreturns]

/-- What is current only depends on the objects and the tables. -/
theorem World.Current.congr (h : w.Current feature ref)
    (hobject : w'.objects[ref]? = w.objects[ref]?) (hdb : w'.session.db = w.session.db) :
    w'.Current feature ref := by
  obtain ⟨object, row, hobj, hfeature, hrow, henabled, hstrategy, hcache⟩ := h
  exact ⟨object, row, hobject.trans hobj, hfeature, hdb ▸ hrow, henabled, hstrategy, hdb ▸ hcache⟩

/-- A step keeps the invariant if it keeps what is current and caches only current objects. -/
theorem World.Inv.readStep (hinv : w.Inv) (hdb : w'.session.db = w.session.db)
    (hfail : w'.session.failAt = none)
    (hcurrent : ∀ feature ref, w.Current feature ref → w'.Current feature ref)
    (hcache : ∀ feature entry, w'.cache.lookup feature = some entry →
      w.cache.lookup feature = some entry ∨ ∀ ref ∈ entry.state, w'.Current feature ref) :
    w.ReadStep w' where
  db := hdb
  current := hcurrent
  inv :=
    { failAt := hfail
      cached := fun feature entry hentry =>
        (hcache feature entry hentry).elim
          (fun hentry ref href => hcurrent feature ref (hinv.cached feature entry hentry ref href))
          fun h => h }

/-- An object may come to remember more of the tables. -/
theorem World.Inv.readStep_set (hinv : w.Inv) (hobject : w.objects[ref]? = some object)
    (object' : StreamFeatureState)
    (hcache : ∀ name value, object'.cache.lookup name = some (some value) →
      object.cache.lookup name = some (some value) ∨
        w.session.db.getParameter object.feature name = some value)
    (hfeature : object'.feature = object.feature) (henabled : object'.enabled = object.enabled)
    (hstrategy : object'.strategyId = object.strategyId) (session : Session Database)
    (hdb : session.db = w.session.db) (hfail : session.failAt = none) :
    w.ReadStep { w with objects := w.objects.set ref object', session } := by
  have hcurrent : ∀ feature other, w.Current feature other →
      World.Current { w with objects := w.objects.set ref object', session } feature other := by
    intro feature other hcurrent
    -- only this object changes, and by the tables alone
    by_cases hother : ref = other
    · subst hother
      obtain ⟨found, row, hfound, rfl, hrow, hfoundEnabled, hfoundStrategy, hvalues⟩ := hcurrent
      obtain rfl : object = found := Option.some.inj (hobject.symm.trans hfound)
      refine ⟨object', row, ?_, hfeature, hdb ▸ hrow, henabled.trans hfoundEnabled,
        hstrategy.trans hfoundStrategy, fun name value hlookup => ?_⟩
      · rw [List.getElem?_set_self']
        simp [hobject]
      · show session.db.getParameter object.feature name = some value
        rw [hdb]
        exact (hcache name value hlookup).elim (hvalues name value) fun h => h
    · exact hcurrent.congr (List.getElem?_set_ne hother) hdb
  exact hinv.readStep hdb hfail hcurrent fun feature entry hentry => Or.inl hentry

/-- The object after an access to the parameter. -/
def StreamFeatureState.accessed (object : StreamFeatureState) (name : Text) : StreamFeatureState :=
  { object with cache := (LinkedHashMap.get name object.cache).2 }

def World.setObject (w : World) (ref : ℕ) (object : StreamFeatureState) : World :=
  { w with objects := w.objects.set ref object }

theorem World.setObject_self (hobject : w.objects[ref]? = some object)
    (object' : StreamFeatureState) : (w.setObject ref object').objects[ref]? = some object' := by
  rw [World.setObject, List.getElem?_set_self']
  simp [hobject]

/-- The end of `StreamFeatureState.getParameter`, which reads the tables. -/
def loadParameter (ref : ℕ) (object : StreamFeatureState) (name : Text) : App (Option Text) := do
  let v ← jdbc (JDBCStreamedStateRepository.getParameter object.feature name)
  step fun w => ((), w.setObject ref
    { object with cache := LinkedHashMap.put StreamFeatureState.maxEntries name v object.cache })
  return v

/-- The tables are read unless a value is remembered. -/
theorem perform_getParameter (hobject : w.objects[ref]? = some object) (name : Text) :
    perform (StreamFeatureState.getParameter ref name) w =
      match (object.cache.lookup name).join with
      | some value => (.ok (some value), w.setObject ref (object.accessed name))
      | none =>
        perform (loadParameter ref (object.accessed name) name)
          (w.setObject ref (object.accessed name)) := by
  rw [StreamFeatureState.getParameter, perform_bind, perform_step, hobject]
  simp only [perform_bind, perform_step, LinkedHashMap.get_fst]
  rcases object.cache.lookup name with _ | _ | value <;> rfl

theorem loadParameter_reads (hfail : w.session.failAt = none) (ref : ℕ)
    (object : StreamFeatureState) (name : Text) :
    ∃ observed, Returns (loadParameter ref object name) w
      (w.session.db.getParameter object.feature name)
      { w.setObject ref { object with
          cache := LinkedHashMap.put StreamFeatureState.maxEntries name
            (w.session.db.getParameter object.feature name) object.cache } with
        session := ⟨w.session.db, observed, none⟩ } := by
  have hread : Completes (JDBCStreamedStateRepository.getParameter object.feature name)
      w.session.db (w.session.db.getParameter object.feature name) w.session.db :=
    Completes.execute rfl
  obtain ⟨observed, hjdbc⟩ := jdbc_returns hfail hread
  exact ⟨observed, hjdbc.bind (Returns.bind (Returns.step _ _) (Returns.pure _ _))⟩

/-- A parameter that is not remembered is read from the tables and remembered. -/
theorem loadParameter_returns (hinv : w.Inv) (hobject : w.objects[ref]? = some object)
    (name : Text) :
    ∃ w', Returns (loadParameter ref object name) w (w.session.db.getParameter object.feature name)
      w' ∧ w.ReadStep w' := by
  obtain ⟨observed, hload⟩ := loadParameter_reads hinv.failAt ref object name
  refine ⟨_, hload, hinv.readStep_set hobject { object with
      cache := LinkedHashMap.put StreamFeatureState.maxEntries name
        (w.session.db.getParameter object.feature name) object.cache }
    ?_ rfl rfl rfl ⟨w.session.db, observed, none⟩ rfl rfl⟩
  intro other value hlookup
  rcases LinkedHashMap.eq_or_lookup_of_lookup_put hlookup with ⟨rfl, hvalue⟩ | hlookup
  · exact Or.inr hvalue.symm
  · exact Or.inl hlookup

/-- A current object returns the parameters of the tables. -/
theorem getParameter_returns (hinv : w.Inv) (hcurrent : w.Current feature ref) (name : Text) :
    ∃ w', Returns (StreamFeatureState.getParameter ref name) w
      (w.session.db.getParameter feature name) w' ∧ w.ReadStep w' := by
  obtain ⟨object, row, hobject, rfl, -, -, -, hvalues⟩ := hcurrent
  -- the access moves the entry of the parameter, but changes no value
  have hread₁ : w.ReadStep (w.setObject ref (object.accessed name)) := by
    refine hinv.readStep_set hobject (object.accessed name) (fun other value hlookup => Or.inl ?_)
      rfl rfl rfl w.session rfl hinv.failAt
    rwa [StreamFeatureState.accessed, LinkedHashMap.lookup_get] at hlookup
  simp only [Returns, perform_getParameter hobject]
  cases hcached : (object.cache.lookup name).join with
  | none =>
    obtain ⟨w₂, hload, hread₂⟩ :=
      loadParameter_returns hread₁.inv (World.setObject_self hobject (object.accessed name)) name
    exact ⟨w₂, hload, hread₁.trans hread₂⟩
  | some value =>
    rw [hvalues name value (Option.join_eq_some_iff.mp hcached)]
    exact ⟨_, rfl, hread₁⟩

/-- A current object has the flag of the row. -/
theorem isEnabled_returns {row : FeatureRow} (hcurrent : w.Current feature ref)
    (hrow : w.session.db.features.lookup feature = some row) :
    Returns (GlobalState.isEnabled (.streamed ref)) w row.attrs.enabled w := by
  obtain ⟨object, found, hobject, -, hfound, henabled, -⟩ := hcurrent
  obtain rfl := Option.some.inj (hfound.symm.trans hrow)
  rw [GlobalState.isEnabled, Returns, perform_step, hobject, ← henabled]
  rfl

/-- And its strategy. -/
theorem getStrategyId_returns {row : FeatureRow} (hcurrent : w.Current feature ref)
    (hrow : w.session.db.features.lookup feature = some row) :
    Returns (GlobalState.getStrategyId (.streamed ref)) w row.codStrategy w := by
  obtain ⟨object, found, hobject, -, hfound, -, hstrategy, -⟩ := hcurrent
  obtain rfl := Option.some.inj (hfound.symm.trans hrow)
  rw [GlobalState.getStrategyId, Returns, perform_step, hobject, ← hstrategy]
  rfl

/-- A new object for a feature with a row is current, and a feature without one has none. -/
theorem jdbcGetFeatureState_returns (hinv : w.Inv) (feature : Text) :
    ∃ result w', Returns (JDBCStreamedStateRepository.getFeatureState feature) w result w' ∧
      w.ReadStep w' ∧ (result = none → w.session.db.features.lookup feature = none) ∧
      ∀ ref ∈ result, w'.Current feature ref := by
  have hfill : Completes (JDBCStreamedStateRepository.fillFeatureAttrs feature) w.session.db
      ((w.session.db.features.lookup feature).map FeatureRow.attrs) w.session.db :=
    Completes.execute rfl
  obtain ⟨observed, hjdbc⟩ := jdbc_returns hinv.failAt hfill
  cases hrow : w.session.db.features.lookup feature with
  | none =>
    rw [hrow] at hjdbc
    refine ⟨none, _, hjdbc.bind (Returns.pure _ _), ?_, fun _ => rfl, by simp⟩
    exact hinv.readStep rfl rfl (fun other ref hcurrent => hcurrent.congr rfl rfl)
      fun other entry hentry => Or.inl hentry
  | some row =>
    rw [hrow] at hjdbc
    refine ⟨some w.objects.length, _, hjdbc.bind (Returns.step _ _), ?_, by simp, ?_⟩
    · refine hinv.readStep rfl rfl (fun other ref hcurrent => hcurrent.congr ?_ rfl)
        fun other entry hentry => Or.inl hentry
      -- the new object goes to the end, so that all references stay valid
      obtain ⟨object, -, hobject, -⟩ := hcurrent
      exact List.getElem?_append_left (List.getElem?_eq_some_iff.mp hobject).1
    · rintro ref href
      obtain rfl := Option.some.inj href
      -- it is a copy of the row that remembers nothing yet
      exact ⟨_, row, List.getElem?_concat_length, rfl, hrow, rfl, rfl, by simp⟩

/-- The strategy decides by the tables. -/
theorem strategyIsActive_returns (hinv : w.Inv) (hcurrent : w.Current feature ref)
    (user : Option Text) :
    ∃ w', Returns (StreamedUserSwitchActivationStrategy.isActive (.streamed ref) user) w
      (!w.session.db.restricted feature || w.session.db.activated feature user) w' ∧
      w.ReadStep w' := by
  obtain ⟨w₁, hrestriction, hread₁⟩ := getParameter_returns hinv hcurrent RESTRICTED_FEATURE_PARAM
  -- the user is only looked at where the feature is restricted
  cases hrestricted : w.session.db.restricted feature with
  | false =>
    refine ⟨w₁, Returns.bind hrestriction ?_, hread₁⟩
    rw [if_neg (by rw [← Database.restricted, hrestricted]; simp)]
    exact Returns.pure _ _
  | true =>
    cases user with
    | none =>
      refine ⟨w₁, Returns.bind hrestriction ?_, hread₁⟩
      rw [if_pos (by rw [← Database.restricted, hrestricted])]
      exact Returns.pure _ _
    | some user =>
      obtain ⟨w₂, hval, hread₂⟩ := getParameter_returns hread₁.inv
        (hread₁.current feature ref hcurrent) (getUserActivationKey (some user))
      refine ⟨w₂, Returns.bind hrestriction ?_, hread₁.trans hread₂⟩
      rw [if_pos (by rw [← Database.restricted, hrestricted])]
      rw [hread₁.db] at hval
      exact hval.bind (Returns.pure _ _)

/-- What the manager needs of its repository: current objects, and none for features without a
row. -/
def UserFeatureManager.ReadsCurrent (manager : UserFeatureManager) : Prop :=
  ∀ (w : World) (feature : Text), w.Inv →
    ∃ result w', Returns (manager.getFeatureState feature) w result w' ∧ w.ReadStep w' ∧
      (result = none → w.session.db.features.lookup feature = none) ∧
      ∀ ref ∈ result, w'.Current feature ref

/-- `isActive` returns what the tables say, and changes nothing but caches. -/
theorem isActive_returns {manager : UserFeatureManager} (hfinds : manager.FindsStreamed)
    (hreads : manager.ReadsCurrent) (hinv : w.Inv) (hstreamed : w.session.db.Streamed feature)
    (user : Option Text) :
    ∃ w', Returns (DefaultUserFeatureManager.isActive manager feature user) w
      (w.session.db.active manager.enabledByDefault feature user) w' ∧ w.ReadStep w' := by
  obtain ⟨result, w₁, hget, hread₁, hnone, hcurrent⟩ := hreads w feature hinv
  cases result with
  | none =>
    refine ⟨w₁, hget.bind (Returns.bind (Returns.pure _ _) ?_), hread₁⟩
    -- the default state has no strategy, so that its flag decides
    rw [Database.active, hnone rfl]
    cases manager.enabledByDefault feature <;> rfl
  | some ref =>
    obtain ⟨-, row, -, -, hrow, -⟩ := hcurrent ref rfl
    -- the object is current: its flag and its strategy are those of the row
    have hisEnabled := isEnabled_returns (hcurrent ref rfl) hrow
    have hgetStrategy := getStrategyId_returns (hcurrent ref rfl) hrow
    rw [hread₁.db] at hrow
    have hactive : w.session.db.active manager.enabledByDefault feature user =
        (row.attrs.enabled &&
          (!w.session.db.restricted feature || w.session.db.activated feature user)) := by
      rw [Database.active, hrow]
    rw [hactive]
    -- a disabled row is not asked for its strategy, which may be any
    cases hflag : row.attrs.enabled with
    | false =>
      refine ⟨w₁, hget.bind (Returns.bind (Returns.pure _ _) (hisEnabled.bind ?_)), hread₁⟩
      rw [hflag]
      exact Returns.pure _ _
    | true =>
      obtain ⟨w₂, hdecide, hread₂⟩ :=
        strategyIsActive_returns hread₁.inv (hcurrent ref rfl) user
      rw [hread₁.db] at hdecide
      refine ⟨w₂, hget.bind (Returns.bind (Returns.pure _ _) (hisEnabled.bind ?_)),
        hread₁.trans hread₂⟩
      rw [hflag, if_pos rfl]
      refine hgetStrategy.bind ?_
      rw [hstreamed row hrow hflag]
      show Returns (match manager.findStrategy getId with
        | some strategy => strategy.isActive (GlobalState.streamed ref) user
        | none => pure false) w₁ _ w₂
      rw [hfinds]
      exact hdecide

end ReadSteps

end Togglz
