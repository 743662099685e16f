import Mathlib.Data.List.AList
import JavaExamples.Common.Text

/-!
# Feature states and the user switch

A `FeatureState` with its parameters, and `UserSwitchStateRepository`, which hands a state on to the
repository behind it one parameter at a time. Two parameters are commands: `sw-add` and `sw-remove`
name a user, whose activation parameter is written instead.

* `writtenKey`, `writtenValue`: the parameter that one parameter of a call turns into.
-/

namespace Togglz

/-- A plain `FeatureState`. The order of the parameters is the order its names are iterated in. -/
structure FeatureState where
  feature : Text
  enabled : Bool
  strategyId : Option Text
  parameters : AList fun _ : Text => Text

namespace FeatureState

/-- `new FeatureState(feature, enabled)`. -/
def new (feature : Text) (enabled : Bool) : FeatureState :=
  { feature, enabled, strategyId := none, parameters := ∅ }

def getParameterNames (state : FeatureState) : List Text := state.parameters.keys

def getParameter (state : FeatureState) (name : Text) : Option Text := state.parameters.lookup name

/-- A `null` value removes the parameter. -/
def setParameter (state : FeatureState) (name : Text) : Option Text → FeatureState
  | some value => { state with parameters := state.parameters.insert name value }
  | none => { state with parameters := state.parameters.erase name }

end FeatureState

namespace StreamedUserSwitchActivationStrategy

def getId : Text := "StreamedUserSwitchActivationStrategy".toList

def RESTRICTED_FEATURE_PARAM : Text := "sw-state".toList
def ADD_PARAM_KEY : Text := "sw-add".toList
def REMOVE_PARAM_KEY : Text := "sw-remove".toList

def ACTIVATED_USER_VAL : Text := "1".toList
def DEACTIVATED_USER_VAL : Text := "0".toList
def RESTRICTED_FEATURE_VAL : Text := "restricted".toList

/-- What the keys of users end in. -/
def userSuffix : Text := "-sw".toList

/-- `String.format("%s-sw", user)`, which writes `null` as `null`. -/
def getUserActivationKey (user : Option Text) : Text := user.getD "null".toList ++ userSuffix

end StreamedUserSwitchActivationStrategy

open StreamedUserSwitchActivationStrategy

namespace UserSwitchStateRepository

/-- The state without its parameters. -/
def copy (featureState : FeatureState) : FeatureState :=
  { FeatureState.new featureState.feature featureState.enabled with
    strategyId := featureState.strategyId }

/-- The loop body of `setFeatureState` up to the call of the repository. -/
def tmpState (featureState : FeatureState) (parameterName : Text) : FeatureState :=
  if Text.equalsIgnoreCase parameterName ADD_PARAM_KEY then
    (copy featureState).setParameter
      (getUserActivationKey (featureState.getParameter parameterName)) (some ACTIVATED_USER_VAL)
  else if Text.equalsIgnoreCase parameterName REMOVE_PARAM_KEY then
    (copy featureState).setParameter
      (getUserActivationKey (featureState.getParameter parameterName)) (some DEACTIVATED_USER_VAL)
  else (copy featureState).setParameter parameterName (featureState.getParameter parameterName)

/-- One call of the repository behind for each parameter, and one for a state without any. -/
def setFeatureState {m : Type → Type} [Monad m] (stateRepository : FeatureState → m Unit)
    (featureState : FeatureState) : m Unit := do
  -- a state without parameters is handed on as it is
  if featureState.getParameterNames.isEmpty then stateRepository featureState
  forM featureState.getParameterNames fun parameterName =>
    stateRepository (tmpState featureState parameterName)

end UserSwitchStateRepository

/-! ## What is written -/

/-- The parameter written for the parameter `name` of a call. -/
def writtenKey (featureState : FeatureState) (name : Text) : Text :=
  if Text.equalsIgnoreCase name ADD_PARAM_KEY ∨ Text.equalsIgnoreCase name REMOVE_PARAM_KEY then
    getUserActivationKey (featureState.getParameter name)
  else name

/-- Its value. -/
def writtenValue (featureState : FeatureState) (name : Text) : Option Text :=
  if Text.equalsIgnoreCase name ADD_PARAM_KEY then some ACTIVATED_USER_VAL
  else if Text.equalsIgnoreCase name REMOVE_PARAM_KEY then some DEACTIVATED_USER_VAL
  else featureState.getParameter name

/-- One parameter becomes one parameter. -/
theorem tmpState_eq (featureState : FeatureState) (name : Text) :
    UserSwitchStateRepository.tmpState featureState name =
      (UserSwitchStateRepository.copy featureState).setParameter (writtenKey featureState name)
        (writtenValue featureState name) := by
  unfold UserSwitchStateRepository.tmpState writtenKey writtenValue
  split_ifs <;> simp_all

/-- A name of a state has a value. -/
theorem exists_getParameter {featureState : FeatureState} {name : Text}
    (h : name ∈ featureState.getParameterNames) :
    ∃ value, featureState.getParameter name = some value := by
  obtain ⟨value, hvalue⟩ := Option.isSome_iff_exists.mp
    (AList.lookup_isSome.mpr (AList.mem_keys.mp h))
  exact ⟨value, hvalue⟩

theorem mem_getParameterNames {featureState : FeatureState} {name value : Text}
    (h : featureState.getParameter name = some value) : name ∈ featureState.getParameterNames :=
  AList.mem_keys.mp (AList.lookup_isSome.mp (by rw [FeatureState.getParameter] at h; rw [h]; rfl))

/-- No call writes null. -/
theorem exists_writtenValue {featureState : FeatureState} {name : Text}
    (h : name ∈ featureState.getParameterNames) :
    ∃ value, writtenValue featureState name = some value := by
  unfold writtenValue
  split_ifs
  · exact ⟨_, rfl⟩
  · exact ⟨_, rfl⟩
  · exact exists_getParameter h

/-- What the repository behind gets has one parameter. -/
theorem getParameterNames_tmpState {featureState : FeatureState} {name : Text}
    (h : name ∈ featureState.getParameterNames) :
    (UserSwitchStateRepository.tmpState featureState name).getParameterNames =
      [writtenKey featureState name] := by
  obtain ⟨value, hvalue⟩ := exists_writtenValue h
  rw [tmpState_eq, hvalue]
  rfl

theorem getParameter_tmpState {featureState : FeatureState} {name : Text} :
    (UserSwitchStateRepository.tmpState featureState name).getParameter
      (writtenKey featureState name) = writtenValue featureState name := by
  rw [tmpState_eq]
  cases writtenValue featureState name with
  | none => exact AList.lookup_erase _ _
  | some value => exact AList.lookup_insert _

@[simp]
theorem feature_tmpState (featureState : FeatureState) (name : Text) :
    (UserSwitchStateRepository.tmpState featureState name).feature = featureState.feature := by
  rw [tmpState_eq]
  cases writtenValue featureState name <;> rfl

theorem userSuffix_suffix_getUserActivationKey (user : Option Text) :
    userSuffix <:+ getUserActivationKey user := List.suffix_append _ _

/-- The restriction is not a user's key. -/
theorem restricted_ne_getUserActivationKey (user : Option Text) :
    RESTRICTED_FEATURE_PARAM ≠ getUserActivationKey user := by
  intro h
  -- a user's key ends in `-sw`, and `sw-state` does not
  have hsuffix := userSuffix_suffix_getUserActivationKey user
  rw [← h] at hsuffix
  revert hsuffix
  decide

/-- Only the parameter `sw-state` itself is written as `sw-state`. -/
theorem writtenKey_eq_restricted {featureState : FeatureState} {name : Text}
    (h : writtenKey featureState name = RESTRICTED_FEATURE_PARAM) :
    name = RESTRICTED_FEATURE_PARAM := by
  unfold writtenKey at h
  -- a command writes the key of a user
  split_ifs at h
  · exact absurd h.symm (restricted_ne_getUserActivationKey _)
  · exact h

theorem writtenKey_restricted {featureState : FeatureState} :
    writtenKey featureState RESTRICTED_FEATURE_PARAM = RESTRICTED_FEATURE_PARAM :=
  if_neg (by decide)

theorem writtenValue_restricted {featureState : FeatureState} :
    writtenValue featureState RESTRICTED_FEATURE_PARAM =
      featureState.getParameter RESTRICTED_FEATURE_PARAM := by
  unfold writtenValue
  rw [if_neg (by decide), if_neg (by decide)]

end Togglz
