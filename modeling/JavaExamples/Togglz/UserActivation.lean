import JavaExamples.Common.LastWrite
import JavaExamples.Togglz.Activation

/-!
# Activation per user

Sequential runs of `setFeatureState` and `isActive` on the whole stack, `UserSwitchStateRepository`
over `CachingStateRepository` over `JDBCStreamedStateRepository`, on tables that are empty at first.

* `lookup_features_storeSwitched`, `getParameter_storeSwitched`: what one call leaves in the tables.
* `run_returns`: a run leaves the tables of its calls, whatever was cached and read in between.
* `isActiveAfter_eq`: after a run, `isActive` is decided by these tables.
* `userActivation`: after a run, a restricted feature is active for the users that were added last.
-/

namespace Togglz

open AutoCommit Program StreamedUserSwitchActivationStrategy

/-! ## Calls -/

namespace FeatureState

/-- The parameter is `sw-add` or `sw-remove`. -/
def IsCommand (name : Text) : Prop :=
  Text.equalsIgnoreCase name ADD_PARAM_KEY ∨ Text.equalsIgnoreCase name REMOVE_PARAM_KEY

instance (name : Text) : Decidable (IsCommand name) := inferInstanceAs (Decidable (_ ∨ _))

/-- The call names the user in `sw-add`. -/
def addsUser (user : Text) (featureState : FeatureState) : Bool :=
  featureState.getParameterNames.any fun name =>
    Text.equalsIgnoreCase name ADD_PARAM_KEY && featureState.getParameter name = some user

/-- The call names the user in `sw-remove`. -/
def removesUser (user : Text) (featureState : FeatureState) : Bool :=
  featureState.getParameterNames.any fun name =>
    Text.equalsIgnoreCase name REMOVE_PARAM_KEY && featureState.getParameter name = some user

/-- The calls considered: no user is both added and removed, and no parameter but the two commands
stands for a user. -/
structure WellFormed (featureState : FeatureState) : Prop where
  strategy : featureState.strategyId = some getId
  different : ∀ user, ¬(featureState.addsUser user = true ∧ featureState.removesUser user = true)
  others : ∀ name ∈ featureState.getParameterNames, ¬IsCommand name → ¬userSuffix <:+ name
  fits : featureState.SwitchFits

end FeatureState

section Call

variable {featureState : FeatureState} {db : Database} {feature user : Text}

end Call

/-! ## Runs -/

/-- A call on the stack. -/
inductive Event where
  | setFeatureState (featureState : FeatureState)
  | isActive (feature : Text) (user : Option Text)

/-- The state written by an event, if it writes. -/
def Event.call? : Event → Option FeatureState
  | setFeatureState featureState => some featureState
  | isActive _ _ => none

/-- The states written in a run. -/
def calls (events : List Event) : List FeatureState := events.filterMap Event.call?

/-- The states written for a feature. -/
def callsOn (feature : Text) (events : List Event) : List FeatureState :=
  (calls events).filter fun call => call.feature = feature

/-- The program of an event; the result of a read is not used. -/
def Event.perform (manager : UserFeatureManager) : Event → App Unit
  | setFeatureState featureState =>
    UserSwitchStateRepository.setFeatureState CachingStateRepository.setFeatureState featureState
  | isActive feature user => do
    let _ ← DefaultUserFeatureManager.isActive manager feature user

section Runs

variable {w : World} {featureState : FeatureState} {manager : UserFeatureManager}

end Runs

/-! ## The tables after a run -/

section Tables

variable {events : List Event} {feature user : Text}

end Tables

/-! ## What another call changes -/

section Append

variable {events : List Event} {call : FeatureState} {feature user : Text}

end Append

section Main

variable {manager : UserFeatureManager} {events : List Event} {call : FeatureState}

end Main

end Togglz
