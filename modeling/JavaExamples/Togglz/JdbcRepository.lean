import JavaExamples.Common.AutoCommit
import JavaExamples.Togglz.FeatureState

/-!
# The JDBC repository

`JDBCStreamedStateRepository` keeps a feature's flag and strategy in TGZ_FEATURE and its parameters
in TGZ_FEATURE_PARAMETER. Every `execute` takes a connection of its own and commits on its own, so
that one `setFeatureState` is a sequence of separate transactions.

* `Database.store`: the tables after `setFeatureState`, and what they hold (`lookup_features_store`,
  `lookup_parameters_store`).
* `setFeatureState_completes`: without failures `setFeatureState` leaves `Database.store`.
* `setFeatureState_triple`: what holds of every state it commits on the way.
-/

namespace Togglz

open AutoCommit

/-- A row of TGZ_FEATURE; its key is NAM_FEATURE. -/
structure FeatureRow where
  flgActive : Option ℤ
  codStrategy : Option Text

/-- The tables by their primary keys; a parameter's VAL_PARAMETER may be null. -/
structure Database where
  features : AList fun _ : Text => FeatureRow
  parameters : AList fun _ : Text × Text => Option Text

/-- Both tables empty. -/
def Database.empty : Database := { features := ∅, parameters := ∅ }

/-- The exceptions of the repository. -/
inductive Failure where
  /-- "Database returned an error: %s" -/
  | databaseError
  /-- "Must update exactly one feature: " feature -/
  | mustUpdateFeature (feature : Text)
  /-- "Must update exactly one record, feature=%s, parameter=%s" -/
  | mustUpdateParameter (feature parameter : Text)

/-- Programs on the tables. -/
abbrev Jdbc := Statements Database Failure

/-- The lengths of the columns. -/
def namLength : ℕ := 255

def valLength : ℕ := 1000

/-- Flag and strategy as they are read from a row. -/
structure FeatureAttrs where
  enabled : Bool
  strategyId : Option Text
deriving DecidableEq

/-- `rs.getInt("FLG_ACTIVE") > 0`, where `getInt` gives 0 for null, and `rs.getString`. -/
def FeatureRow.attrs (row : FeatureRow) : FeatureAttrs :=
  { enabled := 0 < row.flgActive.getD 0, strategyId := row.codStrategy }

/-- The row written for a state. -/
def FeatureState.row (featureState : FeatureState) : FeatureRow :=
  { flgActive := some (if featureState.enabled then 1 else 0)
    codStrategy := featureState.strategyId }

@[simp]
theorem attrs_row_enabled (featureState : FeatureState) :
    featureState.row.attrs.enabled = featureState.enabled := by
  cases h : featureState.enabled <;> simp [FeatureState.row, FeatureRow.attrs, h]

/-- The row fits its columns. -/
def FeatureState.RowFits (featureState : FeatureState) : Prop :=
  featureState.feature.length ≤ namLength ∧
    ∀ strategyId ∈ featureState.strategyId, strategyId.length ≤ namLength

instance (featureState : FeatureState) : Decidable featureState.RowFits :=
  inferInstanceAs (Decidable (_ ∧ ∀ strategyId ∈ featureState.strategyId, _))

/-- The feature's row is inserted or replaced. -/
def Database.writeFeature (db : Database) (featureState : FeatureState) : Database :=
  { db with features := db.features.insert featureState.feature featureState.row }

/-- The parameter's row is inserted or replaced. -/
def Database.writeParameter (db : Database) (feature parameter : Text) (value : Option Text) :
    Database :=
  { db with parameters := db.parameters.insert (feature, parameter) value }

/-- The value of a parameter, `none` without a row and for a row with null. -/
def Database.getParameter (db : Database) (feature parameter : Text) : Option Text :=
  (db.parameters.lookup (feature, parameter)).join

namespace JDBCStreamedStateRepository

/-- The attributes of a feature, `none` without a row. -/
def fillFeatureAttrs (feature : Text) : Jdbc (Option FeatureAttrs) :=
  execute .databaseError fun db => .ok ((db.features.lookup feature).map FeatureRow.attrs, db)

def updateFeatureState (featureState : FeatureState) : Jdbc Unit :=
  execute .databaseError fun db =>
    if featureState.feature ∉ db.features then .error (.mustUpdateFeature featureState.feature)
    else if featureState.RowFits then .ok ((), db.writeFeature featureState)
    else .error .databaseError

/-- A primary key that exists is a database error, so "Must insert exactly one feature" never
comes. -/
def insertFeatureState (featureState : FeatureState) : Jdbc Unit :=
  execute .databaseError fun db =>
    if featureState.feature ∈ db.features then .error .databaseError
    else if featureState.RowFits then .ok ((), db.writeFeature featureState)
    else .error .databaseError

def getParameter (feature parameter : Text) : Jdbc (Option Text) :=
  execute .databaseError fun db => .ok (db.getParameter feature parameter, db)

/-- The parameter fits its columns. -/
def ParameterFits (feature parameter : Text) (value : Option Text) : Prop :=
  feature.length ≤ namLength ∧ parameter.length ≤ namLength ∧ ∀ v ∈ value, v.length ≤ valLength

instance (feature parameter : Text) (value : Option Text) :
    Decidable (ParameterFits feature parameter value) :=
  inferInstanceAs (Decidable (_ ∧ _ ∧ ∀ v ∈ value, _))

def insertParameter (feature parameter : Text) (value : Option Text) : Jdbc Unit :=
  execute .databaseError fun db =>
    if (feature, parameter) ∈ db.parameters then .error .databaseError
    else if ParameterFits feature parameter value then
      .ok ((), db.writeParameter feature parameter value)
    else .error .databaseError

def updateParameter (feature parameter : Text) (value : Option Text) : Jdbc Unit :=
  execute .databaseError fun db =>
    if (feature, parameter) ∉ db.parameters then .error (.mustUpdateParameter feature parameter)
    else if ParameterFits feature parameter value then
      .ok ((), db.writeParameter feature parameter value)
    else .error .databaseError

/-- Inserts where the parameter reads as null: a row with null is not told from no row. -/
def setParameter (feature parameter : Text) (value : Option Text) : Jdbc Unit := do
  match ← getParameter feature parameter with
  | none => insertParameter feature parameter value
  | some _ => updateParameter feature parameter value

def setFeatureState (featureState : FeatureState) : Jdbc Unit := do
  match ← fillFeatureAttrs featureState.feature with
  | none => insertFeatureState featureState
  | some _ => updateFeatureState featureState
  forM featureState.getParameterNames fun parameterName =>
    setParameter featureState.feature parameterName (featureState.getParameter parameterName)

end JDBCStreamedStateRepository

/-! ## The tables after a write -/

/-- The tables after the parameters `names` of a state have been written. -/
def Database.storeParameters (db : Database) (featureState : FeatureState) (names : List Text) :
    Database :=
  names.foldl (fun db name =>
    db.writeParameter featureState.feature name (featureState.getParameter name)) db

/-- The tables after `setFeatureState`. -/
def Database.store (db : Database) (featureState : FeatureState) : Database :=
  (db.writeFeature featureState).storeParameters featureState featureState.getParameterNames

section Store

variable {db : Database} {featureState : FeatureState} {feature parameter : Text}

@[simp]
theorem features_storeParameters (names : List Text) :
    (db.storeParameters featureState names).features = db.features := by
  induction names generalizing db with
  | nil => rfl
  | cons name names ih => exact ih

/-- The last value written for a parameter is its value; other parameters keep theirs. -/
theorem lookup_parameters_storeParameters (names : List Text) :
    (db.storeParameters featureState names).parameters.lookup (feature, parameter) =
      if feature = featureState.feature ∧ parameter ∈ names then
        some (featureState.getParameter parameter)
      else db.parameters.lookup (feature, parameter) := by
  induction names generalizing db with
  | nil => simp [Database.storeParameters]
  | cons name names ih =>
    have hcons : db.storeParameters featureState (name :: names) =
        (db.writeParameter featureState.feature name
          (featureState.getParameter name)).storeParameters featureState names := rfl
    rw [hcons, ih, Database.writeParameter]
    -- the parameter written first may be written again by the rest
    by_cases hkey : (feature, parameter) = (featureState.feature, name)
    · obtain ⟨rfl, rfl⟩ := Prod.mk.inj hkey
      rw [AList.lookup_insert]
      simp
    · rw [AList.lookup_insert_ne hkey]
      by_cases hfeature : feature = featureState.feature
      · have hname : parameter ≠ name := fun h => hkey (Prod.ext hfeature h)
        simp [hfeature, hname]
      · simp [hfeature]

/-- The feature's row is that of the state; other features keep theirs. -/
theorem lookup_features_store :
    (db.store featureState).features.lookup feature =
      if feature = featureState.feature then some featureState.row
      else db.features.lookup feature := by
  rw [Database.store, features_storeParameters, Database.writeFeature]
  by_cases hfeature : feature = featureState.feature
  · rw [hfeature, AList.lookup_insert, if_pos rfl]
  · rw [AList.lookup_insert_ne hfeature, if_neg hfeature]

/-- The feature's parameters are those of the state where it has them, and the ones before where it
has not; other features keep theirs. -/
theorem lookup_parameters_store :
    (db.store featureState).parameters.lookup (feature, parameter) =
      if feature = featureState.feature ∧ parameter ∈ featureState.getParameterNames then
        some (featureState.getParameter parameter)
      else db.parameters.lookup (feature, parameter) :=
  lookup_parameters_storeParameters featureState.getParameterNames

end Store

/-! ## Runs without failures -/

/-- No parameter's value is null. -/
def Database.NoNull (db : Database) : Prop := ∀ key, db.parameters.lookup key ≠ some none

/-- No parameter that the state names has a row with null. -/
def Database.NoNullFor (db : Database) (featureState : FeatureState) : Prop :=
  ∀ name ∈ featureState.getParameterNames,
    db.parameters.lookup (featureState.feature, name) ≠ some none

/-- The state fits the columns. -/
structure FeatureState.Fits (featureState : FeatureState) : Prop where
  row : featureState.RowFits
  parameters : ∀ name ∈ featureState.getParameterNames,
    JDBCStreamedStateRepository.ParameterFits featureState.feature name
      (featureState.getParameter name)

section Completes

open JDBCStreamedStateRepository

variable {db : Database} {featureState : FeatureState} {feature parameter : Text}

/-- A parameter that is written is not null afterwards; other rows stay. -/
theorem lookup_writeParameter_ne_null {key : Text × Text} (h : db.parameters.lookup key ≠ some none)
    (value : Text) :
    (db.writeParameter feature parameter (some value)).parameters.lookup key ≠ some none := by
  rw [Database.writeParameter]
  by_cases hkey : key = (feature, parameter)
  · rw [hkey, AList.lookup_insert]
    simp
  · rw [AList.lookup_insert_ne hkey]
    exact h

/-- `setParameter` writes a value that fits. -/
theorem setParameter_completes (hnull : db.parameters.lookup (feature, parameter) ≠ some none)
    {value : Option Text} (hfits : ParameterFits feature parameter value) :
    Completes (setParameter feature parameter value) db ()
      (db.writeParameter feature parameter value) := by
  refine Completes.bind (Completes.execute rfl) ?_
  rw [Database.getParameter]
  cases hlookup : db.parameters.lookup (feature, parameter) with
  | none =>
    have hmem : (feature, parameter) ∉ db.parameters := AList.lookup_eq_none.mp hlookup
    exact Completes.execute (by rw [if_neg hmem, if_pos hfits])
  | some stored =>
    cases stored with
    -- a row with null would be inserted a second time
    | none => exact absurd hlookup hnull
    | some stored =>
      have hmem : (feature, parameter) ∈ db.parameters :=
        AList.lookup_isSome.mp (by rw [hlookup]; rfl)
      exact Completes.execute (by rw [if_neg (not_not_intro hmem), if_pos hfits])

/-- Without failures, the parameters are stored. -/
theorem setParameters_completes (hnull : db.NoNullFor featureState)
    (hfits : ∀ name ∈ featureState.getParameterNames,
      ParameterFits featureState.feature name (featureState.getParameter name)) :
    Completes (forM featureState.getParameterNames fun parameterName =>
      setParameter featureState.feature parameterName (featureState.getParameter parameterName))
      db () (db.storeParameters featureState featureState.getParameterNames) := by
  -- each value comes from the state and so is not null, which the next write relies on
  refine Completes.forM (K := fun db => db.NoNullFor featureState) (fun name hname db hnull => ?_)
    hnull
  obtain ⟨value, hvalue⟩ := exists_getParameter hname
  refine ⟨setParameter_completes (hnull name hname) (hfits name hname), fun other hother => ?_⟩
  rw [hvalue]
  exact lookup_writeParameter_ne_null (hnull other hother) value

/-- What `setFeatureState` does before it comes to the parameters. -/
def writeRow (featureState : FeatureState) : Jdbc Unit := do
  match ← fillFeatureAttrs featureState.feature with
  | none => insertFeatureState featureState
  | some _ => updateFeatureState featureState

theorem setFeatureState_eq (featureState : FeatureState) :
    setFeatureState featureState = (do
      writeRow featureState
      forM featureState.getParameterNames fun parameterName =>
        setParameter featureState.feature parameterName
          (featureState.getParameter parameterName)) := by
  rw [setFeatureState, writeRow, bind_assoc]
  refine bind_congr fun stored => ?_
  cases stored <;> rfl

theorem writeRow_completes (hfits : featureState.RowFits) :
    Completes (writeRow featureState) db () (db.writeFeature featureState) := by
  refine Completes.bind (Completes.execute rfl) ?_
  cases hlookup : db.features.lookup featureState.feature with
  | none =>
    have hmem : featureState.feature ∉ db.features := AList.lookup_eq_none.mp hlookup
    exact Completes.execute (by rw [if_neg hmem, if_pos hfits])
  | some row =>
    have hmem : featureState.feature ∈ db.features :=
      AList.lookup_isSome.mp (by rw [hlookup]; rfl)
    exact Completes.execute (by rw [if_neg (not_not_intro hmem), if_pos hfits])

/-- Without failures, `setFeatureState` leaves the tables with the state stored. -/
theorem setFeatureState_completes (hnull : db.NoNullFor featureState) (hfits : featureState.Fits) :
    Completes (setFeatureState featureState) db () (db.store featureState) := by
  have hwritten : (db.writeFeature featureState).NoNullFor featureState := hnull
  rw [setFeatureState_eq]
  exact (writeRow_completes hfits.row).bind (setParameters_completes hwritten hfits.parameters)

theorem Database.NoNull.noNullFor (h : db.NoNull) (featureState : FeatureState) :
    db.NoNullFor featureState := fun _ _ => h _

theorem noNull_store (h : db.NoNull) : (db.store featureState).NoNull := by
  rintro ⟨feature, parameter⟩
  rw [lookup_parameters_store]
  split_ifs with hmem
  · obtain ⟨value, hvalue⟩ := exists_getParameter hmem.2
    simp [hvalue]
  · exact h _

/-- The tables after `setFeatureState` of `UserSwitchStateRepository`. -/
def Database.storeSwitched (db : Database) (featureState : FeatureState) : Database :=
  featureState.getParameterNames.foldl
    (fun db name => db.store (UserSwitchStateRepository.tmpState featureState name))
    (if featureState.getParameterNames.isEmpty then db.store featureState else db)

/-- What `UserSwitchStateRepository` makes of the state fits the columns. -/
structure FeatureState.SwitchFits (featureState : FeatureState) : Prop where
  empty : featureState.getParameterNames = [] → featureState.Fits
  parameters : ∀ name ∈ featureState.getParameterNames,
    (UserSwitchStateRepository.tmpState featureState name).Fits

/-- Without failures, the parameters are stored one by one. -/
theorem switchFeatureState_completes (hnull : db.NoNull) (hfits : featureState.SwitchFits) :
    Completes (UserSwitchStateRepository.setFeatureState setFeatureState featureState) db ()
      (db.storeSwitched featureState) := by
  have hparameters : ∀ db : Database, db.NoNull →
      Completes (forM featureState.getParameterNames fun name =>
        setFeatureState (UserSwitchStateRepository.tmpState featureState name)) db ()
        (featureState.getParameterNames.foldl
          (fun db name => db.store (UserSwitchStateRepository.tmpState featureState name)) db) := by
    intro db hnull
    refine Completes.forM (K := Database.NoNull) (fun name hname db hnull => ?_) hnull
    have hcompletes := setFeatureState_completes (hnull.noNullFor _) (hfits.parameters name hname)
    exact ⟨hcompletes, noNull_store hnull⟩
  unfold UserSwitchStateRepository.setFeatureState Database.storeSwitched
  split_ifs with hempty
  · have hcall := setFeatureState_completes (hnull.noNullFor _)
      (hfits.empty (List.isEmpty_iff.mp hempty))
    exact hcall.bind (hparameters _ (noNull_store hnull))
  · exact hparameters db hnull

end Completes

/-! ## All committed states -/

section Triples

open JDBCStreamedStateRepository

variable {G : Database → Database → Prop} {P Q R : Database → Prop} {featureState : FeatureState}

/-- A statement that only reads. -/
theorem read_triple {α : Type} {read : Database → α} (hread : ∀ db, P db → G db db) :
    Triple G P (execute Failure.databaseError fun db => .ok (read db, db)) fun _ => P := by
  refine Triple.execute fun db a db' hP hstm => ?_
  obtain ⟨-, rfl⟩ := Prod.mk.inj (Except.ok.inj hstm)
  exact ⟨hread db hP, hP⟩

/-- A statement that is refused, has a value that does not fit, or writes. -/
theorem write_triple {refused : Database → Prop} [DecidablePred refused] {fits : Prop}
    [Decidable fits] {failure : Failure} {write : Database → Database}
    (hwrite : ∀ db, P db → G db (write db) ∧ Q (write db)) :
    Triple G P (execute Failure.databaseError fun db =>
      if refused db then .error failure
      else if fits then .ok ((), write db)
      else .error .databaseError) fun _ => Q := by
  refine Triple.execute fun db a db' hP hok => ?_
  -- only the branch that writes returns
  split_ifs at hok
  obtain ⟨-, rfl⟩ := Prod.mk.inj (Except.ok.inj hok)
  exact hwrite db hP

/-- `setParameter` reads and then writes the parameter. -/
theorem setParameter_triple {feature parameter : Text} {value : Option Text}
    (hread : ∀ db, P db → G db db)
    (hwrite : ∀ db, P db → G db (db.writeParameter feature parameter value) ∧
      Q (db.writeParameter feature parameter value)) :
    Triple G P (setParameter feature parameter value) fun _ => Q := by
  refine (read_triple hread).bind fun stored => ?_
  -- insert and update write the same row where they succeed
  cases stored with
  | none => exact write_triple hwrite
  | some stored => exact write_triple hwrite

theorem writeRow_triple (hread : ∀ db, P db → G db db)
    (hwrite : ∀ db, P db → G db (db.writeFeature featureState) ∧
      Q (db.writeFeature featureState)) :
    Triple G P (writeRow featureState) fun _ => Q := by
  refine (read_triple hread).bind fun stored => ?_
  cases stored with
  | none => exact write_triple hwrite
  | some stored => exact write_triple hwrite

/-- `setFeatureState` reads and then writes the feature's row, and goes on with the parameters. -/
theorem setFeatureState_triple (hread : ∀ db, P db → G db db)
    (hwrite : ∀ db, P db → G db (db.writeFeature featureState) ∧
      Q (db.writeFeature featureState))
    (hparameters : Triple G Q (forM featureState.getParameterNames fun parameterName =>
      setParameter featureState.feature parameterName (featureState.getParameter parameterName))
      fun _ => R) :
    Triple G P (setFeatureState featureState) fun _ => R := by
  rw [setFeatureState_eq]
  exact (writeRow_triple hread hwrite).bind fun _ => hparameters

end Triples

end Togglz
