import JavaExamples.Common.LastWrite
import JavaExamples.Togglz.Activation

/-!
# What is written and what is read afterwards

`setFeatureState` of the JDBC repository on any tables, and the object that `getFeatureState`
returns then, whose parameters are read in any order and any number of times.

* `readState`: what a caller reads of a feature.
* `Wrote`: the tables and what is read of them after one write.
* `LastWrites`: the tables after a sequence of writes.
* `writesAndReads_iff`: a write of a state that fits leaves what it should exactly if no parameter
  that the state names has a row with null; so does a sequence of writes.
* `not_wrote_nullRow`: such a row is inserted a second time.
-/

namespace Togglz

open AutoCommit Program

/-- Flag, strategy and parameters of the object that `getFeatureState` returns. -/
def readState (feature : Text) (names : List Text) :
    App (Option (Bool × Option Text × List (Option Text))) := do
  match ← JDBCStreamedStateRepository.getFeatureState feature with
  | none => return none
  | some ref =>
    let enabled ← (GlobalState.streamed ref).isEnabled
    let strategyId ← (GlobalState.streamed ref).getStrategyId
    let values ← names.mapM (StreamFeatureState.getParameter ref)
    return some (enabled, strategyId, values)

/-- The tables `db'` are what `db` should be after a write: the state is read with its own
parameters and the ones stored before, other features keep their rows, and no key has two rows. -/
structure Wrote (db : Database) (featureState : FeatureState) (db' : Database) : Prop where
  reads : ∀ clock names, ∃ w, Returns (readState featureState.feature names)
    (World.fresh db' clock)
    (some (featureState.enabled, featureState.strategyId, names.map fun name =>
      if name ∈ featureState.getParameterNames then featureState.getParameter name
      else db.getParameter featureState.feature name)) w
  otherFeatures : ∀ feature, feature ≠ featureState.feature →
    db'.features.lookup feature = db.features.lookup feature
  otherParameters : ∀ feature parameter, feature ≠ featureState.feature →
    db'.parameters.lookup (feature, parameter) = db.parameters.lookup (feature, parameter)
  oneFeature : db'.features.keys.count featureState.feature = 1
  oneParameter : ∀ feature parameter, db'.parameters.keys.count (feature, parameter) ≤ 1

/-- The tables `db'` hold what was written last. -/
structure LastWrites (db : Database) (states : List FeatureState) (db' : Database) : Prop where
  features : ∀ feature, (db'.features.lookup feature).map FeatureRow.attrs =
    ((states.filter fun state => state.feature = feature).getLast?.map fun state =>
      some ⟨state.enabled, state.strategyId⟩).getD
        ((db.features.lookup feature).map FeatureRow.attrs)
  parameters : ∀ feature parameter, db'.getParameter feature parameter =
    ((states.filter fun state => state.feature = feature ∧
      parameter ∈ state.getParameterNames).getLast?.map fun state =>
        state.getParameter parameter).getD (db.getParameter feature parameter)

section Write

variable {db : Database} {featureState : FeatureState} {feature parameter : Text}

theorem attrs_row (featureState : FeatureState) :
    featureState.row.attrs = ⟨featureState.enabled, featureState.strategyId⟩ :=
  congrArg (FeatureAttrs.mk · featureState.strategyId) (attrs_row_enabled featureState)

theorem getParameter_store : (db.store featureState).getParameter feature parameter =
    if feature = featureState.feature ∧ parameter ∈ featureState.getParameterNames then
      featureState.getParameter parameter
    else db.getParameter feature parameter := by
  rw [Database.getParameter, lookup_parameters_store]
  split_ifs <;> rfl

/-- A feature with a row is read as its row and its parameters. -/
theorem readState_returns {w : World} (hinv : w.Inv) {row : FeatureRow}
    (hrow : w.session.db.features.lookup feature = some row) (names : List Text) :
    ∃ w', Returns (readState feature names) w (some (row.attrs.enabled, row.codStrategy,
      names.map (w.session.db.getParameter feature))) w' := by
  obtain ⟨result, w₁, hget, hread₁, hnone, hcurrent⟩ := jdbcGetFeatureState_returns hinv feature
  cases result with
  | none => cases (hnone rfl).symm.trans hrow
  | some ref =>
    have hrow₁ : w₁.session.db.features.lookup feature = some row := hread₁.db ▸ hrow
    have henabled := isEnabled_returns (hcurrent ref rfl) hrow₁
    have hstrategy := getStrategyId_returns (hcurrent ref rfl) hrow₁
    -- every read finds the tables and the object as they were, but for what it remembers
    have hvalues : ∀ name w', w₁.ReadStep w' →
        ∃ w'', Returns (StreamFeatureState.getParameter ref name) w'
          (w.session.db.getParameter feature name) w'' ∧ w₁.ReadStep w'' := by
      intro name w' hread
      obtain ⟨w'', hparameter, hread'⟩ :=
        getParameter_returns hread.inv (hread.current feature ref (hcurrent ref rfl)) name
      rw [hread.db, hread₁.db] at hparameter
      exact ⟨w'', hparameter, hread.trans hread'⟩
    have hsame : w₁.ReadStep w₁ := ⟨rfl, hread₁.inv, fun _ _ h => h⟩
    obtain ⟨w₂, hmap, -⟩ := Returns.mapM (K := w₁.ReadStep) hvalues hsame names
    refine ⟨w₂, hget.bind (henabled.bind (hstrategy.bind (hmap.bind (Returns.pure _ _))))⟩

/-- The stored state is what is written. -/
theorem wrote_store (db : Database) (featureState : FeatureState) :
    Wrote db featureState (db.store featureState) where
  reads clock names := by
    have hrow : (World.fresh (db.store featureState) clock).session.db.features.lookup
        featureState.feature = some featureState.row :=
      lookup_features_store.trans (if_pos rfl)
    obtain ⟨w, hreads⟩ := readState_returns (inv_fresh _ clock) hrow names
    refine ⟨w, ?_⟩
    rw [attrs_row] at hreads
    have hvalues : (World.fresh (db.store featureState) clock).session.db.getParameter
        featureState.feature = fun name =>
          if name ∈ featureState.getParameterNames then featureState.getParameter name
          else db.getParameter featureState.feature name := by
      funext name
      refine getParameter_store.trans ?_
      simp
    rw [hvalues] at hreads
    exact hreads
  otherFeatures feature hfeature := by rw [lookup_features_store, if_neg hfeature]
  otherParameters feature parameter hfeature := by
    rw [lookup_parameters_store, if_neg fun h => hfeature h.1]
  oneFeature := by
    refine List.count_eq_one_of_mem (AList.keys_nodup _) (AList.mem_keys.mp ?_)
    rw [← AList.lookup_isSome, lookup_features_store, if_pos rfl]
    rfl
  oneParameter feature parameter := List.nodup_iff_count_le_one.mp (AList.keys_nodup _) _

/-! ## Writes that fail -/

theorem setParameter_fails (hnull : db.parameters.lookup (feature, parameter) = some none)
    (value : Option Text) :
    Fails (JDBCStreamedStateRepository.setParameter feature parameter value) db := by
  have hread : db.getParameter feature parameter = none := by
    rw [Database.getParameter, hnull]
    rfl
  have hmem : (feature, parameter) ∈ db.parameters := AList.lookup_isSome.mp (by rw [hnull]; rfl)
  refine Completes.bind_fails (Completes.execute rfl) ?_
  -- what reads as null is inserted, though there is a row
  rw [hread]
  exact Fails.execute (if_pos hmem)

/-- A parameter with a row with null keeps the state from being written. -/
theorem setFeatureState_fails (hfits : featureState.Fits) (hnull : ¬db.NoNullFor featureState) :
    Fails (JDBCStreamedStateRepository.setFeatureState featureState) db := by
  have hrow : ∃ name ∈ featureState.getParameterNames,
      (db.writeFeature featureState).parameters.lookup (featureState.feature, name) =
        some none := by
    rw [Database.NoNullFor] at hnull
    push Not at hnull
    exact hnull
  have hparameters : Fails (forM featureState.getParameterNames fun parameterName =>
      JDBCStreamedStateRepository.setParameter featureState.feature parameterName
        (featureState.getParameter parameterName)) (db.writeFeature featureState) := by
    refine Fails.forM
      (R := fun name db => db.parameters.lookup (featureState.feature, name) = some none)
      (f := fun db name => db.writeParameter featureState.feature name
        (featureState.getParameter name))
      (fun name _ db hname => setParameter_fails hname _) (fun name hname db hnone => ?_) hrow
    refine ⟨setParameter_completes hnone (hfits.parameters name hname), fun other hother => ?_⟩
    -- the row with null is of another parameter than the one that is written
    have hne : (featureState.feature, other) ≠ (featureState.feature, name) := by
      intro hsame
      rw [hsame] at hother
      exact hnone hother
    exact (AList.lookup_insert_ne hne).trans hother
  rw [setFeatureState_eq]
  exact (writeRow_completes hfits.row).bind_fails hparameters

/-! ## Any number of writes -/

variable {states : List FeatureState}

theorem noNullFor_store (hnull : db.NoNullFor featureState) (other : FeatureState) :
    (db.store featureState).NoNullFor other ↔ db.NoNullFor other := by
  refine forall₂_congr fun name _ => ?_
  rw [lookup_parameters_store]
  split_ifs with hwritten
  · -- what the state names has had no row with null, and has none now
    obtain ⟨hfeature, hname⟩ := hwritten
    obtain ⟨value, hvalue⟩ := exists_getParameter hname
    rw [hvalue, hfeature]
    exact iff_of_true (by simp) (hnull name hname)
  · rfl

/-- Without failures, the states are stored one after the other. -/
theorem setFeatureStates_completes (hfits : ∀ state ∈ states, state.Fits)
    (hnull : ∀ state ∈ states, db.NoNullFor state) :
    Completes (forM states JDBCStreamedStateRepository.setFeatureState) db ()
      (states.foldl Database.store db) := by
  refine Completes.forM (K := fun db => ∀ state ∈ states, db.NoNullFor state)
    (fun state hstate db hnull => ?_) hnull
  refine ⟨setFeatureState_completes (hnull state hstate) (hfits state hstate),
    fun other hother => ?_⟩
  exact (noNullFor_store (hnull state hstate) other).mpr (hnull other hother)

theorem setFeatureStates_fails (hfits : ∀ state ∈ states, state.Fits)
    (hnull : ¬∀ state ∈ states, db.NoNullFor state) :
    Fails (forM states JDBCStreamedStateRepository.setFeatureState) db := by
  push Not at hnull
  refine Fails.forM (R := fun state db => ¬db.NoNullFor state) (f := Database.store)
    (fun state hstate db => setFeatureState_fails (hfits state hstate))
    (fun state hstate db hnone => ?_) hnull
  have hnone := not_not.mp hnone
  refine ⟨setFeatureState_completes hnone (hfits state hstate), fun other hother => ?_⟩
  exact mt (noNullFor_store hnone other).mp hother

/-- What the states leave is what was written last. -/
theorem lastWrites_foldl (db : Database) (states : List FeatureState) :
    LastWrites db states (states.foldl Database.store db) where
  features feature := by
    have hwrites : ∀ state ∈ states, LastWrite.Writes Database.store
        (fun db => (db.features.lookup feature).map FeatureRow.attrs)
        (fun state => state.feature = feature)
        (fun state => some ⟨state.enabled, state.strategyId⟩) state := by
      intro state _ db
      dsimp only
      rw [lookup_features_store]
      by_cases hfeature : state.feature = feature
      · rw [if_pos hfeature.symm, if_pos (decide_eq_true hfeature), Option.map_some, attrs_row]
      · rw [if_neg (Ne.symm hfeature), if_neg (by simpa using hfeature)]
    exact LastWrite.read_foldl hwrites db
  parameters feature parameter := by
    have hwrites : ∀ state ∈ states, LastWrite.Writes Database.store
        (fun db => db.getParameter feature parameter)
        (fun state => state.feature = feature ∧ parameter ∈ state.getParameterNames)
        (fun state => state.getParameter parameter) state := by
      intro state _ db
      dsimp only
      rw [getParameter_store]
      by_cases hwritten : state.feature = feature ∧ parameter ∈ state.getParameterNames
      · rw [if_pos ⟨hwritten.1.symm, hwritten.2⟩, if_pos (decide_eq_true hwritten)]
      · rw [if_neg fun h => hwritten ⟨h.1.symm, h.2⟩, if_neg (by simpa using hwritten)]
    exact LastWrite.read_foldl hwrites db

/-- Of states that fit, a write leaves what it should exactly if none of the parameters it names has
a row with null, and so does a sequence of writes. -/
theorem writesAndReads_iff (hfits : ∀ state ∈ states, state.Fits) (db : Database) :
    (∀ state ∈ states,
      (∃ db', Completes (JDBCStreamedStateRepository.setFeatureState state) db () db' ∧
        Wrote db state db') ↔ db.NoNullFor state) ∧
    ((∃ db', Completes (forM states JDBCStreamedStateRepository.setFeatureState) db () db' ∧
      LastWrites db states db') ↔ ∀ state ∈ states, db.NoNullFor state) := by
  refine ⟨fun state hstate => ⟨?_, fun hnull => ?_⟩, ?_, fun hnull => ?_⟩
  · rintro ⟨db', hcompletes, -⟩
    by_contra hnull
    exact (setFeatureState_fails (hfits state hstate) hnull).not_completes hcompletes
  · exact ⟨_, setFeatureState_completes hnull (hfits state hstate), wrote_store db state⟩
  · rintro ⟨db', hcompletes, -⟩
    by_contra hnull
    exact (setFeatureStates_fails hfits hnull).not_completes hcompletes
  · exact ⟨_, setFeatureStates_completes hfits hnull, lastWrites_foldl db states⟩

end Write

/-- A state with the parameter `value` set. -/
def valueState : FeatureState :=
  (FeatureState.new "beta".toList true).setParameter "value".toList (some "v1".toList)

theorem valueState_fits : valueState.Fits := ⟨by decide, by decide⟩

/-- A second write of the feature, which disables it and leaves the parameter out. -/
def disabledState : FeatureState :=
  (FeatureState.new "beta".toList false).setParameter "other".toList (some "v2".toList)

/-- Tables with another feature and an older value of the parameter. -/
def writtenBefore : Database :=
  (Database.empty.store (FeatureState.new "gamma".toList true)).store
    ((FeatureState.new "beta".toList false).setParameter "value".toList (some "v0".toList))

/-- Each of the two states leaves what it should, and one after the other they leave the flag of the
second one and the parameters of both. -/
theorem writesAndReads_twoStates :
    (∀ state ∈ [valueState, disabledState],
      ∃ db', Completes (JDBCStreamedStateRepository.setFeatureState state) writtenBefore () db' ∧
        Wrote writtenBefore state db') ∧
    ∃ db', Completes (forM [valueState, disabledState] JDBCStreamedStateRepository.setFeatureState)
        writtenBefore () db' ∧
      LastWrites writtenBefore [valueState, disabledState] db' := by
  have hfits : ∀ state ∈ [valueState, disabledState], state.Fits := by
    simp only [List.mem_cons, List.not_mem_nil, or_false, forall_eq_or_imp, forall_eq]
    exact ⟨valueState_fits, by decide, by decide⟩
  have hnull : ∀ state ∈ [valueState, disabledState], writtenBefore.NoNullFor state := by
    unfold Database.NoNullFor
    decide
  obtain ⟨hone, hboth⟩ := writesAndReads_iff hfits writtenBefore
  refine ⟨?_, hboth.mpr hnull⟩
  intro state hstate
  exact (hone state hstate).mpr (hnull state hstate)

/-- Tables in which the parameter `value` has a row with null. -/
def nullRow : Database :=
  { Database.empty with parameters := (∅ : AList _).insert ("beta".toList, "value".toList) none }

/-- The row with null is read as none at all, and is inserted once more. -/
theorem not_wrote_nullRow :
    ¬∀ (db : Database) (state : FeatureState), state.Fits →
      ∃ db', Completes (JDBCStreamedStateRepository.setFeatureState state) db () db' ∧
        Wrote db state db' := by
  intro h
  obtain ⟨db', hcompletes, -⟩ := h nullRow valueState valueState_fits
  have hnull : ¬nullRow.NoNullFor valueState := fun hnone =>
    hnone "value".toList (by decide) (by decide)
  exact (setFeatureState_fails valueState_fits hnull).not_completes hcompletes

end Togglz
