import JavaExamples.Togglz.Activation

/-!
# Restricting a feature that is being enabled

`setFeatureState` of `UserSwitchStateRepository` over `JDBCStreamedStateRepository`, called to
enable a feature for some users only. The feature's row and every parameter are committed on their
own, and the row comes first: until `sw-state` is written, the feature is open to everybody.

* `Opened`, `Restricted`: the tables before and after `sw-state` is written.
* `setFeatureState_triple_phases`: the call goes from one to the other, and never back.
* `isActive_phases`: what `isActive` returns in all states the call passes through.
-/

namespace Togglz

open AutoCommit Program StreamedUserSwitchActivationStrategy

/-- The manager over the JDBC repository; `UserSwitchStateRepository` hands reads on. -/
def jdbcManager (enabledByDefault : Text → Bool) (activationStrategies : List ActivationStrategy) :
    UserFeatureManager :=
  { getFeatureState := JDBCStreamedStateRepository.getFeatureState, enabledByDefault,
    activationStrategies }

/-- What `isActive` returns in a process that has just started on the tables. -/
def isActiveFrom (manager : UserFeatureManager) (clock : ℕ → ℕ) (db : Database) (feature : Text)
    (user : Option Text) : Except Failure Bool :=
  (perform (DefaultUserFeatureManager.isActive manager feature user) (World.fresh db clock)).1

/-- The call on the tables, where the statement with the number `failAt` fails. -/
def runSetFeatureState (featureState : FeatureState) (db : Database) (failAt : Option ℕ) :
    Except Failure Unit × Session Database :=
  perform (UserSwitchStateRepository.setFeatureState JDBCStreamedStateRepository.setFeatureState
    featureState) (Session.open db failAt)

/-- All states that can be seen while the call runs and after it: the first one, and one for each
statement. -/
def statesOf (featureState : FeatureState) (db : Database) (failAt : Option ℕ) : List Database :=
  db :: (runSetFeatureState featureState db failAt).2.observed

/-- The call enables and restricts a feature that is disabled and has no restriction. -/
structure Restricts (featureState : FeatureState) (db : Database) : Prop where
  enabled : featureState.enabled = true
  strategy : featureState.strategyId = some getId
  restricted : featureState.getParameter RESTRICTED_FEATURE_PARAM = some RESTRICTED_FEATURE_VAL
  disabled : ∀ row ∈ db.features.lookup featureState.feature, row.attrs.enabled = false
  unset : db.getParameter featureState.feature RESTRICTED_FEATURE_PARAM = none

/-! ## The phases of the call -/

section Phases

variable {featureState : FeatureState} {db db₀ : Database}

/-- The feature is enabled, its restriction has yet to be written. -/
def Opened (featureState : FeatureState) (db : Database) : Prop :=
  db.features.lookup featureState.feature = some featureState.row ∧
    db.getParameter featureState.feature RESTRICTED_FEATURE_PARAM = none

/-- The feature is enabled and restricted. -/
def Restricted (featureState : FeatureState) (db : Database) : Prop :=
  db.features.lookup featureState.feature = some featureState.row ∧
    db.getParameter featureState.feature RESTRICTED_FEATURE_PARAM = some RESTRICTED_FEATURE_VAL

/-- The steps of the call: from the first state on to `Opened`, and from there to `Restricted`. -/
inductive PhaseStep (featureState : FeatureState) (db₀ : Database) :
    Database → Database → Prop where
  | start : PhaseStep featureState db₀ db₀ db₀
  | opening {db : Database} (hdb : Opened featureState db) : PhaseStep featureState db₀ db₀ db
  | opened {db db' : Database} (hdb : Opened featureState db) (hdb' : Opened featureState db') :
      PhaseStep featureState db₀ db db'
  | restricting {db db' : Database} (hdb : Opened featureState db)
      (hdb' : Restricted featureState db') : PhaseStep featureState db₀ db db'
  | restricted {db db' : Database} (hdb : Restricted featureState db)
      (hdb' : Restricted featureState db') : PhaseStep featureState db₀ db db'

theorem not_opened_of_restricted (h : Restricted featureState db) : ¬Opened featureState db := by
  intro hopened
  have hparameter := hopened.2.symm.trans h.2
  cases hparameter

/-- From the first state a step leads to it again, or the row is written. -/
theorem PhaseStep.next_of_first {db' : Database} (h : PhaseStep featureState db₀ db db')
    (hdb : db = db₀) : db' = db₀ ∨ Opened featureState db' ∨ Restricted featureState db' := by
  cases h with
  | start => exact Or.inl rfl
  | opening hdb' => exact Or.inr (Or.inl hdb')
  | opened _ hdb' => exact Or.inr (Or.inl hdb')
  | restricting _ hdb' => exact Or.inr (Or.inr hdb')
  | restricted _ hdb' => exact Or.inr (Or.inr hdb')

/-- The row stays written. -/
theorem PhaseStep.next_of_written {db' : Database} (h : PhaseStep featureState db₀ db db')
    (hdb : Opened featureState db ∨ Restricted featureState db) :
    Opened featureState db' ∨ Restricted featureState db' := by
  cases h with
  | start => exact hdb
  | opening hdb' => exact Or.inl hdb'
  | opened _ hdb' => exact Or.inl hdb'
  | restricting _ hdb' => exact Or.inr hdb'
  | restricted _ hdb' => exact Or.inr hdb'

/-- The restriction stays written. -/
theorem PhaseStep.next_of_restricted {db' : Database} (h : PhaseStep featureState db₀ db db')
    (hunset : db₀.getParameter featureState.feature RESTRICTED_FEATURE_PARAM = none)
    (hdb : Restricted featureState db) : Restricted featureState db' := by
  cases h with
  | start => exact hdb
  | opening => exact absurd (hunset.symm.trans hdb.2) (by simp)
  | opened hopened => exact absurd hopened (not_opened_of_restricted hdb)
  | restricting hopened => exact absurd hopened (not_opened_of_restricted hdb)
  | restricted _ hdb' => exact hdb'

/-- Enabling the row opens the feature, as there is no restriction yet. -/
theorem opened_writeFeature
    (h : db.getParameter featureState.feature RESTRICTED_FEATURE_PARAM = none) :
    Opened featureState (db.writeFeature featureState) :=
  ⟨AList.lookup_insert _, h⟩

theorem restricted_writeFeature (h : Restricted featureState db) :
    Restricted featureState (db.writeFeature featureState) :=
  ⟨AList.lookup_insert _, h.2⟩

theorem getParameter_writeParameter_self (feature parameter : Text) (value : Option Text) :
    (db.writeParameter feature parameter value).getParameter feature parameter = value := by
  rw [Database.getParameter, Database.writeParameter, AList.lookup_insert]
  rfl

theorem getParameter_writeParameter_ne {feature parameter other : Text} (value : Option Text)
    (h : other ≠ parameter) :
    (db.writeParameter feature parameter value).getParameter feature other =
      db.getParameter feature other := by
  have hkey : (feature, other) ≠ (feature, parameter) := fun hkey => h (Prod.mk.inj hkey).2
  rw [Database.getParameter, Database.writeParameter, AList.lookup_insert_ne hkey]
  rfl

/-! ## The statements of the call -/

theorem writeFeature_tmpState (name : Text) :
    db.writeFeature (UserSwitchStateRepository.tmpState featureState name) =
      db.writeFeature featureState := by
  rw [tmpState_eq]
  cases writtenValue featureState name <;> rfl

/-- One call of the JDBC repository writes the row and one parameter. -/
theorem tmpState_triple {G : Database → Database → Prop} {P Q R : Database → Prop} {name : Text}
    (hname : name ∈ featureState.getParameterNames) (hread : ∀ db, P db → G db db)
    (hwrite : ∀ db, P db → G db (db.writeFeature featureState) ∧
      Q (db.writeFeature featureState)) (hread' : ∀ db, Q db → G db db)
    (hparameter : ∀ db, Q db →
      G db (db.writeParameter featureState.feature (writtenKey featureState name)
        (writtenValue featureState name)) ∧
      R (db.writeParameter featureState.feature (writtenKey featureState name)
        (writtenValue featureState name))) :
    Triple G P (JDBCStreamedStateRepository.setFeatureState
      (UserSwitchStateRepository.tmpState featureState name)) fun _ => R := by
  refine setFeatureState_triple (Q := Q) hread (fun db hP => ?_) ?_
  -- the row is the same in every call, each call has a parameter of its own
  · rw [writeFeature_tmpState]
    exact hwrite db hP
  · rw [getParameterNames_tmpState hname, List.forM_cons]
    refine (setParameter_triple hread' ?_).bind fun _ => Triple.pure fun db hR => hR
    rw [feature_tmpState, getParameter_tmpState]
    exact hparameter

/-- The first state, or one after the row was written. -/
def Unrestricted (featureState : FeatureState) (db₀ db : Database) : Prop :=
  db = db₀ ∨ Opened featureState db

theorem phaseStep_read (h : Unrestricted featureState db₀ db) :
    PhaseStep featureState db₀ db db := by
  rcases h with rfl | h
  · exact .start
  · exact .opened h h

theorem phaseStep_writeFeature
    (hunset : db₀.getParameter featureState.feature RESTRICTED_FEATURE_PARAM = none)
    (h : Unrestricted featureState db₀ db) :
    PhaseStep featureState db₀ db (db.writeFeature featureState) ∧
      Opened featureState (db.writeFeature featureState) := by
  rcases h with rfl | h
  -- the first write of the row opens the feature, later ones leave it open
  · have hopened := opened_writeFeature hunset
    exact ⟨.opening hopened, hopened⟩
  · have hopened := opened_writeFeature h.2
    exact ⟨.opened h hopened, hopened⟩

/-- A parameter other than `sw-state` leaves the feature open. -/
theorem tmpState_triple_opened
    (hunset : db₀.getParameter featureState.feature RESTRICTED_FEATURE_PARAM = none) {name : Text}
    (hname : name ∈ featureState.getParameterNames) (hkey : name ≠ RESTRICTED_FEATURE_PARAM) :
    Triple (PhaseStep featureState db₀) (Unrestricted featureState db₀)
      (JDBCStreamedStateRepository.setFeatureState
        (UserSwitchStateRepository.tmpState featureState name))
      fun _ => Unrestricted featureState db₀ := by
  refine tmpState_triple (Q := Opened featureState) hname (fun db hdb => phaseStep_read hdb)
    (fun db hdb => phaseStep_writeFeature hunset hdb) (fun db hdb => .opened hdb hdb)
    fun db hdb => ?_
  -- only `sw-state` itself is written as `sw-state`
  have hwritten : RESTRICTED_FEATURE_PARAM ≠ writtenKey featureState name :=
    fun h => hkey (writtenKey_eq_restricted h.symm)
  have hopened : Opened featureState (db.writeParameter featureState.feature
      (writtenKey featureState name) (writtenValue featureState name)) :=
    ⟨hdb.1, (getParameter_writeParameter_ne _ hwritten).trans hdb.2⟩
  exact ⟨.opened hdb hopened, Or.inr hopened⟩

/-- `sw-state` restricts the feature. -/
theorem tmpState_triple_restricting (h : Restricts featureState db₀) :
    Triple (PhaseStep featureState db₀) (Unrestricted featureState db₀)
      (JDBCStreamedStateRepository.setFeatureState
        (UserSwitchStateRepository.tmpState featureState RESTRICTED_FEATURE_PARAM))
      fun _ => Restricted featureState := by
  have hname : RESTRICTED_FEATURE_PARAM ∈ featureState.getParameterNames :=
    mem_getParameterNames h.restricted
  refine tmpState_triple (Q := Opened featureState) hname (fun db hdb => phaseStep_read hdb)
    (fun db hdb => phaseStep_writeFeature h.unset hdb) (fun db hdb => .opened hdb hdb)
    fun db hdb => ?_
  rw [writtenKey_restricted, writtenValue_restricted, h.restricted]
  have hrestricted : Restricted featureState (db.writeParameter featureState.feature
      RESTRICTED_FEATURE_PARAM (some RESTRICTED_FEATURE_VAL)) :=
    ⟨hdb.1, getParameter_writeParameter_self _ _ _⟩
  exact ⟨.restricting hdb hrestricted, hrestricted⟩

/-- Once restricted, the feature stays restricted. -/
theorem tmpState_triple_restricted
    (hrestricted : featureState.getParameter RESTRICTED_FEATURE_PARAM = some RESTRICTED_FEATURE_VAL)
    {name : Text} (hname : name ∈ featureState.getParameterNames) :
    Triple (PhaseStep featureState db₀) (Restricted featureState)
      (JDBCStreamedStateRepository.setFeatureState
        (UserSwitchStateRepository.tmpState featureState name))
      fun _ => Restricted featureState := by
  refine tmpState_triple (Q := Restricted featureState) hname (fun db hdb => .restricted hdb hdb)
    (fun db hdb => ⟨.restricted hdb (restricted_writeFeature hdb), restricted_writeFeature hdb⟩)
    (fun db hdb => .restricted hdb hdb) fun db hdb => ?_
  have hwritten : Restricted featureState (db.writeParameter featureState.feature
      (writtenKey featureState name) (writtenValue featureState name)) := by
    refine ⟨hdb.1, ?_⟩
    -- `sw-state` could only be written again with the same value
    by_cases hkey : writtenKey featureState name = RESTRICTED_FEATURE_PARAM
    · obtain rfl := writtenKey_eq_restricted hkey
      rw [writtenKey_restricted, writtenValue_restricted, hrestricted]
      exact getParameter_writeParameter_self _ _ _
    · exact (getParameter_writeParameter_ne _ (Ne.symm hkey)).trans hdb.2
  exact ⟨.restricted hdb hwritten, hwritten⟩

/-- Whatever fails, the call goes through the phases in order, and a call that returns leaves the
feature restricted. -/
theorem setFeatureState_triple_phases (h : Restricts featureState db₀) :
    Triple (PhaseStep featureState db₀) (fun db => db = db₀)
      (UserSwitchStateRepository.setFeatureState JDBCStreamedStateRepository.setFeatureState
        featureState)
      fun _ => Restricted featureState := by
  have hname : RESTRICTED_FEATURE_PARAM ∈ featureState.getParameterNames :=
    mem_getParameterNames h.restricted
  obtain ⟨before, after, hnames, hbefore⟩ := List.eq_append_cons_of_mem hname
  have hne : featureState.getParameterNames.isEmpty = false := by
    rw [hnames]
    simp
  have hmem : ∀ name ∈ before ++ RESTRICTED_FEATURE_PARAM :: after,
      name ∈ featureState.getParameterNames := fun name hmem => hnames ▸ hmem
  unfold UserSwitchStateRepository.setFeatureState
  rw [hne, hnames, List.forM_append, List.forM_cons]
  -- the parameters in front of `sw-state`, `sw-state` itself, and those behind it
  have hfirst : Triple (PhaseStep featureState db₀) (Unrestricted featureState db₀)
      (forM before fun name => JDBCStreamedStateRepository.setFeatureState
        (UserSwitchStateRepository.tmpState featureState name))
      fun _ => Unrestricted featureState db₀ := by
    refine Triple.forM fun name hname => ?_
    have hkey : name ≠ RESTRICTED_FEATURE_PARAM := fun hkey => hbefore (hkey ▸ hname)
    exact tmpState_triple_opened h.unset (hmem name (List.mem_append_left _ hname)) hkey
  have hlast : Triple (PhaseStep featureState db₀) (Restricted featureState)
      (forM after fun name => JDBCStreamedStateRepository.setFeatureState
        (UserSwitchStateRepository.tmpState featureState name))
      fun _ => Restricted featureState := by
    refine Triple.forM fun name hname => ?_
    exact tmpState_triple_restricted h.restricted
      (hmem name (List.mem_append_right _ (List.mem_cons_of_mem _ hname)))
  have hstart : Triple (PhaseStep featureState db₀) (fun db => db = db₀)
      (pure () : Jdbc Unit) fun _ => Unrestricted featureState db₀ :=
    Triple.pure fun db hdb => Or.inl hdb
  exact hstart.bind fun _ => hfirst.bind fun _ =>
    (tmpState_triple_restricting h).bind fun _ => hlast

theorem statesOf_eq {failAt : Option ℕ} {dbs : List Database}
    (h : (runSetFeatureState featureState db₀ failAt).2.observed =
      (Session.open db₀ failAt).observed ++ dbs) :
    statesOf featureState db₀ failAt = db₀ :: dbs := by
  rw [statesOf, h]
  rfl

/-- Whatever fails, the call leaves all parameters alone that it does not write. -/
theorem setFeatureState_triple_frame {key : Text}
    (hkey : ∀ name ∈ featureState.getParameterNames, writtenKey featureState name ≠ key) :
    Triple (fun db db' => db'.getParameter featureState.feature key =
        db.getParameter featureState.feature key) (fun _ => True)
      (UserSwitchStateRepository.setFeatureState JDBCStreamedStateRepository.setFeatureState
        featureState)
      fun _ _ => True := by
  have hparameters : Triple (fun db db' => db'.getParameter featureState.feature key =
        db.getParameter featureState.feature key) (fun _ => True)
      (forM featureState.getParameterNames fun name =>
        JDBCStreamedStateRepository.setFeatureState
          (UserSwitchStateRepository.tmpState featureState name)) fun _ _ => True := by
    refine Triple.forM fun name hname => tmpState_triple (Q := fun _ => True) hname
      (fun db _ => rfl) (fun db _ => ⟨rfl, trivial⟩) (fun db _ => rfl) fun db _ => ⟨?_, trivial⟩
    exact getParameter_writeParameter_ne _ (Ne.symm (hkey name hname))
  unfold UserSwitchStateRepository.setFeatureState
  split_ifs with hempty
  · have hcall : Triple (fun db db' => db'.getParameter featureState.feature key =
        db.getParameter featureState.feature key) (fun _ => True)
        (JDBCStreamedStateRepository.setFeatureState featureState) fun _ _ => True := by
      refine setFeatureState_triple (Q := fun _ => True) (fun db _ => rfl)
        (fun db _ => ⟨rfl, trivial⟩) ?_
      rw [List.isEmpty_iff.mp hempty]
      exact Triple.pure fun _ h => h
    exact hcall.bind fun _ => hparameters
  · exact hparameters

/-- Without failures, a call whose parameters fit returns. -/
theorem runSetFeatureState_ok (hnull : db.NoNull) (hfits : featureState.SwitchFits) :
    (runSetFeatureState featureState db none).1 = .ok () := by
  obtain ⟨observed, hreturns⟩ := switchFeatureState_completes hnull hfits []
  exact congrArg Prod.fst hreturns

/-- Such a parameter is the same in all states. -/
theorem getParameter_of_mem_statesOf {key : Text}
    (hkey : ∀ name ∈ featureState.getParameterNames, writtenKey featureState name ≠ key)
    {failAt : Option ℕ} (hdb : db ∈ statesOf featureState db₀ failAt) :
    db.getParameter featureState.feature key = db₀.getParameter featureState.feature key := by
  obtain ⟨dbs, hobserved, hcommits, -⟩ :=
    setFeatureState_triple_frame hkey (Session.open db₀ failAt) trivial
  rw [statesOf_eq hobserved] at hdb
  exact hcommits.isChain.induction
    (fun db => db.getParameter featureState.feature key = db₀.getParameter featureState.feature key)
    _ (fun s t hstep hs => hstep.trans hs) (fun _ => rfl) db hdb

/-- Phases are gone through in order. -/
theorem exists_phases (h : Restricts featureState db₀) {dbs : List Database}
    (hchain : List.IsChain (PhaseStep featureState db₀) (db₀ :: dbs)) :
    ∃ before window after, db₀ :: dbs = before ++ window ++ after ∧ (∀ db ∈ before, db = db₀) ∧
      (∀ db ∈ window, Opened featureState db) ∧ ∀ db ∈ after, Restricted featureState db := by
  -- split where the row is written, and the rest where the restriction is
  obtain ⟨before, written, hall, hbefore, hwritten⟩ :=
    exists_split_of_isChain (A := fun db => db = db₀)
      (B := fun db => Opened featureState db ∨ Restricted featureState db)
      (fun db db' hdb hstep => hstep.next_of_first hdb)
      (fun db db' hdb hstep => hstep.next_of_written hdb) hchain (by simp)
  rw [hall] at hchain
  obtain ⟨window, after, rfl, hwindow, hafter⟩ :=
    exists_split_of_isChain (A := Opened featureState) (B := Restricted featureState)
      (fun db db' hdb hstep => hstep.next_of_written (Or.inl hdb))
      (fun db db' hdb hstep => hstep.next_of_restricted h.unset hdb) hchain.right_of_append
      (fun db hdb => hwritten db (List.mem_of_head? hdb))
  exact ⟨before, window, after, by rw [hall, List.append_assoc], hbefore, hwindow, hafter⟩

/-- The way to the restriction leads through a state in which the feature is open. -/
theorem exists_opened (h : Restricts featureState db₀) {s : Database} {dbs : List Database}
    (hcommits : Commits (PhaseStep featureState db₀) s dbs db) (hs : s = db₀)
    (hdb : Restricted featureState db) :
    ∃ opened ∈ dbs, Opened featureState opened := by
  -- from the first state no step leads to a restricted one
  have hfirst : ¬Restricted featureState db₀ := by
    intro hrestricted
    have hparameter := h.unset.symm.trans hrestricted.2
    cases hparameter
  have hdisabled : db₀.features.lookup featureState.feature ≠ some featureState.row := by
    intro hrow
    have hflag := h.disabled _ hrow
    rw [(attrs_row_enabled featureState).trans h.enabled] at hflag
    cases hflag
  -- the first state may be seen several times before the row is written
  induction hcommits with
  | nil => exact absurd hdb (hs ▸ hfirst)
  | cons hstep hrest ih =>
    cases hstep with
    | start =>
      obtain ⟨opened, hmem, hopened⟩ := ih rfl hdb
      exact ⟨opened, List.mem_cons_of_mem _ hmem, hopened⟩
    | opening hopened => exact ⟨_, List.mem_cons_self, hopened⟩
    | opened _ hopened => exact ⟨_, List.mem_cons_self, hopened⟩
    | restricting hopened => exact absurd (hs ▸ hopened.1) hdisabled
    | restricted hrestricted => exact absurd (hs ▸ hrestricted) hfirst

/-- Every call that returns has opened the feature. -/
theorem exists_opened_mem_statesOf (h : Restricts featureState db₀) {failAt : Option ℕ}
    (hok : (runSetFeatureState featureState db₀ failAt).1 = .ok ()) :
    ∃ opened ∈ statesOf featureState db₀ failAt, Opened featureState opened := by
  obtain ⟨dbs, hobserved, hcommits, hreturned⟩ :=
    setFeatureState_triple_phases h (Session.open db₀ failAt) rfl
  obtain ⟨opened, hmem, hopened⟩ := exists_opened h hcommits rfl (hreturned () hok)
  rw [statesOf_eq hobserved]
  exact ⟨opened, List.mem_cons_of_mem _ hmem, hopened⟩

end Phases

/-! ## What `isActive` returns on the way -/

section Active

variable {featureState : FeatureState} {db db₀ : Database} {enabledByDefault : Text → Bool}
  {activationStrategies : List ActivationStrategy}

/-- In a fresh process `isActive` returns what the tables say. -/
theorem isActiveFrom_eq (hfinds : (jdbcManager enabledByDefault activationStrategies).FindsStreamed)
    {feature : Text} (hstreamed : db.Streamed feature) (clock : ℕ → ℕ) (user : Option Text) :
    isActiveFrom (jdbcManager enabledByDefault activationStrategies) clock db feature user =
      .ok (db.active enabledByDefault feature user) := by
  have hreads : (jdbcManager enabledByDefault activationStrategies).ReadsCurrent :=
    fun w feature hinv => jdbcGetFeatureState_returns hinv feature
  have hfresh : (World.fresh db clock).session.db.Streamed feature := hstreamed
  obtain ⟨w, hreturns, -⟩ := isActive_returns hfinds hreads (inv_fresh db clock) hfresh user
  rw [isActiveFrom, hreturns]
  rfl

/-- In the first state the feature is active only if it is enabled by default. -/
theorem active_of_restricts (h : Restricts featureState db₀) (user : Option Text) :
    db₀.active enabledByDefault featureState.feature user =
      ((db₀.features.lookup featureState.feature).isNone &&
        enabledByDefault featureState.feature) := by
  unfold Database.active
  cases hrow : db₀.features.lookup featureState.feature with
  | none => simp
  | some row => simp [h.disabled row hrow]

/-- While it is not restricted, an enabled feature is active for everybody. -/
theorem active_of_opened (h : Restricts featureState db₀) (hdb : Opened featureState db)
    (user : Option Text) : db.active enabledByDefault featureState.feature user = true := by
  have hunrestricted : db.restricted featureState.feature = false := by
    rw [Database.restricted, hdb.2]
    rfl
  simp [Database.active, hdb.1, (attrs_row_enabled featureState).trans h.enabled, hunrestricted]

/-- Once it is restricted, it is active for its users. -/
theorem active_of_restricted (h : Restricts featureState db₀) (hdb : Restricted featureState db)
    (user : Option Text) :
    db.active enabledByDefault featureState.feature user =
      db.activated featureState.feature user := by
  have hrestricted : db.restricted featureState.feature = true := by
    rw [Database.restricted, hdb.2]
    exact Text.equalsIgnoreCase_self _
  simp [Database.active, hdb.1, (attrs_row_enabled featureState).trans h.enabled, hrestricted]

theorem streamed_of_row (h : Restricts featureState db₀)
    (hdb : db.features.lookup featureState.feature = some featureState.row) :
    db.Streamed featureState.feature := by
  intro row hrow _
  obtain rfl := Option.some.inj (hdb.symm.trans hrow)
  exact h.strategy

theorem streamed_of_restricts (h : Restricts featureState db₀) :
    db₀.Streamed featureState.feature := by
  intro row hrow henabled
  rw [h.disabled row hrow] at henabled
  cases henabled

/-- A feature that is enabled and restricted is as before until its row is written, open to
everybody until `sw-state` is written, and from then on, in particular when the call has returned,
open to its users only. -/
theorem isActive_phases
    (hfinds : (jdbcManager enabledByDefault activationStrategies).FindsStreamed)
    (h : Restricts featureState db₀) (clock : ℕ → ℕ) (failAt : Option ℕ) :
    (∃ before window after,
      statesOf featureState db₀ failAt = before ++ window ++ after ∧
      (∀ db ∈ before, ∀ user,
        isActiveFrom (jdbcManager enabledByDefault activationStrategies) clock db
          featureState.feature user =
            .ok ((db₀.features.lookup featureState.feature).isNone &&
              enabledByDefault featureState.feature)) ∧
      (∀ db ∈ window, Opened featureState db ∧ ∀ user,
        isActiveFrom (jdbcManager enabledByDefault activationStrategies) clock db
          featureState.feature user = .ok true) ∧
      ∀ db ∈ after, ∀ user,
        isActiveFrom (jdbcManager enabledByDefault activationStrategies) clock db
          featureState.feature user = .ok (db.activated featureState.feature user)) ∧
    (runSetFeatureState featureState db₀ failAt).2.db ∈ statesOf featureState db₀ failAt ∧
    ((runSetFeatureState featureState db₀ failAt).1 = .ok () → ∀ user,
      isActiveFrom (jdbcManager enabledByDefault activationStrategies) clock
        (runSetFeatureState featureState db₀ failAt).2.db featureState.feature user =
          .ok ((runSetFeatureState featureState db₀ failAt).2.db.activated
            featureState.feature user)) := by
  have hrestricted : ∀ db, Restricted featureState db → ∀ user,
      isActiveFrom (jdbcManager enabledByDefault activationStrategies) clock db
        featureState.feature user = .ok (db.activated featureState.feature user) := by
    intro db hdb user
    rw [isActiveFrom_eq hfinds (streamed_of_row h hdb.1), active_of_restricted h hdb]
  -- the triple holds for every choice of the failing statement
  obtain ⟨dbs, hobserved, hcommits, hreturned⟩ :=
    setFeatureState_triple_phases h (Session.open db₀ failAt) rfl
  have hstates : statesOf featureState db₀ failAt = db₀ :: dbs := statesOf_eq hobserved
  refine ⟨?_, ?_, fun hok => hrestricted _ (hreturned () hok)⟩
  · obtain ⟨before, window, after, hphases, hbefore, hwindow, hafter⟩ :=
      exists_phases h hcommits.isChain
    refine ⟨before, window, after, hstates.trans hphases, fun db hdb user => ?_,
      fun db hdb => ⟨hwindow db hdb, fun user => ?_⟩, fun db hdb => hrestricted db (hafter db hdb)⟩
    · rw [hbefore db hdb, isActiveFrom_eq hfinds (streamed_of_restricts h), active_of_restricts h]
    · have hopened := hwindow db hdb
      rw [isActiveFrom_eq hfinds (streamed_of_row h hopened.1), active_of_opened h hopened]
  -- the state left behind is one of those seen
  · rw [hstates]
    exact hcommits.mem

end Active

/-- A feature "beta" restricted to its users, of whom there are none yet. -/
def restrictedBeta : FeatureState :=
  { feature := "beta".toList, enabled := true, strategyId := some getId
    parameters := AList.insert RESTRICTED_FEATURE_PARAM RESTRICTED_FEATURE_VAL ∅ }

theorem restricts_restrictedBeta : Restricts restrictedBeta Database.empty where
  enabled := rfl
  strategy := rfl
  restricted := AList.lookup_insert _
  disabled row hrow := by simp [Database.empty] at hrow
  unset := rfl

theorem fits_restrictedBeta : restrictedBeta.SwitchFits where
  empty := fun h => absurd h (by decide)
  parameters name hname := by
    obtain rfl : name = RESTRICTED_FEATURE_PARAM := List.mem_singleton.mp hname
    exact ⟨by decide, by decide⟩

/-- The feature "beta" enabled for "alice", whose parameter comes before `sw-state`. -/
def restrictedToAlice : FeatureState :=
  { feature := "beta".toList, enabled := true, strategyId := some getId
    parameters := AList.insert ADD_PARAM_KEY "alice".toList
      (AList.insert RESTRICTED_FEATURE_PARAM RESTRICTED_FEATURE_VAL ∅) }

/-- Tables in which the feature is disabled. -/
def disabledBeta : Database := Database.empty.store (FeatureState.new "beta".toList false)

theorem restricts_restrictedToAlice : Restricts restrictedToAlice disabledBeta where
  enabled := rfl
  strategy := rfl
  restricted := rfl
  disabled row hrow := by
    obtain rfl := Option.some.inj hrow
    rfl
  unset := rfl

theorem noNull_disabledBeta : disabledBeta.NoNull := by
  intro key
  have hnone : disabledBeta.parameters = ∅ := rfl
  simp [hnone]

theorem fits_restrictedToAlice : restrictedToAlice.SwitchFits where
  empty h := absurd h (by decide)
  parameters name hname := by
    have hnames : name ∈ [ADD_PARAM_KEY, RESTRICTED_FEATURE_PARAM] := hname
    rcases List.mem_pair.mp hnames with rfl | rfl
    · exact ⟨by decide, by decide⟩
    · exact ⟨by decide, by decide⟩

/-- Two of the states are before the call, six of them while the feature is open to everybody; when
the call has returned, it is active for "alice" and not for "eve". -/
theorem isActive_phases_restrictedToAlice :
    (∃ before window after,
      statesOf restrictedToAlice disabledBeta none = before ++ window ++ after ∧
      (∀ db ∈ before, ∀ user,
        isActiveFrom (jdbcManager (fun _ => false) [strategy]) (fun _ => 0) db
          restrictedToAlice.feature user = .ok false) ∧
      (∀ db ∈ window, Opened restrictedToAlice db ∧ ∀ user,
        isActiveFrom (jdbcManager (fun _ => false) [strategy]) (fun _ => 0) db
          restrictedToAlice.feature user = .ok true) ∧
      ∀ db ∈ after, ∀ user,
        isActiveFrom (jdbcManager (fun _ => false) [strategy]) (fun _ => 0) db
          restrictedToAlice.feature user = .ok (db.activated restrictedToAlice.feature user)) ∧
    (statesOf restrictedToAlice disabledBeta none).map
        (fun db => (db.features.lookup "beta".toList).map fun row =>
          (row.attrs.enabled, db.restricted "beta".toList)) =
      List.replicate 2 (some (false, false)) ++ List.replicate 6 (some (true, false)) ++
        [some (true, true)] ∧
    isActiveFrom (jdbcManager (fun _ => false) [strategy]) (fun _ => 0)
      (runSetFeatureState restrictedToAlice disabledBeta none).2.db restrictedToAlice.feature
      (some "alice".toList) = .ok true ∧
    isActiveFrom (jdbcManager (fun _ => false) [strategy]) (fun _ => 0)
      (runSetFeatureState restrictedToAlice disabledBeta none).2.db restrictedToAlice.feature
      (some "eve".toList) = .ok false := by
  have hfinds : (jdbcManager (fun _ => false) [strategy]).FindsStreamed := rfl
  obtain ⟨⟨before, window, after, hstates, hbefore, hwindow, hafter⟩, -, hreturned⟩ :=
    isActive_phases hfinds restricts_restrictedToAlice (fun _ => 0) none
  have hok : (runSetFeatureState restrictedToAlice disabledBeta none).1 = .ok () :=
    runSetFeatureState_ok noNull_disabledBeta fits_restrictedToAlice
  refine ⟨⟨before, window, after, hstates, ?_, hwindow, hafter⟩, by decide +kernel, ?_, ?_⟩
  · intro db hdb user
    rw [hbefore db hdb user, Bool.and_false]
  · rw [hreturned hok]
    exact congrArg Except.ok (by decide +kernel)
  · rw [hreturned hok]
    exact congrArg Except.ok (by decide +kernel)

/-- While it is being enabled, it is active for a user who is not one of its users. -/
theorem opened_restrictedBeta :
    Restricts restrictedBeta Database.empty ∧
    ¬∀ db ∈ statesOf restrictedBeta Database.empty none, ∀ user,
      isActiveFrom (jdbcManager (fun _ => false) [strategy]) (fun _ => 0) db
        restrictedBeta.feature user = .ok true →
      db.activated restrictedBeta.feature user = true := by
  refine ⟨restricts_restrictedBeta, fun hclosed => ?_⟩
  have hok : (runSetFeatureState restrictedBeta Database.empty none).1 = .ok () :=
    runSetFeatureState_ok (fun key => by simp [Database.empty]) fits_restrictedBeta
  obtain ⟨opened, hmem, hopened⟩ := exists_opened_mem_statesOf restricts_restrictedBeta hok
  have hactive : isActiveFrom (jdbcManager (fun _ => false) [strategy]) (fun _ => 0) opened
      restrictedBeta.feature (some "eve".toList) = .ok true := by
    have hfinds : (jdbcManager (fun _ => false) [strategy]).FindsStreamed := rfl
    rw [isActiveFrom_eq hfinds (streamed_of_row restricts_restrictedBeta hopened.1),
      active_of_opened restricts_restrictedBeta hopened]
  -- the call does not write the user's parameter
  have hkey : ∀ name ∈ restrictedBeta.getParameterNames,
      writtenKey restrictedBeta name ≠ getUserActivationKey (some "eve".toList) := by decide
  have hactivated := hclosed opened hmem (some "eve".toList) hactive
  have hunset := getParameter_of_mem_statesOf hkey hmem
  simp only [Database.activated, Option.any_some, decide_eq_true_eq] at hactivated
  rw [hactivated] at hunset
  cases hunset

end Togglz
