import JavaExamples.Common.Program

/-!
# Programs in transactions

A program of statements on a database of type `σ`, in which parts run in transactions as their
propagation says. A transaction is known by the changes it will make to what has been committed; one
in which a statement has failed is aborted, up to a savepoint.

* `execute`, `executeUpdate` — one statement.
* `transactional` — a program in a transaction, for each `Propagation`.
* `idle s` — no transaction is open, and `s` has been committed.
* `Within s t rollbackOnly aborted` — a transaction begun on `s` sees `t`.

The rules say how each propagation takes a program that returns, and one that throws, from one of
these to another. `RunsAs body f` says that in a transaction `body` does what the function `f` does;
`RunsAs.required` makes of this that a transaction commits all of it or nothing.
-/

namespace Transactions

open Program

/-- What a program throws: an exception of its own, or one from the transactions it runs in. -/
inductive Thrown (ε : Type) where
  | application (e : ε)
  /-- A transaction was to be committed that had been marked for rollback. -/
  | unexpectedRollback
  | noExistingTransaction
  /-- A statement in a transaction in which another one has failed. -/
  | aborted

structure Transaction (σ : Type) where
  changes : σ → σ
  rollbackOnly : Bool
  aborted : Bool

/-- What has been committed and the open transaction. -/
structure Db (σ : Type) where
  committed : σ
  current : Option (Transaction σ)

abbrev Transactional (σ ε : Type) := Program (Db σ) (Thrown ε)

variable {σ ε α : Type}

/-- One statement, on its own or in the open transaction. -/
def execute (write : σ → Except ε σ) : Transactional σ ε Unit :=
  ExceptT.mk fun db =>
    match db.current with
    | none =>
      match write db.committed with
      | .ok s => (.ok (), { db with committed := s })
      | .error e => (.error (.application e), db)
    | some transaction =>
      if transaction.aborted then (.error .aborted, db)
      else
        match write (transaction.changes db.committed) with
        | .ok _ =>
          let changes s := (write (transaction.changes s)).toOption.getD s
          (.ok (), { db with current := some { transaction with changes } })
        | .error e =>
          (.error (.application e),
            { db with current := some { transaction with aborted := true } })

/-- One statement that returns the number of the rows it has written. -/
def executeUpdate (write : σ → Except ε (ℕ × σ)) : Transactional σ ε ℕ :=
  ExceptT.mk fun db =>
    match db.current with
    | none =>
      match write db.committed with
      | .ok written => (.ok written.1, { db with committed := written.2 })
      | .error e => (.error (.application e), db)
    | some transaction =>
      if transaction.aborted then (.error .aborted, db)
      else
        match write (transaction.changes db.committed) with
        | .ok written =>
          let changes s := ((write (transaction.changes s)).map Prod.snd).toOption.getD s
          (.ok written.1, { db with current := some { transaction with changes } })
        | .error e =>
          (.error (.application e),
            { db with current := some { transaction with aborted := true } })

/-! ## Transactions -/

def current : Transactional σ ε (Option (Transaction σ)) := step fun db => (db.current, db)

/-- Makes another transaction the open one. What the one before has not committed is lost. -/
def resume (suspended : Option (Transaction σ)) : Transactional σ ε Unit :=
  step fun db => ((), { db with current := suspended })

/-- A transaction that has done nothing. -/
def Transaction.new : Transaction σ := { changes := id, rollbackOnly := false, aborted := false }

/-- Commits the open transaction. One that is aborted is rolled back without an exception. -/
def commit : Transactional σ ε Unit :=
  ExceptT.mk fun db =>
    match db.current with
    | none => (.ok (), db)
    | some transaction =>
      if transaction.rollbackOnly then (.error .unexpectedRollback, db)
      else if transaction.aborted then (.ok (), db)
      else (.ok (), { db with committed := transaction.changes db.committed })

def setRollbackOnly : Transactional σ ε Unit :=
  step fun db => ((), { db with current := db.current.map ({ · with rollbackOnly := true }) })

/-- Makes the open transaction what it has been at `savepoint`, apart from its mark for rollback. -/
def rollbackTo (savepoint : Transaction σ) : Transactional σ ε Unit :=
  step fun db => ((), { db with
    current := db.current.map fun t => { savepoint with rollbackOnly := t.rollbackOnly } })

/-- Ends what has run since `savepoint`, which is undone if the transaction is to be rolled back. -/
def release (savepoint : Transaction σ) : Transactional σ ε Unit := do
  if (← current).any Transaction.rollbackOnly then rollbackTo savepoint

/-- Which exceptions do not roll back. -/
abbrev NoRollbackFor (ε : Type) := Thrown ε → Bool

/-- Commits what `body` has done unless it throws. -/
def committing (noRollbackFor : NoRollbackFor ε) (body : Transactional σ ε α) :
    Transactional σ ε α := do
  let a ← tryCatch body fun e => do
    if noRollbackFor e then commit
    throw e
  commit
  return a

/-- In a transaction of its own. -/
def inNew (noRollbackFor : NoRollbackFor ε) (body : Transactional σ ε α) :
    Transactional σ ε α := do
  let suspended ← current
  resume (some .new)
  andFinally (committing noRollbackFor body) (resume suspended)

/-- In the open transaction. -/
def joined (noRollbackFor : NoRollbackFor ε) (body : Transactional σ ε α) :
    Transactional σ ε α :=
  tryCatch body fun e => do
    unless noRollbackFor e do setRollbackOnly
    throw e

/-- In the open transaction, which is now at `savepoint`. -/
def nested (savepoint : Transaction σ) (noRollbackFor : NoRollbackFor ε)
    (body : Transactional σ ε α) : Transactional σ ε α := do
  let a ← tryCatch body fun e => do
    if noRollbackFor e then release savepoint else rollbackTo savepoint
    throw e
  release savepoint
  return a

inductive Propagation where
  | required
  | nested
  | mandatory
  | notSupported
  | requiresNew

def transactional (propagation : Propagation) (noRollbackFor : NoRollbackFor ε)
    (body : Transactional σ ε α) : Transactional σ ε α := do
  match propagation, ← current with
  | .mandatory, none => throw .noExistingTransaction
  | .notSupported, suspended => do
    resume none
    andFinally body (resume suspended)
  | .required, none | .nested, none | .requiresNew, _ => inNew noRollbackFor body
  | .required, some _ | .mandatory, some _ => joined noRollbackFor body
  | .nested, some savepoint => nested savepoint noRollbackFor body

/-! ## What a program in a transaction sees -/

/-- No transaction is open, and `s` has been committed. -/
def idle (s : σ) : Db σ := { committed := s, current := none }

/-- A transaction begun on `s` sees `t`. -/
structure Within (s t : σ) (rollbackOnly aborted : Bool) (db : Db σ) : Prop where
  committed : db.committed = s
  current : ∃ changes, db.current = some { changes, rollbackOnly, aborted } ∧ changes s = t

section Rules

variable {s t u : σ} {db db' : Db σ} {rollbackOnly aborted rollbackOnly' aborted' : Bool} {a : α}
  {e : ε} {thrown : Thrown ε} {write : σ → Except ε σ} {propagation : Propagation}
  {noRollbackFor : NoRollbackFor ε} {body : Transactional σ ε α}

theorem Within.execute_returns (hdb : Within s t rollbackOnly false db) (hwrite : write t = .ok u) :
    ∃ db', Returns (execute write) db () db' ∧ Within s u rollbackOnly false db' := by
  obtain ⟨rfl, changes, hcurrent, rfl⟩ := hdb
  let changes' s := (write (changes s)).toOption.getD s
  have hview : changes' db.committed = u := by simp only [changes', hwrite]; rfl
  refine ⟨{ db with current := some { changes := changes', rollbackOnly, aborted := false } }, ?_,
    rfl, changes', rfl, hview⟩
  show (match db.current with | none => _ | some transaction => _) = _
  simp only [hcurrent, hwrite]
  rfl

theorem Within.execute_throws (hdb : Within s t rollbackOnly false db)
    (hwrite : write t = .error e) :
    ∃ db', Throws (execute write) db (.application e) db' ∧ Within s t rollbackOnly true db' := by
  obtain ⟨rfl, changes, hcurrent, rfl⟩ := hdb
  refine ⟨{ db with current := some { changes, rollbackOnly, aborted := true } }, ?_, rfl, changes,
    rfl, rfl⟩
  show (match db.current with | none => _ | some transaction => _) = _
  simp only [hcurrent, hwrite]
  rfl

theorem Within.executeUpdate_returns {update : σ → Except ε (ℕ × σ)} {n : ℕ}
    (hdb : Within s t rollbackOnly false db) (hupdate : update t = .ok (n, u)) :
    ∃ db', Returns (executeUpdate update) db n db' ∧ Within s u rollbackOnly false db' := by
  obtain ⟨rfl, changes, hcurrent, rfl⟩ := hdb
  let changes' s := ((update (changes s)).map Prod.snd).toOption.getD s
  have hview : changes' db.committed = u := by simp only [changes', hupdate]; rfl
  refine ⟨{ db with current := some { changes := changes', rollbackOnly, aborted := false } }, ?_,
    rfl, changes', rfl, hview⟩
  show (match db.current with | none => _ | some transaction => _) = _
  simp only [hcurrent, hupdate]
  rfl

theorem Within.executeUpdate_throws {update : σ → Except ε (ℕ × σ)}
    (hdb : Within s t rollbackOnly false db) (hupdate : update t = .error e) :
    ∃ db', Throws (executeUpdate update) db (.application e) db' ∧
      Within s t rollbackOnly true db' := by
  obtain ⟨rfl, changes, hcurrent, rfl⟩ := hdb
  refine ⟨{ db with current := some { changes, rollbackOnly, aborted := true } }, ?_, rfl, changes,
    rfl, rfl⟩
  show (match db.current with | none => _ | some transaction => _) = _
  simp only [hcurrent, hupdate]
  rfl

/-! ### In a transaction of its own -/

theorem returns_current (db : Db σ) : Returns (current : Transactional σ ε _) db db.current db :=
  Returns.step _ db

theorem returns_resume (suspended : Option (Transaction σ)) (db : Db σ) :
    Returns (resume suspended : Transactional σ ε Unit) db () { db with current := suspended } :=
  Returns.step _ db

theorem within_new (s : σ) :
    Within s s false false { committed := s, current := some Transaction.new } :=
  ⟨rfl, id, rfl, rfl⟩

theorem Within.commit_returns (hdb : Within s t false false db) :
    Returns (commit : Transactional σ ε Unit) db () { db with committed := t } := by
  obtain ⟨rfl, changes, hcurrent, rfl⟩ := hdb
  show (match db.current with | none => _ | some transaction => _) = _
  simp only [hcurrent]
  rfl

/-- A program that begins a transaction and returns commits what it sees. -/
theorem returns_required
    (hbody : Returns body { committed := s, current := some .new } a db)
    (hdb : Within s t false false db) :
    Returns (transactional .required noRollbackFor body) (idle s) a (idle t) := by
  have hcommitting : Returns (committing noRollbackFor body)
      { committed := s, current := some .new } a { db with committed := t } :=
    (hbody.tryCatch _).bind (hdb.commit_returns.bind (Returns.pure a _))
  have hinNew : Returns (inNew noRollbackFor body) (idle s) a (idle t) :=
    (returns_current _).bind ((returns_resume _ _).bind
      (hcommitting.andFinally (returns_resume none _)))
  exact (returns_current _).bind hinNew

/-- A program that begins a transaction and throws leaves what has been committed before. -/
theorem throws_required
    (hbody : Throws body { committed := s, current := some .new } thrown db)
    (hdb : db.committed = s) (hrollback : noRollbackFor thrown = false) :
    Throws (transactional .required noRollbackFor body) (idle s) thrown (idle s) := by
  have hcommitting : Throws (committing noRollbackFor body)
      { committed := s, current := some .new } thrown db := by
    refine (hbody.tryCatch ?_).bind _
    rw [if_neg (Bool.eq_false_iff.mp hrollback)]
    exact Throws.throw thrown db
  have hinNew : Throws (inNew noRollbackFor body) (idle s) thrown (idle s) := by
    obtain ⟨rfl⟩ := hdb
    exact (returns_current _).bind_throws ((returns_resume _ _).bind_throws
      (hcommitting.andFinally (returns_resume none _)))
  exact (returns_current _).bind_throws hinNew

/-! ### In the open transaction -/

theorem Within.setRollbackOnly (ε : Type) (hdb : Within s t rollbackOnly aborted db) :
    ∃ db', Returns (setRollbackOnly : Transactional σ ε Unit) db () db' ∧
      Within s t true aborted db' := by
  obtain ⟨hcommitted, changes, hcurrent, hview⟩ := hdb
  refine ⟨_, Returns.step _ db, hcommitted, changes, ?_, hview⟩
  rw [hcurrent]
  rfl

theorem Within.rollbackTo (ε : Type) (hdb : Within s u rollbackOnly aborted db)
    {changes : σ → σ} (hview : changes s = t) :
    ∃ db', Returns (rollbackTo { changes, rollbackOnly := rollbackOnly', aborted := aborted' } :
        Transactional σ ε Unit) db () db' ∧ Within s t rollbackOnly aborted' db' := by
  obtain ⟨hcommitted, _, hcurrent, -⟩ := hdb
  refine ⟨_, Returns.step _ db, hcommitted, changes, ?_, hview⟩
  rw [hcurrent]
  rfl

theorem Within.transactional_eq (hdb : Within s t rollbackOnly aborted db)
    (hpropagation : propagation = .required ∨ propagation = .mandatory) :
    perform (transactional propagation noRollbackFor body) db =
      perform (joined noRollbackFor body) db := by
  obtain ⟨-, changes, hcurrent, -⟩ := hdb
  rw [transactional, perform_bind, returns_current db]
  rcases hpropagation with rfl | rfl <;> simp only [hcurrent]

theorem Within.joined_returns (hdb : Within s t rollbackOnly aborted db)
    (hpropagation : propagation = .required ∨ propagation = .mandatory)
    (hbody : Returns body db a db') :
    Returns (transactional propagation noRollbackFor body) db a db' :=
  (hdb.transactional_eq hpropagation).trans (hbody.tryCatch _)

/-- A program that throws in a transaction that is not its own marks it for rollback. -/
theorem Within.joined_throws (hdb : Within s t rollbackOnly aborted db)
    (hpropagation : propagation = .required ∨ propagation = .mandatory)
    (hbody : Throws body db thrown db') (hdb' : Within s u rollbackOnly' aborted' db')
    (hrollback : noRollbackFor thrown = false) :
    ∃ db'', Throws (transactional propagation noRollbackFor body) db thrown db'' ∧
      Within s u true aborted' db'' := by
  obtain ⟨db'', hmark, hdb''⟩ := hdb'.setRollbackOnly ε
  refine ⟨db'', (hdb.transactional_eq hpropagation).trans (hbody.tryCatch ?_), hdb''⟩
  rw [if_neg (Bool.eq_false_iff.mp hrollback)]
  exact hmark.bind_throws (Throws.throw thrown db'')

/-! ### Up to a savepoint -/

theorem Within.nested_eq (hdb : Within s t rollbackOnly aborted db)
    (noRollbackFor : NoRollbackFor ε) (body : Transactional σ ε α) :
    ∃ changes, changes s = t ∧ perform (transactional .nested noRollbackFor body) db =
      perform (nested { changes, rollbackOnly, aborted } noRollbackFor body) db := by
  obtain ⟨-, changes, hcurrent, hview⟩ := hdb
  refine ⟨changes, hview, ?_⟩
  rw [transactional, perform_bind, returns_current db]
  simp only [hcurrent]

theorem Within.release_returns (hdb : Within s t false aborted db) (savepoint : Transaction σ) :
    Returns (release savepoint : Transactional σ ε Unit) db () db := by
  obtain ⟨-, changes, hcurrent, -⟩ := hdb
  refine (returns_current db).bind ?_
  rw [hcurrent]
  exact Returns.pure () db

theorem Within.nested_returns (hdb : Within s t rollbackOnly aborted db)
    (hbody : Returns body db a db') (hdb' : Within s u false aborted' db') :
    Returns (transactional .nested noRollbackFor body) db a db' := by
  obtain ⟨changes, -, heq⟩ := hdb.nested_eq noRollbackFor body
  exact heq.trans ((hbody.tryCatch _).bind
    ((hdb'.release_returns _).bind (Returns.pure a db')))

/-- A program that throws after a savepoint leaves what its transaction has seen before. -/
theorem Within.nested_throws (hdb : Within s t rollbackOnly aborted db)
    (hbody : Throws body db thrown db') (hdb' : Within s u rollbackOnly' aborted' db')
    (hrollback : noRollbackFor thrown = false) :
    ∃ db'', Throws (transactional .nested noRollbackFor body) db thrown db'' ∧
      Within s t rollbackOnly' aborted db'' := by
  obtain ⟨changes, hview, heq⟩ := hdb.nested_eq noRollbackFor body
  obtain ⟨db'', hrollbackTo, hdb''⟩ := hdb'.rollbackTo ε hview
  refine ⟨db'', heq.trans ((hbody.tryCatch ?_).bind _), hdb''⟩
  rw [if_neg (Bool.eq_false_iff.mp hrollback)]
  exact hrollbackTo.bind_throws (Throws.throw thrown db'')

/-! ### Without a transaction -/

theorem returns_notSupported (hbody : Returns body (idle s) a (idle t)) :
    Returns (transactional .notSupported noRollbackFor body) (idle s) a (idle t) :=
  (returns_current _).bind ((returns_resume none _).bind (hbody.andFinally (returns_resume none _)))

theorem throws_notSupported (hbody : Throws body (idle s) thrown (idle t)) :
    Throws (transactional .notSupported noRollbackFor body) (idle s) thrown (idle t) :=
  (returns_current _).bind_throws
    ((returns_resume none _).bind_throws (hbody.andFinally (returns_resume none _)))

/-- A program that needs a transaction is not run without one. -/
theorem throws_mandatory (s : σ) :
    Throws (transactional .mandatory noRollbackFor body) (idle s) .noExistingTransaction (idle s) :=
  (returns_current _).bind_throws (Throws.throw _ _)

end Rules

/-! ### As a function of what it sees -/

/-- In a transaction the program does to what it sees what `f` does, and throws what `f` does. -/
def RunsAs {σ ε : Type} (body : Transactional σ ε Unit) (f : σ → Except ε σ) : Prop :=
  ∀ s t db, Within s t false false db →
    (∀ u, f t = .ok u → ∃ db', Returns body db () db' ∧ Within s u false false db') ∧
    ∀ e, f t = .error e → ∃ db', Throws body db (.application e) db' ∧ db'.committed = s

section RunsAs

variable {σ ε : Type} {body next : Transactional σ ε Unit} {f g : σ → Except ε σ}

theorem RunsAs.seq (hbody : RunsAs body f) (hnext : RunsAs next g) :
    RunsAs (do body; next) fun t => f t >>= g := by
  intro s t db hdb
  obtain ⟨hok, herror⟩ := hbody s t db hdb
  cases hf : f t with
  | error e =>
    have hbind : (f t >>= g) = .error e := by rw [hf]; rfl
    obtain ⟨db', hthrows, hcommitted⟩ := herror e hf
    simp only [hbind]
    refine ⟨nofun, fun e' he' => ⟨db', ?_, hcommitted⟩⟩
    exact Except.error.inj he' ▸ hthrows.bind _
  | ok u =>
    have hbind : (f t >>= g) = g u := by rw [hf]; rfl
    obtain ⟨db', hreturns, hdb'⟩ := hok u hf
    obtain ⟨hok', herror'⟩ := hnext s u db' hdb'
    simp only [hbind]
    constructor
    · intro v hv
      obtain ⟨db'', hreturns', hdb''⟩ := hok' v hv
      exact ⟨db'', hreturns.bind hreturns', hdb''⟩
    · intro e he
      obtain ⟨db'', hthrows, hcommitted⟩ := herror' e he
      exact ⟨db'', hreturns.bind_throws hthrows, hcommitted⟩

/-- A program that throws where a condition holds. -/
theorem RunsAs.check (condition : Prop) [Decidable condition] (e : ε) :
    RunsAs (σ := σ) (if condition then throw (.application e) else pure ())
      fun t => if condition then .error e else .ok t := by
  intro s t db hdb
  by_cases hcondition : condition
  · simp only [if_pos hcondition]
    exact ⟨nofun, fun e' he' => ⟨db, Except.error.inj he' ▸ Throws.throw _ _, hdb.committed⟩⟩
  · simp only [if_neg hcondition]
    exact ⟨fun u hu => ⟨db, Returns.pure _ _, Except.ok.inj hu ▸ hdb⟩, nofun⟩

theorem RunsAs.execute (write : σ → Except ε σ) : RunsAs (execute write) write := by
  refine fun s t db hdb => ⟨fun u hu => hdb.execute_returns hu, fun e he => ?_⟩
  obtain ⟨db', hthrows, hdb'⟩ := hdb.execute_throws he
  exact ⟨db', hthrows, hdb'.committed⟩

/-- An update, with a condition on how many rows it may not have written. -/
theorem RunsAs.executeUpdate (update : σ → Except ε (ℕ × σ)) (refused : ℕ → Prop)
    [DecidablePred refused] (e : ε) :
    RunsAs (do
        let n ← executeUpdate update
        if refused n then throw (.application e))
      fun t => update t >>= fun written =>
        if refused written.1 then .error e else .ok written.2 := by
  intro s t db hdb
  cases hupdate : update t with
  | error e' =>
    obtain ⟨db', hthrows, hdb'⟩ := hdb.executeUpdate_throws hupdate
    simp only [hupdate]
    refine ⟨nofun, fun e'' he'' => ⟨db', ?_, hdb'.committed⟩⟩
    have he : e' = e'' := Except.error.inj he''
    exact he ▸ hthrows.bind _
  | ok written =>
    obtain ⟨db', hreturns, hdb'⟩ := hdb.executeUpdate_returns hupdate
    obtain ⟨hok, herror⟩ := RunsAs.check (σ := σ) (refused written.1) e s written.2 db' hdb'
    simp only [hupdate]
    constructor
    · intro u hu
      obtain ⟨db'', hreturns', hdb''⟩ := hok u hu
      exact ⟨db'', hreturns.bind hreturns', hdb''⟩
    · intro e' he'
      obtain ⟨db'', hthrows, hcommitted⟩ := herror e' he'
      exact ⟨db'', hreturns.bind_throws hthrows, hcommitted⟩

/-- In a transaction of its own it commits what `f` makes, or nothing. -/
theorem RunsAs.required (h : RunsAs body f) {noRollbackFor : NoRollbackFor ε}
    (hrollback : ∀ e, noRollbackFor e = false) (s : σ) :
    (∀ u, f s = .ok u → Returns (transactional .required noRollbackFor body) (idle s) () (idle u)) ∧
      ∀ e, f s = .error e →
        Throws (transactional .required noRollbackFor body) (idle s) (.application e) (idle s) := by
  obtain ⟨hok, herror⟩ := h s s _ (within_new s)
  constructor
  · intro u hu
    obtain ⟨db, hreturns, hdb⟩ := hok u hu
    exact returns_required hreturns hdb
  · intro e he
    obtain ⟨db, hthrows, hcommitted⟩ := herror e he
    exact throws_required hthrows hcommitted (hrollback _)

end RunsAs

end Transactions
