import JavaExamples.Ebean.TransactionManager

/-!
# A library in memory

A `Library` of which the state is known, and which keeps the `Contract`: transactions of Ebean's are
numbered in the order in which they are constructed, each with a connection of its own, and
synchronizations can be registered as long as a transaction is active.

* `InMemory.contract` — the contract.
-/

namespace Ebean.InMemory

open Program Function

structure Memory where
  associated : ℕ → Option ℕ
  statusOf : ℕ → Status
  resource : ℕ → Option ℕ
  registered : List ℕ
  scope : ℕ → Option ℕ
  /-- The number of transactions constructed. -/
  opened : ℕ
  active : ℕ → Bool

/-- `IllegalStateException` -/
inductive Failure where
  | illegalState

def Memory.view (m : Memory) : View ℕ ℕ ℕ where
  associated := m.associated
  statusOf := m.statusOf
  resource := m.resource
  registered := {e | e ∈ m.registered}
  scope := m.scope
  constructed := {e | e < m.opened}
  active := m.active

/-- Nothing has happened yet. -/
def initial : Memory where
  associated _ := none
  statusOf _ := .noTransaction
  resource _ := none
  registered := []
  scope _ := none
  opened := 0
  active _ := false

/-- A method that reads. -/
def read {α : Type} (f : Memory → α) : Program Memory Failure α := step fun m => (f m, m)

/-- A method that writes. -/
def write (f : Memory → Memory) : Program Memory Failure Unit := step fun m => ((), f m)

def getTransactionStatus (thread : ℕ) : Program Memory Failure Status :=
  read fun m => m.view.status thread

def registerInterposedSynchronization (thread : ℕ) (sync : EbeanSynchronization ℕ) :
    Program Memory Failure Unit := do
  if (← getTransactionStatus thread) ≠ .active then throw .illegalState
  write fun m => { m with registered := sync.transaction :: m.registered }

def newJtaTransaction : Program Memory Failure ℕ :=
  step fun m =>
    (m.opened, { m with opened := m.opened + 1, active := update m.active m.opened true })

def library : Library Memory Failure ℕ ℕ ℕ where
  getTransactionStatus := getTransactionStatus
  getResource thread := read fun m => (m.associated thread).bind m.resource
  putResource thread transaction := write fun m =>
    match m.associated thread with
    | none => m
    | some n => { m with resource := update m.resource n (some transaction) }
  registerInterposedSynchronization := registerInterposedSynchronization
  newJtaTransaction _ := newJtaTransaction
  inScope thread := read fun m => m.scope thread
  replace thread transaction := write fun m =>
    { m with scope := update m.scope thread (some transaction) }
  clearExternal thread := write fun m => { m with scope := update m.scope thread none }
  isActive transaction := read fun m => m.active transaction
  preCommit _ := pure ()
  postCommit _ := pure ()
  postRollback _ := pure ()
  deactivateExternal transaction := write fun m =>
    { m with active := update m.active transaction false }
  internalConnection transaction := pure (some transaction)
  close _ := pure ()

/-- What the application, Narayana and Ebean do. -/
inductive Act where
  | associate (thread : ℕ) (n : Option ℕ)
  | setStatus (n : ℕ) (status : Status)
  | setScope (thread : ℕ) (transaction : Option ℕ)

def Act.apply : Act → Memory → Memory
  | .associate thread n, m => { m with associated := update m.associated thread n }
  | .setStatus n status, m => { m with statusOf := update m.statusOf n status }
  | .setScope thread transaction, m => { m with scope := update m.scope thread transaction }

theorem view_register (m : Memory) (transaction : ℕ) :
    Memory.view { m with registered := transaction :: m.registered } =
      m.view.register transaction := by
  have hregistered : {e | e ∈ transaction :: m.registered} =
      insert transaction {e | e ∈ m.registered} := by
    ext e
    exact List.mem_cons
  simp only [Memory.view, View.register, hregistered]

theorem leaves_registerInterposedSynchronization (thread transaction : ℕ) (m : Memory) :
    Leaves Memory.view (registerInterposedSynchronization thread { transaction }) m (.ok ())
        (m.view.register transaction) ∨
      ∃ e, Leaves Memory.view (registerInterposedSynchronization thread { transaction }) m
        (.error e) m.view := by
  have hstatus : perform (getTransactionStatus thread) m = (.ok (m.view.status thread), m) := rfl
  by_cases hactive : m.view.status thread = .active
  · left
    refine ⟨{ m with registered := transaction :: m.registered }, ?_, view_register m transaction⟩
    rw [registerInterposedSynchronization, perform_bind, hstatus]
    simp only [hactive, ne_eq, not_true_eq_false, if_false]
    rfl
  · refine .inr ⟨.illegalState, m, ?_, rfl⟩
    rw [registerInterposedSynchronization, perform_bind, hstatus]
    simp only [ne_eq, hactive, not_false_eq_true, if_true]
    rfl

theorem constructs_newJtaTransaction (m : Memory) :
    m.view.Constructs
      (Memory.view { m with opened := m.opened + 1, active := update m.active m.opened true }) where
  resource := rfl
  registered := rfl
  constructed _ he := Nat.lt_succ_of_lt he
  associated := rfl
  statusOf := rfl
  scope := rfl

/-- The methods do what they are relied on for. -/
theorem contract : Contract library Act.apply Memory.view id where
  getTransactionStatus thread m := ⟨m, rfl, rfl⟩
  getResource thread m n hassociated := by
    have hperform : perform (library.getResource thread) m =
        (.ok ((m.view.associated thread).bind m.resource), m) := rfl
    rw [hassociated, Option.bind_some] at hperform
    exact ⟨m, hperform, rfl⟩
  putResource thread transaction m n hassociated := by
    have hperform : perform (library.putResource thread transaction) m =
        (.ok (), match m.view.associated thread with
          | none => m
          | some n => { m with resource := update m.resource n (some transaction) }) := rfl
    rw [hassociated] at hperform
    exact ⟨_, hperform, rfl⟩
  registerInterposedSynchronization := leaves_registerInterposedSynchronization
  newJtaTransaction thread m := by
    refine ⟨_, constructs_newJtaTransaction m, .inl ⟨m.opened, ?_, ?_, _, rfl, rfl⟩⟩
    · exact Nat.lt_succ_self m.opened
    · exact Nat.lt_irrefl m.opened
  inScope thread m := ⟨m, rfl, rfl⟩
  replace thread transaction m := ⟨_, rfl, rfl⟩
  clearExternal thread m := ⟨_, rfl, rfl⟩
  isActive transaction m := ⟨m, rfl, rfl⟩
  preCommit transaction m := .refl m.view
  postCommit transaction m := .refl m.view
  postRollback transaction m := .refl m.view
  deactivateExternal transaction m :=
    ⟨Memory.view { m with active := update m.active transaction false }, ⟨rfl, rfl, subset_rfl⟩,
      _, rfl, rfl⟩
  internalConnection transaction m := ⟨m, rfl, rfl⟩
  close c m := ⟨m.view, .refl m.view, m, rfl, rfl⟩
  other act m := by
    cases act with
    | associate thread n => exact ⟨rfl, rfl, subset_rfl⟩
    | setStatus n status => exact ⟨rfl, rfl, subset_rfl⟩
    | setScope thread transaction => exact ⟨rfl, rfl, subset_rfl⟩

end Ebean.InMemory
