import Mathlib.Data.Set.Insert
import Mathlib.Logic.Function.Basic
import JavaExamples.Common.Program

/-!
# Ebean in Narayana's transactions

`QuarkusEbeanTransactionManager` makes Ebean take part in the transactions that Narayana runs. When
Ebean asks for its current transaction, the one that has been kept as a resource of Narayana's
current transaction is returned, and the first time a new one is opened. A synchronization ends it
together with Narayana's.

**Parameters.** The methods of Narayana's registry, of Ebean and of its data source are not part of
the repository: they are the fields of a `Library`, programs on states of any type. `T`, `N`, `E`
and `C` are the types of threads, of Narayana's transactions, of Ebean's and of connections.

* `getCurrentTransaction`, `enlistCurrentTransaction`, `currentEbeanTransaction` — the methods.
* `EbeanSynchronization.beforeCompletion`, `afterCompletion` — what Narayana calls.
* `View` — what can be told of a state.
* `Contract` — what the methods rely on, in terms of the view.
* `CallEffect` — what a call of `getCurrentTransaction` may do.
-/

namespace Ebean

open Program Function

/-- `jakarta.transaction.Status`. -/
inductive Status where
  | active
  | markedRollback
  | prepared
  | committed
  | rolledBack
  | unknown
  | noTransaction
  | preparing
  | committing
  | rollingBack
  deriving DecidableEq

/-- The synchronization that ends a transaction of Ebean's. -/
structure EbeanSynchronization (E : Type) where
  transaction : E

/-- What the class calls, on the thread it runs on; `none` stands for `null`. -/
structure Library (σ ε T E C : Type) where
  -- `TransactionSynchronizationRegistry`, with the `resourceKey` of the class
  getTransactionStatus : T → Program σ ε Status
  getResource : T → Program σ ε (Option E)
  putResource : T → E → Program σ ε Unit
  registerInterposedSynchronization : T → EbeanSynchronization E → Program σ ε Unit
  /-- `new JtaTransaction(true, userTransaction, dataSource, transactionManager)` -/
  newJtaTransaction : T → Program σ ε E
  -- `TransactionScopeManager`
  inScope : T → Program σ ε (Option E)
  replace : T → E → Program σ ε Unit
  clearExternal : T → Program σ ε Unit
  -- `SpiTransaction`
  isActive : E → Program σ ε Bool
  preCommit : E → Program σ ε Unit
  postCommit : E → Program σ ε Unit
  postRollback : E → Program σ ε Unit
  deactivateExternal : E → Program σ ε Unit
  internalConnection : E → Program σ ε (Option C)
  /-- `JdbcClose.close` -/
  close : Option C → Program σ ε Unit

/-! ## The methods -/

section Methods

variable {σ ε T E C : Type} [DecidableEq E] (lib : Library σ ε T E C)

def enlistCurrentTransaction (thread : T) : Program σ ε E := do
  let transaction ← lib.newJtaTransaction thread
  lib.putResource thread transaction
  lib.registerInterposedSynchronization thread { transaction }
  lib.replace thread transaction
  return transaction

def currentEbeanTransaction (thread : T) : Program σ ε (Option E) := do
  match ← lib.inScope thread with
  | none => return none
  | some transaction =>
    if ← lib.isActive transaction then return some transaction
    lib.clearExternal thread
    return none

def getCurrentTransaction (thread : T) : Program σ ε (Option E) := do
  let status ← lib.getTransactionStatus thread
  if status = .noTransaction then currentEbeanTransaction lib thread
  else if status ≠ .active ∧ status ≠ .markedRollback then return none
  else
    match ← lib.getResource thread with
    | some current =>
      if (← lib.inScope thread) ≠ some current then lib.replace thread current
      return some current
    | none => return some (← enlistCurrentTransaction lib thread)

namespace EbeanSynchronization

def beforeCompletion (sync : EbeanSynchronization E) : Program σ ε Unit :=
  lib.preCommit sync.transaction

def afterCompletion (sync : EbeanSynchronization E) (thread : T) (status : Status) :
    Program σ ε Unit :=
  andFinally
    (if status = .committed then lib.postCommit sync.transaction
      else lib.postRollback sync.transaction)
    (do
      lib.deactivateExternal sync.transaction
      if (← lib.inScope thread) = some sync.transaction then lib.clearExternal thread
      lib.close (← lib.internalConnection sync.transaction))

end EbeanSynchronization

end Methods

/-! ## What the methods rely on -/

/-- What can be told of a state: the transaction of Narayana's that a thread is associated with, and
its status; what has been put under `resourceKey`; the transactions of Ebean's of which the
synchronization has been registered; what is in a thread's scope; the transactions of Ebean's there
are, and whether they are active. -/
structure View (T N E : Type) where
  associated : T → Option N
  statusOf : N → Status
  resource : N → Option E
  registered : Set E
  scope : T → Option E
  constructed : Set E
  active : E → Bool

namespace View

variable {T N E : Type}

def status (v : View T N E) (thread : T) : Status :=
  match v.associated thread with
  | none => .noTransaction
  | some n => v.statusOf n

/-- The thread is associated with `n`, which can still be worked in. -/
def OpenOn (v : View T N E) (thread : T) (n : N) : Prop :=
  v.associated thread = some n ∧ (v.statusOf n = .active ∨ v.statusOf n = .markedRollback)

theorem OpenOn.eq {v : View T N E} {thread : T} {m n : N} (h : v.OpenOn thread m)
    (h' : v.OpenOn thread n) : m = n := Option.some.inj (h.1.symm.trans h'.1)

theorem OpenOn.status_ne {v : View T N E} {thread : T} {n : N} (h : v.OpenOn thread n) :
    v.status thread ≠ .noTransaction := by
  rw [status, h.1]
  rcases h.2 with hstatus | hstatus <;> simp [hstatus]

def put [DecidableEq N] (v : View T N E) (n : N) (transaction : E) : View T N E :=
  { v with resource := update v.resource n (some transaction) }

def register (v : View T N E) (transaction : E) : View T N E :=
  { v with registered := insert transaction v.registered }

def setScope [DecidableEq T] (v : View T N E) (thread : T) (transaction : Option E) : View T N E :=
  { v with scope := update v.scope thread transaction }

/-- Nothing is put under `resourceKey`, no synchronization registered, and no transaction of Ebean's
constructed a second time. -/
structure Keeps (v v' : View T N E) : Prop where
  resource : v'.resource = v.resource
  registered : v'.registered = v.registered
  constructed : v.constructed ⊆ v'.constructed

theorem Keeps.refl (v : View T N E) : v.Keeps v := ⟨rfl, rfl, subset_rfl⟩

/-- Besides, no thread gets another transaction. -/
structure Constructs (v v' : View T N E) : Prop extends Keeps v v' where
  associated : v'.associated = v.associated
  statusOf : v'.statusOf = v.statusOf
  scope : v'.scope = v.scope

end View

section Contract

variable {σ ε T N E C O : Type} [DecidableEq T] [DecidableEq N]

/-- What the methods called do, as their documentation says, where `view` tells what there is of a
state, `connection` is the connection that a transaction of Ebean's works on, and `other` is what
happens between the calls: what the application, Narayana and Ebean do on any thread. -/
structure Contract (lib : Library σ ε T E C) (other : O → σ → σ) (view : σ → View T N E)
    (connection : E → C) : Prop where
  getTransactionStatus : ∀ thread s,
    Leaves view (lib.getTransactionStatus thread) s (.ok ((view s).status thread)) (view s)
  getResource : ∀ thread s n, (view s).associated thread = some n →
    Leaves view (lib.getResource thread) s (.ok ((view s).resource n)) (view s)
  putResource : ∀ thread transaction s n, (view s).associated thread = some n →
    Leaves view (lib.putResource thread transaction) s (.ok ()) ((view s).put n transaction)
  /-- It may throw, as where a transaction is marked for rollback. -/
  registerInterposedSynchronization : ∀ thread transaction s,
    Leaves view (lib.registerInterposedSynchronization thread { transaction }) s (.ok ())
        ((view s).register transaction) ∨
      ∃ e, Leaves view (lib.registerInterposedSynchronization thread { transaction }) s (.error e)
        (view s)
  /-- A new object, or there is no connection. -/
  newJtaTransaction : ∀ thread s, ∃ v, (view s).Constructs v ∧
    ((∃ transaction ∈ v.constructed, transaction ∉ (view s).constructed ∧
      Leaves view (lib.newJtaTransaction thread) s (.ok transaction) v) ∨
    ∃ e, Leaves view (lib.newJtaTransaction thread) s (.error e) v)
  inScope : ∀ thread s,
    Leaves view (lib.inScope thread) s (.ok ((view s).scope thread)) (view s)
  replace : ∀ thread transaction s,
    Leaves view (lib.replace thread transaction) s (.ok ())
      ((view s).setScope thread (some transaction))
  clearExternal : ∀ thread s,
    Leaves view (lib.clearExternal thread) s (.ok ()) ((view s).setScope thread none)
  isActive : ∀ transaction s,
    Leaves view (lib.isActive transaction) s (.ok ((view s).active transaction)) (view s)
  -- the three callbacks may throw
  preCommit : ∀ transaction s, (view s).Keeps (view (perform (lib.preCommit transaction) s).2)
  postCommit : ∀ transaction s, (view s).Keeps (view (perform (lib.postCommit transaction) s).2)
  postRollback : ∀ transaction s, (view s).Keeps (view (perform (lib.postRollback transaction) s).2)
  deactivateExternal : ∀ transaction s, ∃ v, (view s).Keeps v ∧
    Leaves view (lib.deactivateExternal transaction) s (.ok ()) v
  /-- A transaction keeps its connection: `deactivateExternal` leaves it, and nobody else ends the
  transaction. -/
  internalConnection : ∀ transaction s,
    Leaves view (lib.internalConnection transaction) s (.ok (some (connection transaction)))
      (view s)
  /-- It logs what closing throws. -/
  close : ∀ c s, ∃ v, (view s).Keeps v ∧ Leaves view (lib.close c) s (.ok ()) v
  /-- `resourceKey` and `EbeanSynchronization` are private to the class; the scope is not. -/
  other : ∀ o s, (view s).Keeps (view (other o s))

/-! ## What a call does -/

/-- How a call may end, and what it leaves. -/
inductive CallEffect {ε : Type} (v : View T N E) (thread : T) :
    Except ε (Option E) → View T N E → Prop
  /-- What is in the scope of the thread, if it is active. -/
  | outside (hstatus : v.status thread = .noTransaction) :
      CallEffect v thread (.ok ((v.scope thread).filter v.active))
        (v.setScope thread ((v.scope thread).filter v.active))
  /-- Narayana's transaction is being completed. -/
  | completing (hopen : ∀ n, ¬v.OpenOn thread n) : CallEffect v thread (.ok none) v
  | resource {n : N} {transaction : E} (hopen : v.OpenOn thread n)
      (hresource : v.resource n = some transaction) :
      CallEffect v thread (.ok (some transaction)) (v.setScope thread (some transaction))
  | enlisted {n : N} {transaction : E} {w : View T N E} (hopen : v.OpenOn thread n)
      (hresource : v.resource n = none) (hw : v.Constructs w) (hnew : transaction ∉ v.constructed)
      (htransaction : transaction ∈ w.constructed) :
      CallEffect v thread (.ok (some transaction))
        (((w.put n transaction).register transaction).setScope thread (some transaction))
  /-- What has been opened stays the resource. -/
  | unregistered {n : N} {transaction : E} {w : View T N E} {e : ε} (hopen : v.OpenOn thread n)
      (hresource : v.resource n = none) (hw : v.Constructs w) (hnew : transaction ∉ v.constructed)
      (htransaction : transaction ∈ w.constructed) :
      CallEffect v thread (.error e) (w.put n transaction)
  | noConnection {n : N} {w : View T N E} {e : ε} (hopen : v.OpenOn thread n)
      (hresource : v.resource n = none) (hw : v.Constructs w) :
      CallEffect v thread (.error e) w

variable {lib : Library σ ε T E C} {other : O → σ → σ} {view : σ → View T N E} {connection : E → C}

namespace Contract

variable (h : Contract lib other view connection) {thread : T} {s : σ} {n : N}

include h

theorem leaves_currentEbeanTransaction :
    Leaves view (currentEbeanTransaction lib thread) s
      (.ok (((view s).scope thread).filter (view s).active))
      ((view s).setScope thread (((view s).scope thread).filter (view s).active)) := by
  refine (h.inScope thread s).bind fun t ht => ?_
  cases hscope : (view s).scope thread with
  | none =>
    have hsame : (view s).setScope thread none = view t := by
      rw [View.setScope, ← hscope, update_eq_self, ht]
    rw [Option.filter_none, hsame]
    exact Leaves.pure view none t
  | some transaction =>
    refine (h.isActive transaction t).bind fun u hu => ?_
    rw [Option.filter_some, ht]
    cases (view s).active transaction with
    | true =>
      have hsame : (view s).setScope thread (some transaction) = view u := by
        rw [View.setScope, ← hscope, update_eq_self, hu, ht]
      simp only [if_true, hsame]
      exact Leaves.pure view (some transaction) u
    | false =>
      refine (h.clearExternal thread u).bind fun w hw => ?_
      rw [hu, ht] at hw
      simp only [Bool.false_eq_true, if_false, ← hw]
      exact Leaves.pure view none w

/-- A transaction of Ebean's is opened, kept as the resource, and registered; where one of these
fails, what has been done before stays. -/
theorem leaves_enlistCurrentTransaction (hassociated : (view s).associated thread = some n) :
    ∃ w, (view s).Constructs w ∧
      ((∃ transaction ∈ w.constructed, transaction ∉ (view s).constructed ∧
        (Leaves view (enlistCurrentTransaction lib thread) s (.ok transaction)
            (((w.put n transaction).register transaction).setScope thread (some transaction)) ∨
          ∃ e, Leaves view (enlistCurrentTransaction lib thread) s (.error e)
            (w.put n transaction))) ∨
      ∃ e, Leaves view (enlistCurrentTransaction lib thread) s (.error e) w) := by
  obtain ⟨w, hw, ⟨transaction, hmem, hnew, hleaves⟩ | ⟨e, hleaves⟩⟩ := h.newJtaTransaction thread s
  · refine ⟨w, hw, .inl ⟨transaction, hmem, hnew, ?_⟩⟩
    obtain ⟨t, hconstruct, ht⟩ := hleaves
    obtain ⟨u, hput, hu⟩ := h.putResource thread transaction t n
      (by rw [ht, hw.associated, hassociated])
    rw [ht] at hu
    have hrest : perform (enlistCurrentTransaction lib thread) s = perform (do
        lib.registerInterposedSynchronization thread { transaction }
        lib.replace thread transaction
        return transaction) u := by
      rw [enlistCurrentTransaction, perform_bind, hconstruct]
      dsimp only
      rw [perform_bind, hput]
    unfold Leaves
    rw [hrest, ← hu]
    rcases h.registerInterposedSynchronization thread transaction u with hregister | ⟨e, hregister⟩
    · left
      refine hregister.bind fun t₁ ht₁ => (h.replace thread transaction t₁).bind fun t₂ ht₂ => ?_
      rw [← ht₁, ← ht₂]
      exact Leaves.pure view transaction t₂
    · exact .inr ⟨e, hregister.bind_error _⟩
  · exact ⟨w, hw, .inr ⟨e, hleaves.bind_error _⟩⟩

variable [DecidableEq E]

theorem leaves_idle (hstatus : (view s).status thread = .noTransaction) :
    Leaves view (getCurrentTransaction lib thread) s
      (.ok (((view s).scope thread).filter (view s).active))
      ((view s).setScope thread (((view s).scope thread).filter (view s).active)) := by
  refine (h.getTransactionStatus thread s).bind fun t ht => ?_
  rw [if_pos hstatus, ← ht]
  exact h.leaves_currentEbeanTransaction

/-- In an open transaction, all depends on whether there is a resource. -/
theorem leaves_open (hopen : (view s).OpenOn thread n) :
    ∃ t, view t = view s ∧ ∀ r v, Leaves view
      (match (view s).resource n with
        | some current => do
          if (← lib.inScope thread) ≠ some current then lib.replace thread current
          return some current
        | none => return some (← enlistCurrentTransaction lib thread)) t r v →
      Leaves view (getCurrentTransaction lib thread) s r v := by
  have hno := hopen.status_ne
  obtain ⟨hassociated, hstatus⟩ := hopen
  have heq : (view s).status thread = (view s).statusOf n := by rw [View.status, hassociated]
  have hnot : ¬((view s).status thread ≠ .active ∧ (view s).status thread ≠ .markedRollback) := by
    rw [heq]
    rintro ⟨hactive, hmarked⟩
    exact hstatus.elim hactive hmarked
  -- the two questions to the registry, one after the other
  obtain ⟨t, hperform, ht⟩ := h.getTransactionStatus thread s
  obtain ⟨u, hperform', hu⟩ := h.getResource thread t n (by rw [ht, hassociated])
  refine ⟨u, hu.trans ht, fun r v hrest => ?_⟩
  obtain ⟨w, hrest, hw⟩ := hrest
  refine ⟨w, ?_, hw⟩
  rw [getCurrentTransaction, perform_bind, hperform]
  simp only [if_neg hno, if_neg hnot]
  rw [perform_bind, hperform', ht]
  exact hrest

/-- What has been enlisted before is put into the scope again. -/
theorem leaves_resource {transaction : E} (hopen : (view s).OpenOn thread n)
    (hresource : (view s).resource n = some transaction) :
    Leaves view (getCurrentTransaction lib thread) s (.ok (some transaction))
      ((view s).setScope thread (some transaction)) := by
  obtain ⟨t, ht, hopens⟩ := h.leaves_open hopen
  apply hopens
  rw [hresource, ← ht]
  refine (h.inScope thread t).bind fun u hu => ?_
  by_cases hscope : (view t).scope thread = some transaction
  · have hsame : (view t).setScope thread (some transaction) = view u := by
      rw [View.setScope, ← hscope, update_eq_self, hu]
    rw [if_neg (not_not.mpr hscope), hsame]
    exact Leaves.pure view (some transaction) u
  · rw [if_pos hscope, ← hu]
    exact (h.replace thread transaction u).bind fun w hw => hw ▸ Leaves.pure view _ w

/-- The first call in an open transaction of Narayana's opens one of Ebean's. -/
theorem callEffect_enlist (hopen : (view s).OpenOn thread n)
    (hresource : (view s).resource n = none) :
    ∃ r v, Leaves view (getCurrentTransaction lib thread) s r v ∧
      CallEffect (view s) thread r v := by
  obtain ⟨t, ht, hopens⟩ := h.leaves_open hopen
  rw [hresource] at hopens
  obtain ⟨w, hw, henlists⟩ := h.leaves_enlistCurrentTransaction (by rw [ht, hopen.1])
  rw [ht] at hw henlists
  rcases henlists with ⟨transaction, hmem, hnew, hleaves | ⟨e, hleaves⟩⟩ | ⟨e, hleaves⟩
  · refine ⟨.ok (some transaction), _, hopens _ _ ?_, .enlisted hopen hresource hw hnew hmem⟩
    exact hleaves.bind fun u hu => hu ▸ Leaves.pure view _ u
  · exact ⟨.error e, _, hopens _ _ (hleaves.bind_error _),
      .unregistered hopen hresource hw hnew hmem⟩
  · exact ⟨.error e, w, hopens _ _ (hleaves.bind_error _), .noConnection hopen hresource hw⟩

theorem callEffect (thread : T) (s : σ) :
    ∃ r v, Leaves view (getCurrentTransaction lib thread) s r v ∧
      CallEffect (view s) thread r v := by
  by_cases hopen : ∃ n, (view s).OpenOn thread n
  · obtain ⟨n, hopen⟩ := hopen
    cases hresource : (view s).resource n with
    | some transaction => exact ⟨_, _, h.leaves_resource hopen hresource, .resource hopen hresource⟩
    | none => exact h.callEffect_enlist hopen hresource
  by_cases hstatus : (view s).status thread = .noTransaction
  · exact ⟨_, _, h.leaves_idle hstatus, .outside hstatus⟩
  refine ⟨.ok none, view s, ?_, .completing (not_exists.mp hopen)⟩
  refine (h.getTransactionStatus thread s).bind fun t ht => ?_
  have hnot : (view s).status thread ≠ .active ∧ (view s).status thread ≠ .markedRollback := by
    rw [View.status] at hstatus ⊢
    cases hassociated : (view s).associated thread with
    | none => exact ⟨nofun, nofun⟩
    | some n =>
      exact ⟨fun hactive => hopen ⟨n, hassociated, .inl hactive⟩,
        fun hmarked => hopen ⟨n, hassociated, .inr hmarked⟩⟩
  rw [if_neg hstatus, if_pos hnot, ← ht]
  exact Leaves.pure view none t

end Contract

end Contract

end Ebean
