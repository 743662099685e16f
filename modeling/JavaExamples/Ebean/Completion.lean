import JavaExamples.Ebean.Enlistment

/-!
# Transactions of Ebean's end with those of Narayana's

What the class calls of a transaction of Ebean's, in the order in which it does, in runs of calls
and callbacks on any threads.

* `Library.recorded` — a library that keeps a list of these calls.
* `Contract.recorded` — it keeps the same contract.
* `callsOn_run` — in every run, the calls on a transaction are those of its callbacks, one after the
  other, whatever the calls throw.

**Statements.** A transaction is told how Narayana's has ended, is taken out of use, and has its
connection closed once, when Narayana's has ended and not before (`closed_once`). One of which the
synchronization could not be registered is handed out, and never closed (`unregistered_not_closed`).
-/

namespace Ebean

open Program Function

/-! ## The calls -/

/-- A call of the class that is about the end of a transaction. -/
inductive Call (E C : Type) where
  | preCommit (transaction : E)
  | postCommit (transaction : E)
  | postRollback (transaction : E)
  | deactivateExternal (transaction : E)
  | close (c : Option C)
  deriving DecidableEq

section Recorded

variable {σ ε T N E C O : Type}

/-- The same library, and beside its state a list of the calls made. -/
def Library.recorded (lib : Library σ ε T E C) : Library (σ × List (Call E C)) ε T E C where
  getTransactionStatus thread := noting [] (lib.getTransactionStatus thread)
  getResource thread := noting [] (lib.getResource thread)
  putResource thread transaction := noting [] (lib.putResource thread transaction)
  registerInterposedSynchronization thread sync :=
    noting [] (lib.registerInterposedSynchronization thread sync)
  newJtaTransaction thread := noting [] (lib.newJtaTransaction thread)
  inScope thread := noting [] (lib.inScope thread)
  replace thread transaction := noting [] (lib.replace thread transaction)
  clearExternal thread := noting [] (lib.clearExternal thread)
  isActive transaction := noting [] (lib.isActive transaction)
  preCommit transaction := noting [.preCommit transaction] (lib.preCommit transaction)
  postCommit transaction := noting [.postCommit transaction] (lib.postCommit transaction)
  postRollback transaction := noting [.postRollback transaction] (lib.postRollback transaction)
  deactivateExternal transaction :=
    noting [.deactivateExternal transaction] (lib.deactivateExternal transaction)
  internalConnection transaction := noting [] (lib.internalConnection transaction)
  close c := noting [.close c] (lib.close c)

/-- What happens between the calls is not recorded. -/
def recordedOther {κ : Type} (other : O → σ → σ) (o : O) (s : σ × List κ) : σ × List κ :=
  (other o s.1, s.2)

variable [DecidableEq T] [DecidableEq N] {lib : Library σ ε T E C} {other : O → σ → σ}
  {view : σ → View T N E} {connection : E → C}

theorem Contract.recorded (h : Contract lib other view connection) :
    Contract lib.recorded (recordedOther other) (fun s => view s.1) connection where
  getTransactionStatus thread s := (h.getTransactionStatus thread s.1).noting []
  getResource thread s n hassociated := (h.getResource thread s.1 n hassociated).noting []
  putResource thread transaction s n hassociated :=
    (h.putResource thread transaction s.1 n hassociated).noting []
  registerInterposedSynchronization thread transaction s := by
    rcases h.registerInterposedSynchronization thread transaction s.1 with hleaves | ⟨e, hleaves⟩
    · exact .inl (hleaves.noting [])
    · exact .inr ⟨e, hleaves.noting []⟩
  newJtaTransaction thread s := by
    obtain ⟨v, hv, ⟨transaction, hmem, hnew, hleaves⟩ | ⟨e, hleaves⟩⟩ :=
      h.newJtaTransaction thread s.1
    · exact ⟨v, hv, .inl ⟨transaction, hmem, hnew, hleaves.noting []⟩⟩
    · exact ⟨v, hv, .inr ⟨e, hleaves.noting []⟩⟩
  inScope thread s := (h.inScope thread s.1).noting []
  replace thread transaction s := (h.replace thread transaction s.1).noting []
  clearExternal thread s := (h.clearExternal thread s.1).noting []
  isActive transaction s := (h.isActive transaction s.1).noting []
  preCommit transaction s := h.preCommit transaction s.1
  postCommit transaction s := h.postCommit transaction s.1
  postRollback transaction s := h.postRollback transaction s.1
  deactivateExternal transaction s := by
    obtain ⟨v, hv, hleaves⟩ := h.deactivateExternal transaction s.1
    exact ⟨v, hv, hleaves.noting _⟩
  internalConnection transaction s := (h.internalConnection transaction s.1).noting []
  close c s := by
    obtain ⟨v, hv, hleaves⟩ := h.close c s.1
    exact ⟨v, hv, hleaves.noting _⟩
  other o s := h.other o s.1

end Recorded

/-! ## The calls of a run -/

/-- A call of Narayana's to a synchronization. -/
inductive Callback where
  | before
  | after (status : Status)
  deriving DecidableEq

section Calls

variable {T E C O : Type} [DecidableEq E]

/-- The callback that an event is for the transaction. -/
def Event.callback (transaction : E) : Event T E O → Option Callback
  | .beforeCompletion sync => if sync.transaction = transaction then some .before else none
  | .afterCompletion sync _ status =>
    if sync.transaction = transaction then some (.after status) else none
  | _ => none

def callbacksOn (transaction : E) (events : List (Event T E O)) : List Callback :=
  events.filterMap (Event.callback transaction)

/-- The calls that are due at a callback. -/
def Callback.calls (connection : E → C) (transaction : E) : Callback → List (Call E C)
  | .before => [.preCommit transaction]
  | .after status =>
    [if status = .committed then .postCommit transaction else .postRollback transaction,
      .deactivateExternal transaction, .close (some (connection transaction))]

section Told

variable {connection : E → C} {transaction : E} {callbacks : List Callback}

omit [DecidableEq E]

theorem close_mem_iff :
    .close (some (connection transaction)) ∈
        callbacks.flatMap (Callback.calls connection transaction) ↔
      ∃ status, .after status ∈ callbacks := by
  rw [List.mem_flatMap]
  constructor
  · rintro ⟨callback, hmem, hcall⟩
    cases callback with
    | before => simp [Callback.calls] at hcall
    | after status => exact ⟨status, hmem⟩
  · rintro ⟨status, hmem⟩
    exact ⟨_, hmem, by simp [Callback.calls]⟩

theorem postCommit_mem_iff :
    .postCommit transaction ∈ callbacks.flatMap (Callback.calls connection transaction) ↔
      .after .committed ∈ callbacks := by
  rw [List.mem_flatMap]
  constructor
  · rintro ⟨callback, hmem, hcall⟩
    cases callback with
    | before => simp [Callback.calls] at hcall
    | after status =>
      by_cases hstatus : status = .committed
      · exact hstatus ▸ hmem
      · simp [Callback.calls, hstatus] at hcall
  · intro hmem
    exact ⟨_, hmem, by simp [Callback.calls]⟩

theorem postRollback_mem_iff :
    .postRollback transaction ∈ callbacks.flatMap (Callback.calls connection transaction) ↔
      ∃ status ≠ .committed, .after status ∈ callbacks := by
  rw [List.mem_flatMap]
  constructor
  · rintro ⟨callback, hmem, hcall⟩
    cases callback with
    | before => simp [Callback.calls] at hcall
    | after status =>
      refine ⟨status, ?_, hmem⟩
      rintro rfl
      simp [Callback.calls] at hcall
  · rintro ⟨status, hstatus, hmem⟩
    exact ⟨_, hmem, by simp [Callback.calls, hstatus]⟩

theorem preCommit_mem_iff :
    .preCommit transaction ∈ callbacks.flatMap (Callback.calls connection transaction) ↔
      .before ∈ callbacks := by
  rw [List.mem_flatMap]
  constructor
  · rintro ⟨callback, hmem, hcall⟩
    cases callback with
    | before => exact hmem
    | after status =>
      by_cases hstatus : status = .committed <;> simp [Callback.calls, hstatus] at hcall
  · intro hmem
    exact ⟨_, hmem, List.mem_singleton_self _⟩

end Told

variable [DecidableEq C]

/-- The connection is closed after completion, once. -/
theorem count_close (connection : E → C) (transaction : E) (callback : Callback) :
    (callback.calls connection transaction).count (.close (some (connection transaction))) =
      if callback = .before then 0 else 1 := by
  cases callback with
  | before => simp [Callback.calls]
  | after status => by_cases hstatus : status = .committed <;> simp [Callback.calls, hstatus]

/-- The call is about the transaction, or about its connection. -/
def Call.isOn (connection : E → C) (transaction : E) : Call E C → Bool
  | .preCommit other => other = transaction
  | .postCommit other => other = transaction
  | .postRollback other => other = transaction
  | .deactivateExternal other => other = transaction
  | .close c => c = some (connection transaction)

def callsOn (connection : E → C) (transaction : E) (calls : List (Call E C)) : List (Call E C) :=
  calls.filter (Call.isOn connection transaction)

/-- Connections are those of one transaction each, and so are the calls. -/
theorem callsOn_calls {connection : E → C} (hconnection : Injective connection)
    (transaction other : E) (callback : Callback) :
    callsOn connection transaction (callback.calls connection other) =
      if other = transaction then callback.calls connection transaction else [] := by
  rcases eq_or_ne other transaction with rfl | hne
  · rw [if_pos rfl]
    cases callback with
    | before => simp [callsOn, Callback.calls, Call.isOn]
    | after status =>
      by_cases hstatus : status = .committed <;>
        simp [callsOn, Callback.calls, Call.isOn, hstatus]
  · have hc : connection other ≠ connection transaction := fun heq => hne (hconnection heq)
    rw [if_neg hne]
    cases callback with
    | before => simp [callsOn, Callback.calls, Call.isOn, hne]
    | after status =>
      by_cases hstatus : status = .committed <;>
        simp [callsOn, Callback.calls, Call.isOn, hstatus, hne, hc]

end Calls

section Runs

variable {σ ε T N E C O : Type} [DecidableEq T] [DecidableEq N] [DecidableEq E]
  {lib : Library σ ε T E C} {other : O → σ → σ} {view : σ → View T N E} {connection : E → C}

/-- A method that makes none of these calls. -/
theorem ensures_noting {α κ : Type} (prog : Program σ ε α) (calls : List κ) :
    Ensures (fun s => s.2 = calls) (noting [] prog) (fun _ s => s.2 = calls)
      fun s => s.2 = calls := by
  rintro s rfl
  refine ⟨fun a t hreturns => ?_, fun e t hthrows => ?_⟩
  · obtain ⟨-, rfl⟩ := Prod.mk.inj hreturns
    exact List.append_nil _
  · obtain ⟨-, rfl⟩ := Prod.mk.inj hthrows
    exact List.append_nil _

omit [DecidableEq T] in
/-- Whatever it returns or throws, a call for the current transaction ends none. -/
theorem ensures_getCurrentTransaction (thread : T) (calls : List (Call E C)) :
    Ensures (fun s => s.2 = calls) (getCurrentTransaction lib.recorded thread)
      (fun _ s => s.2 = calls) fun s => s.2 = calls := by
  have hpure : ∀ {α : Type} (a : α), Ensures (fun s : σ × List (Call E C) => s.2 = calls)
      (pure a : Program _ ε α) (fun _ s => s.2 = calls) fun s => s.2 = calls := fun a =>
    Ensures.pure fun s hs => hs
  refine (ensures_noting _ calls).bind fun status => ?_
  split
  · -- outside of a transaction
    refine (ensures_noting _ calls).bind fun scope => ?_
    cases scope with
    | none => exact hpure none
    | some transaction =>
      refine (ensures_noting _ calls).bind fun active => ?_
      split
      · exact hpure (some transaction)
      · exact (ensures_noting _ calls).bind fun _ => hpure none
  split
  · exact hpure none
  refine (ensures_noting _ calls).bind fun resource => ?_
  cases resource with
  | some current =>
    refine (ensures_noting _ calls).bind fun scope => ?_
    split
    · exact (ensures_noting _ calls).bind fun _ => hpure (some current)
    · exact hpure (some current)
  | none =>
    have henlist : Ensures (fun s : σ × List (Call E C) => s.2 = calls)
        (enlistCurrentTransaction lib.recorded thread) (fun _ s => s.2 = calls)
        fun s => s.2 = calls := by
      refine (ensures_noting _ calls).bind fun transaction => ?_
      refine (ensures_noting _ calls).bind fun _ => (ensures_noting _ calls).bind fun _ => ?_
      exact (ensures_noting _ calls).bind fun _ => hpure transaction
    exact henlist.bind fun transaction => hpure (some transaction)

namespace Contract

variable (h : Contract lib other view connection)

include h

theorem leaves_finally_recorded (sync : EbeanSynchronization E) (thread : T)
    (s : σ × List (Call E C)) :
    Leaves Prod.snd (do
      lib.recorded.deactivateExternal sync.transaction
      if (← lib.recorded.inScope thread) = some sync.transaction then
        lib.recorded.clearExternal thread
      lib.recorded.close (← lib.recorded.internalConnection sync.transaction)) s (.ok ())
      (s.2 ++ [.deactivateExternal sync.transaction,
        .close (some (connection sync.transaction))]) := by
  obtain ⟨v, -, hdeactivate⟩ := h.deactivateExternal sync.transaction s.1
  have hclose : ∀ t : σ × List (Call E C), t.2 = s.2 ++ [.deactivateExternal sync.transaction] →
      Leaves Prod.snd (do
        lib.recorded.close (← lib.recorded.internalConnection sync.transaction)) t (.ok ())
        (s.2 ++ [.deactivateExternal sync.transaction,
          .close (some (connection sync.transaction))]) := by
    intro t ht
    refine ((h.internalConnection sync.transaction t.1).noted []).bind fun u hu => ?_
    obtain ⟨w, -, hleaves⟩ := h.close (some (connection sync.transaction)) u.1
    have hcalls : u.2 ++ [.close (some (connection sync.transaction))] =
        s.2 ++ [.deactivateExternal sync.transaction,
          .close (some (connection sync.transaction))] := by
      rw [hu, ht, List.append_nil, List.append_assoc]
      rfl
    rw [← hcalls]
    exact hleaves.noted _
  refine (hdeactivate.noted _).bind fun t ht => ((h.inScope thread t.1).noted []).bind ?_
  intro u hu
  rw [List.append_nil] at hu
  split
  · refine ((h.clearExternal thread u.1).noted []).bind fun w hw => ?_
    rw [List.append_nil] at hw
    exact hclose w (hw.trans (hu.trans ht))
  · exact hclose u (hu.trans ht)

/-- The callback is called, and after it the `finally` block, whether it throws or not. -/
theorem calls_afterCompletion (sync : EbeanSynchronization E) (thread : T) (status : Status)
    (s : σ × List (Call E C)) :
    (perform (sync.afterCompletion lib.recorded thread status) s).2.2 =
      s.2 ++ (Callback.after status).calls connection sync.transaction := by
  have hends : ∀ (callback : Program σ ε Unit) (call : Call E C),
      (perform (andFinally (noting [call] callback) (do
        lib.recorded.deactivateExternal sync.transaction
        if (← lib.recorded.inScope thread) = some sync.transaction then
          lib.recorded.clearExternal thread
        lib.recorded.close (← lib.recorded.internalConnection sync.transaction))) s).2.2 =
        s.2 ++ [call, .deactivateExternal sync.transaction,
          .close (some (connection sync.transaction))] := by
    intro callback call
    have hcallback := (leaves_perform id callback s.1).noted [call]
    obtain ⟨t, hperform, ht⟩ := hcallback.andFinally fun t ht => by
      have hfinally := h.leaves_finally_recorded sync thread t
      rw [ht] at hfinally
      exact hfinally
    rw [hperform, ht, List.append_assoc]
    rfl
  rw [EbeanSynchronization.afterCompletion, Callback.calls]
  split
  · exact hends _ _
  · exact hends _ _

variable [DecidableEq C] (hconnection : Injective connection)

include hconnection

/-- What an event adds to the calls on a transaction. -/
theorem callsOn_after (transaction : E) (event : Event T E O) (s : σ × List (Call E C)) :
    callsOn connection transaction (after lib.recorded (recordedOther other) s event).2 =
      callsOn connection transaction s.2 ++
        (event.callback transaction).toList.flatMap (Callback.calls connection transaction) := by
  have hcalled : ∀ (sync : EbeanSynchronization E) (callback : Callback),
      callsOn connection transaction (s.2 ++ callback.calls connection sync.transaction) =
        callsOn connection transaction s.2 ++
          (if sync.transaction = transaction then some callback else none).toList.flatMap
            (Callback.calls connection transaction) := by
    intro sync callback
    rw [callsOn, List.filter_append]
    refine congrArg _ ((callsOn_calls hconnection transaction _ callback).trans ?_)
    split
    · simp
    · simp
  cases event with
  | getCurrentTransaction thread =>
    have hcalls := (@ensures_getCurrentTransaction _ _ _ _ _ _ lib thread s.2).perform rfl
    simp only [after, hcalls, Event.callback, Option.toList_none, List.flatMap_nil, List.append_nil]
  | beforeCompletion sync => exact hcalled sync .before
  | afterCompletion sync thread status =>
    rw [after, h.calls_afterCompletion sync thread status s]
    exact hcalled sync (.after status)
  | other o => simp [after, recordedOther, Event.callback]

/-- In every run, the calls on a transaction are those of its callbacks. -/
theorem callsOn_run (transaction : E) (events : List (Event T E O)) (s : σ × List (Call E C)) :
    callsOn connection transaction (run lib.recorded (recordedOther other) s events).2 =
      callsOn connection transaction s.2 ++
        (callbacksOn transaction events).flatMap (Callback.calls connection transaction) := by
  induction events generalizing s with
  | nil => simp [run, callbacksOn]
  | cons event events ih =>
    refine (ih (after lib.recorded (recordedOther other) s event)).trans ?_
    rw [h.callsOn_after hconnection, List.append_assoc, ← List.flatMap_append]
    congr 2
    rw [callbacksOn, callbacksOn, List.filterMap_cons]
    cases event.callback transaction with
    | none => rfl
    | some callback => rfl

end Contract

/-- What Narayana calls: synchronizations that have been registered, at most once before completion
and at most once after it, with the status in which the transaction has ended. -/
structure Protocol (registered : Set E) (events : List (Event T E O)) : Prop where
  registered : ∀ transaction, callbacksOn transaction events ≠ [] → transaction ∈ registered
  order : ∀ transaction, ∃ prepared : Bool, ∃ outcome : Option Status,
    callbacksOn transaction events =
      (if prepared then [.before] else []) ++ outcome.toList.map .after

variable [DecidableEq C] {s : σ} {t : σ × List (Call E C)} {thread : T} {n : N}

/-- In every run, a transaction is told before completion and how it has ended when Narayana says
so, taken out of use, and then its connection is closed, which happens once at most. -/
theorem closed_once (h : Contract lib other view connection) (hconnection : Injective connection)
    {events : List (Event T E O)}
    (hrun : run lib.recorded (recordedOther other) (s, []) events = t)
    (hprotocol : Protocol (view t.1).registered events) (transaction : E) :
    callsOn connection transaction t.2 =
      (callbacksOn transaction events).flatMap (Callback.calls connection transaction) ∧
    t.2.count (.close (some (connection transaction))) ≤ 1 ∧
    (.close (some (connection transaction)) ∈ t.2 ↔
      ∃ status, .after status ∈ callbacksOn transaction events) ∧
    (.postCommit transaction ∈ t.2 ↔ .after .committed ∈ callbacksOn transaction events) ∧
    (.postRollback transaction ∈ t.2 ↔
      ∃ status ≠ .committed, .after status ∈ callbacksOn transaction events) ∧
    (.preCommit transaction ∈ t.2 ↔ .before ∈ callbacksOn transaction events) ∧
    (transaction ∉ (view t.1).registered → callsOn connection transaction t.2 = []) := by
  have hcalls : callsOn connection transaction t.2 =
      (callbacksOn transaction events).flatMap (Callback.calls connection transaction) := by
    rw [← hrun]
    exact h.callsOn_run hconnection transaction events (s, [])
  have hmem : ∀ call : Call E C, call.isOn connection transaction →
      (call ∈ t.2 ↔ call ∈ callsOn connection transaction t.2) := by
    intro call hcall
    rw [callsOn, List.mem_filter, and_iff_left hcall]
  have hcount : t.2.count (.close (some (connection transaction))) =
      (callsOn connection transaction t.2).count (.close (some (connection transaction))) := by
    rw [callsOn, List.count_filter]
    simp [Call.isOn]
  rw [hcount, hmem _ (by simp [Call.isOn]), hmem _ (by simp [Call.isOn]),
    hmem _ (by simp [Call.isOn]), hmem _ (by simp [Call.isOn]), hcalls]
  refine ⟨rfl, ?_, close_mem_iff, postCommit_mem_iff, postRollback_mem_iff, preCommit_mem_iff, ?_⟩
  · obtain ⟨prepared, outcome, horder⟩ := hprotocol.order transaction
    rw [horder, List.count_flatMap]
    simp only [comp_def, count_close]
    cases prepared with
    | false => cases outcome <;> simp
    | true => cases outcome <;> simp
  · intro hnot
    have hnil : callbacksOn transaction events = [] := by
      by_contra hne
      exact hnot (hprotocol.registered transaction hne)
    rw [hnil, List.flatMap_nil]

end Runs

namespace InMemory

/-- A transaction that is committed, one that is rolled back, and one that goes on. -/
def completed : List (Event ℕ ℕ Act) :=
  begin 0 0 ++
    [.getCurrentTransaction 0, .beforeCompletion ⟨0⟩, .afterCompletion ⟨0⟩ 0 .committed] ++
    begin 0 1 ++ [.getCurrentTransaction 0, .afterCompletion ⟨1⟩ 1 .rolledBack] ++
    begin 2 2 ++ [.getCurrentTransaction 2]

theorem callbacksOn_completed (transaction : ℕ) : callbacksOn transaction completed =
    if 0 = transaction then [.before, .after .committed]
    else if 1 = transaction then [.after .rolledBack] else [] := by
  rcases transaction with _ | _ | transaction
  · rfl
  · rfl
  · simp [completed, begin, callbacksOn, Event.callback]

theorem protocol_completed : Protocol
    (run library.recorded (recordedOther Act.apply) (initial, []) completed).1.view.registered
    completed where
  registered transaction hne := by
    have hregistered : (run library.recorded (recordedOther Act.apply) (initial, [])
        completed).1.view.registered = {e | e ∈ [2, 1, 0]} := rfl
    rw [callbacksOn_completed] at hne
    rw [hregistered]
    change transaction ∈ [2, 1, 0]
    split at hne
    · simp [← ‹0 = transaction›]
    · split at hne
      · simp [← ‹1 = transaction›]
      · exact (hne rfl).elim
  order transaction := by
    rw [callbacksOn_completed]
    split
    · exact ⟨true, some .committed, rfl⟩
    · split
      · exact ⟨false, some .rolledBack, rfl⟩
      · exact ⟨false, none, rfl⟩

theorem closed_once_completed : ∃ t,
    run library.recorded (recordedOther Act.apply) (initial, []) completed = t ∧
    t.2.count (.close (some 1)) ≤ 1 ∧ .close (some 1) ∈ t.2 ∧ .postRollback 1 ∈ t.2 ∧
    .postCommit 0 ∈ t.2 ∧ .preCommit 1 ∉ t.2 ∧ .close (some 2) ∉ t.2 := by
  have hclosed := closed_once contract injective_id rfl protocol_completed
  obtain ⟨-, -, -, hcommit, -⟩ := hclosed 0
  obtain ⟨-, hcount, hclose, -, hrollback, hprepare, -⟩ := hclosed 1
  obtain ⟨-, -, hopen, -⟩ := hclosed 2
  refine ⟨_, rfl, hcount, hclose.mpr ⟨.rolledBack, by decide⟩,
    hrollback.mpr ⟨.rolledBack, by decide, by decide⟩, hcommit.mpr (by decide), ?_, ?_⟩
  · rw [hprepare]
    decide
  · rw [show some 2 = some (id 2) from rfl, hopen]
    rintro ⟨status, hstatus⟩
    simp [callbacksOn_completed] at hstatus

end InMemory

section Unregistered

variable {σ ε T N E C O : Type} [DecidableEq T] [DecidableEq N] [DecidableEq E] [DecidableEq C]
  {lib : Library σ ε T E C} {other : O → σ → σ} {view : σ → View T N E} {connection : E → C}
  {s : σ} {t : σ × List (Call E C)} {thread : T} {n : N}

/-- In every run: where a call throws although it has opened a transaction, as its synchronization
could not be registered, that transaction is handed out from then on, and never ended or closed. -/
theorem unregistered_not_closed (h : Contract lib other view connection)
    (hconnection : Injective connection) (hfresh : (view s).Fresh) {events : List (Event T E O)}
    (hrun : run lib.recorded (recordedOther other) (s, []) events = t)
    (hopen : (view t.1).OpenOn thread n) {e : ε} {t' : σ × List (Call E C)}
    (hthrows : Throws (getCurrentTransaction lib.recorded thread) t e t') {transaction : E}
    (hresource : (view t'.1).resource n = some transaction) {later : List (Event T E O)}
    {u : σ × List (Call E C)}
    (hlater : run lib.recorded (recordedOther other) t' later = u)
    (hprotocol :
      Protocol (view u.1).registered (events ++ .getCurrentTransaction thread :: later)) :
    (∀ thread', (view u.1).OpenOn thread' n →
      ∃ u', Returns (getCurrentTransaction lib.recorded thread') u (some transaction) u') ∧
    callsOn connection transaction u.2 = [] := by
  obtain ⟨hcall, hhands⟩ := handsOutOwn h.recorded hfresh hrun hopen hthrows
  have hnot : transaction ∉ (view u.1).registered := by
    rcases hcall with ⟨_, hreturned, -⟩ | ⟨_, -, -, hunregistered⟩
    · cases hreturned
    · rw [← hlater]
      exact hunregistered transaction hresource later
  have hwhole : run lib.recorded (recordedOther other) (s, [])
      (events ++ .getCurrentTransaction thread :: later) = u := by
    rw [run, List.foldl_append, List.foldl_cons]
    change run lib.recorded (recordedOther other)
      (after lib.recorded (recordedOther other)
        (run lib.recorded (recordedOther other) (s, []) events) (.getCurrentTransaction thread))
      later = u
    rw [hrun, after, hthrows]
    exact hlater
  obtain ⟨-, -, -, -, -, -, hnone⟩ := closed_once h hconnection hwhole hprotocol transaction
  refine ⟨fun thread' hopen' => ?_, hnone hnot⟩
  rw [← hlater] at hopen' ⊢
  obtain ⟨u', hreturns, -⟩ := (hhands transaction hresource later thread' n hopen').1 rfl
  exact ⟨u', hreturns⟩

end Unregistered

namespace InMemory

/-- A transaction that has been marked for rollback before Ebean is used in it. -/
def marked : List (Event ℕ ℕ Act) :=
  [.other (.setStatus 0 .markedRollback), .other (.associate 0 (some 0))]

theorem unregistered_not_closed_marked : ∃ t t' u,
    run library.recorded (recordedOther Act.apply) (initial, []) marked = t ∧
    Throws (getCurrentTransaction library.recorded 0) t .illegalState t' ∧
    run library.recorded (recordedOther Act.apply) t' [.getCurrentTransaction 0] = u ∧
    (∃ u', Returns (getCurrentTransaction library.recorded 0) u (some 0) u') ∧
    callsOn id 0 u.2 = [] := by
  have hthrows : Throws (getCurrentTransaction library.recorded 0)
      (run library.recorded (recordedOther Act.apply) (initial, []) marked) .illegalState
      (perform (getCurrentTransaction library.recorded 0)
        (run library.recorded (recordedOther Act.apply) (initial, []) marked)).2 := rfl
  have hresource : (perform (getCurrentTransaction library.recorded 0)
      (run library.recorded (recordedOther Act.apply) (initial, []) marked)).2.1.view.resource 0 =
      some 0 := rfl
  have hprotocol : ∀ registered,
      Protocol registered (marked ++ .getCurrentTransaction 0 :: [.getCurrentTransaction 0]) :=
    fun registered => ⟨fun _ hne => (hne rfl).elim, fun _ => ⟨false, none, rfl⟩⟩
  obtain ⟨hreturns, hcalls⟩ := unregistered_not_closed contract injective_id fresh_initial rfl
    ⟨rfl, .inr rfl⟩ hthrows hresource rfl (hprotocol _)
  exact ⟨_, _, _, rfl, hthrows, rfl, hreturns 0 ⟨rfl, .inr rfl⟩, hcalls⟩

end InMemory

end Ebean
