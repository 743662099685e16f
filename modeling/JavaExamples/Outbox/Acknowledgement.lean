import JavaExamples.Common.Transition
import JavaExamples.Outbox.Relay

/-!
# What the relay acknowledges

`listenEvents` as a transition system: Postgres serves the transactions behind the confirmed
position in commit order, the relay handles one message per loop iteration and reports its lsn
whenever the deadline has passed, and the process may end and start again at any point. A failed
send is only logged, so that the commit behind it moves the lsn past an insert that Kafka never
received.

* `NothingLost`: every insert at or below the relay's lsn or the confirmed position has been sent.
* `nothingLost_iff`: a run keeps `NothingLost` throughout exactly when it never handles the commit
  of a transaction after a failed send of one of its inserts.
-/

namespace Outbox

/-- A transaction on the outbox table. -/
structure Transaction where
  inserts : List InsertMessageV2
  endLSN : LSN

/-- An insert, by the end of its transaction and its position in it. -/
abbrev InsertId := LSN × ℕ

/-- What Postgres has to send of a transaction. -/
inductive WalItem where
  | insert (id : InsertId) (message : InsertMessageV2)
  | commit (txn : Transaction)

/-- The inserts of a transaction from the `k`-th on, and then its commit. -/
def Transaction.itemsFrom (txn : Transaction) (k : ℕ) : List WalItem :=
  (txn.inserts.zipIdx.drop k).map (fun p => .insert (txn.endLSN, p.2) p.1) ++ [.commit txn]

/-- The transactions Postgres sends to a client that has confirmed `lsn`. -/
def unconfirmed (wal : List Transaction) (lsn : LSN) : List Transaction :=
  wal.filter fun txn => lsn < txn.endLSN

/-- The variables of `listenEvents`, what Postgres has yet to send to it, and which of the inserts
it handled could not be sent. -/
structure Session where
  shared : Shared
  lsn : LSN
  nextStandbyMessageDeadline : ℕ
  /-- Whether the loop iteration has passed `sendOffsetUpdateWhenNeedled`. -/
  receiving : Bool
  pending : List WalItem
  failed : List InsertId

/-- The replication slot's position, the running process if any, and the inserts `Send` returned
`nil` for. -/
structure World where
  confirmed : LSN
  session : Option Session
  sent : List InsertId

/-- What becomes of a status update: it can reach Postgres and still fail for the relay. -/
inductive Update where
  | acknowledged
  | arrivedAndFailed
  | failed
deriving DecidableEq

/-- What `ReceiveMessage` gives. -/
inductive Received where
  | timeout
  | failed
  | unexpected
  | keepalive (replyRequested : Bool)
  /-- The next insert or commit; `delivery` is what becomes of the record of an insert. -/
  | next (delivery : Delivery)
  | relation (message : RelationMessageV2)
  | begin (xid : ℕ)
  | other

inductive Event where
  /-- The process is started, after a crash of the one before it if that is still running. -/
  | start (now : ℕ)
  | standby (now later : ℕ) (update : Update)
  | receive (received : Received)

/-- The process has ended. -/
def World.exit (w : World) : World := { w with session := none }

/-- Handles one message; `id` names the insert, if it is one. -/
def World.handle (parseV2 : ParseV2) (typeMap : TypeMap) (w : World) (s : Session)
    (message : LogicalMessage) (delivery : Delivery) (id : Option InsertId) : World :=
  match process parseV2 typeMap delivery ⟨none, message⟩ s.shared with
  | .error _ => w.exit
  | .ok (shared, effect) =>
    match effect with
    | .none => { w with session := some { s with shared } }
    | .onCommit lsn => { w with session := some { s with shared, lsn } }
    | .send _ (.ok _) => { w with session := some { s with shared }, sent := id.toList ++ w.sent }
    -- the relay only logs the error; `failed` is kept here to state what it loses
    | .send _ (.error _) =>
      { w with session := some { s with shared, failed := id.toList ++ s.failed } }

/-- A new process: it asks for everything behind the confirmed position. -/
def World.start (w : World) (wal : List Transaction) (now : ℕ) : World :=
  { w with session := some {
      shared := Shared.init
      lsn := w.confirmed
      nextStandbyMessageDeadline := now + standbyMessageTimeout
      receiving := false
      pending := (unconfirmed wal w.confirmed).flatMap (Transaction.itemsFrom · 0)
      failed := [] } }

/-- One event, `none` where it cannot happen. -/
def step (parseV2 : ParseV2) (typeMap : TypeMap) (wal : List Transaction) (w : World) :
    Event → Option World
  | .start now => some (w.start wal now)
  | .standby now later update =>
    match w.session with
    | none => none
    | some s =>
      -- `sendOffsetUpdateWhenNeedled` comes once at the top of each iteration
      if s.receiving then none
      else
        match sendOffsetUpdateWhenNeedled now later s.lsn s.nextStandbyMessageDeadline with
        | (none, _) => some { w with session := some { s with receiving := true } }
        | (some lsn, deadline) =>
          match update with
          | .acknowledged =>
            some { w with
              confirmed := lsn
              session := some { s with receiving := true, nextStandbyMessageDeadline := deadline } }
          -- an error of `SendStandbyStatusUpdate` is fatal, whether or not Postgres got the update
          | .arrivedAndFailed => some { w.exit with confirmed := lsn }
          | .failed => some w.exit
  | .receive received =>
    match w.session with
    | none => none
    | some s =>
      if s.receiving then
        let s := { s with receiving := false }
        match received with
        | .timeout => some { w with session := some s }
        | .failed => some w.exit
        | .unexpected => some { w with session := some s }
        | .keepalive false => some { w with session := some s }
        -- the zero time, so that the next iteration reports at once
        | .keepalive true =>
          some { w with session := some { s with nextStandbyMessageDeadline := 0 } }
        | .next delivery =>
          match s.pending with
          | [] => none
          | .insert id message :: pending =>
            some (w.handle parseV2 typeMap { s with pending } (.insert message) delivery (some id))
          | .commit txn :: pending =>
            some (w.handle parseV2 typeMap { s with pending } (.commit txn.endLSN) delivery none)
        -- relations, begins and the rest stand between the pending items in any number
        | .relation message =>
          some (w.handle parseV2 typeMap s (.relation message) .delivered none)
        | .begin xid => some (w.handle parseV2 typeMap s (.begin xid) .delivered none)
        | .other => some (w.handle parseV2 typeMap s .other .delivered none)
      else none

/-- Before the first start, with the slot at `lsn`. -/
def World.init (lsn : LSN) : World := { confirmed := lsn, session := none, sent := [] }

/-! ## The property and its exact condition -/

/-- Every insert of `txn` has been sent. -/
def World.AllSent (w : World) (txn : Transaction) : Prop :=
  ∀ i < txn.inserts.length, (txn.endLSN, i) ∈ w.sent

/-- `lsn` is at or below the confirmed position, or at or below the lsn that the next status update
would report. -/
def World.Acknowledges (w : World) (lsn : LSN) : Prop :=
  lsn ≤ w.confirmed ∨ ∃ s ∈ w.session, lsn ≤ s.lsn

/-- Every transaction that is or may be acknowledged has been sent in full. -/
def NothingLost (wal : List Transaction) (w : World) : Prop :=
  ∀ txn ∈ wal, w.Acknowledges txn.endLSN → w.AllSent txn

/-- The event does not handle the commit of a transaction with an insert whose send failed in this
session and that no other attempt has sent. -/
def CommitsNoFailure (w : World) : Event → Prop
  | .receive (.next _) => ∀ s ∈ w.session, ∀ txn rest, s.pending = .commit txn :: rest →
      ∀ i < txn.inserts.length, (txn.endLSN, i) ∈ s.failed → (txn.endLSN, i) ∈ w.sent
  | _ => True

/-- The commit that comes next, if it is one. -/
def Session.nextCommit (s : Session) : Option Transaction :=
  match s.pending with
  | .commit txn :: _ => some txn
  | _ => none

theorem Session.nextCommit_eq_some {s : Session} {txn : Transaction} :
    s.nextCommit = some txn ↔ ∃ rest, s.pending = .commit txn :: rest := by
  rw [nextCommit]
  split
  · rename_i other rest hpending
    simp [hpending, eq_comm]
  · rename_i hnot
    simpa using fun rest hpending => hnot txn rest hpending

theorem commitsNoFailure_next_iff (w : World) (delivery : Delivery) :
    CommitsNoFailure w (.receive (.next delivery)) ↔
      ∀ s ∈ w.session, ∀ txn ∈ s.nextCommit,
        ∀ i < txn.inserts.length, (txn.endLSN, i) ∈ s.failed → (txn.endLSN, i) ∈ w.sent := by
  simp only [CommitsNoFailure, Option.mem_def, Session.nextCommit_eq_some, forall_exists_index]

instance (w : World) : ∀ e, Decidable (CommitsNoFailure w e)
  | .start _ => isTrue trivial
  | .standby _ _ _ => isTrue trivial
  | .receive received =>
    match received with
    | .next delivery => decidable_of_iff _ (commitsNoFailure_next_iff w delivery).symm
    | .timeout => isTrue trivial
    | .failed => isTrue trivial
    | .unexpected => isTrue trivial
    | .keepalive _ => isTrue trivial
    | .relation _ => isTrue trivial
    | .begin _ => isTrue trivial
    | .other => isTrue trivial

/-- The messages pending in `s` are the rest of the first transaction of `txns` and the other ones
in full; what has been handled of the first was sent or failed. -/
def Serving (w : World) (s : Session) : List Transaction → Prop
  | [] => s.pending = []
  | txn :: txns => ∃ k ≤ txn.inserts.length,
      s.pending = txn.itemsFrom k ++ txns.flatMap (Transaction.itemsFrom · 0) ∧
      ∀ i < k, (txn.endLSN, i) ∈ w.sent ∨ (txn.endLSN, i) ∈ s.failed

/-- A running process is between the confirmed position and the end of what it was sent. -/
structure SessionInv (wal : List Transaction) (w : World) (s : Session) : Prop where
  inStream : s.shared.inStream = false
  serving : Serving w s (unconfirmed wal s.lsn)

def Inv (wal : List Transaction) (w : World) : Prop := ∀ s ∈ w.session, SessionInv wal w s

/-! ## What Postgres has yet to send -/

section Serving

variable {w w' : World} {s s' : Session} {txn : Transaction} {txns : List Transaction}
  {wal : List Transaction}

/-- Before its end, a transaction goes on with its next insert. -/
theorem itemsFrom_of_lt {k : ℕ} (hk : k < txn.inserts.length) :
    txn.itemsFrom k = .insert (txn.endLSN, k) txn.inserts[k] :: txn.itemsFrom (k + 1) := by
  have hlen : k < txn.inserts.zipIdx.length := by rwa [List.length_zipIdx]
  rw [Transaction.itemsFrom, List.drop_eq_getElem_cons hlen, List.map_cons, List.cons_append,
    List.getElem_zipIdx]
  simp only [Nat.zero_add, Transaction.itemsFrom]

/-- At its end, a transaction goes on with its commit. -/
theorem itemsFrom_length : txn.itemsFrom txn.inserts.length = [.commit txn] := by
  rw [Transaction.itemsFrom, List.drop_eq_nil_of_le (by rw [List.length_zipIdx]), List.map_nil,
    List.nil_append]

/-- A session that starts is sent all its transactions. -/
theorem serving_all (hpending : s.pending = txns.flatMap (Transaction.itemsFrom · 0)) :
    Serving w s txns := by
  cases txns with
  | nil => exact hpending
  | cons txn txns =>
    exact ⟨0, Nat.zero_le _, hpending, fun i hi => absurd hi (Nat.not_lt_zero i)⟩

/-- What has been handled stays handled. -/
theorem Serving.mono (h : Serving w s txns) (hpending : s'.pending = s.pending)
    (hsent : w.sent ⊆ w'.sent) (hfailed : s.failed ⊆ s'.failed) : Serving w' s' txns := by
  cases txns with
  | nil => exact hpending.trans h
  | cons txn txns =>
    obtain ⟨k, hk, hrest, hhandled⟩ := h
    exact ⟨k, hk, hpending.trans hrest,
      fun i hi => (hhandled i hi).imp (fun h => hsent h) fun h => hfailed h⟩

/-- One more insert has been handled. -/
theorem Serving.insert {id : InsertId} {message : InsertMessageV2} {pending : List WalItem}
    (h : Serving w s txns) (hnext : s.pending = .insert id message :: pending)
    (hpending : s'.pending = pending) (hsent : w.sent ⊆ w'.sent) (hfailed : s.failed ⊆ s'.failed)
    (hid : id ∈ w'.sent ∨ id ∈ s'.failed) : Serving w' s' txns := by
  cases txns with
  | nil =>
    rw [Serving, hnext] at h
    cases h
  | cons txn txns =>
    obtain ⟨k, hk, hrest, hhandled⟩ := h
    rw [hnext] at hrest
    -- at the end of the transaction the next item would have been its commit
    rcases Nat.lt_or_eq_of_le hk with hlt | rfl
    · rw [itemsFrom_of_lt hlt, List.cons_append, List.cons.injEq] at hrest
      obtain ⟨hitem, hrest⟩ := hrest
      obtain ⟨rfl, -⟩ := WalItem.insert.inj hitem
      refine ⟨k + 1, hlt, hpending.trans hrest, fun i hi => ?_⟩
      rcases Nat.lt_succ_iff_lt_or_eq.mp hi with hi | rfl
      · exact (hhandled i hi).imp (fun h => hsent h) fun h => hfailed h
      · exact hid
    · rw [itemsFrom_length, List.cons_append, List.cons.injEq] at hrest
      cases hrest.1

/-- When a commit is next, all inserts of its transaction have been handled, and behind it come the
later transactions. -/
theorem Serving.commit {pending : List WalItem} (h : Serving w s txns)
    (hnext : s.pending = .commit txn :: pending) :
    ∃ rest, txns = txn :: rest ∧ pending = rest.flatMap (Transaction.itemsFrom · 0) ∧
      ∀ i < txn.inserts.length, (txn.endLSN, i) ∈ w.sent ∨ (txn.endLSN, i) ∈ s.failed := by
  cases txns with
  | nil =>
    rw [Serving, hnext] at h
    cases h
  | cons first rest =>
    obtain ⟨k, hk, hrest, hhandled⟩ := h
    rw [hnext] at hrest
    -- before the end of the transaction the next item would have been an insert
    rcases Nat.lt_or_eq_of_le hk with hlt | rfl
    · rw [itemsFrom_of_lt hlt, List.cons_append, List.cons.injEq] at hrest
      cases hrest.1
    · rw [itemsFrom_length, List.cons_append, List.cons.injEq, List.nil_append] at hrest
      obtain ⟨hitem, hrest⟩ := hrest
      obtain rfl := WalItem.commit.inj hitem
      exact ⟨rest, rfl, hrest, hhandled⟩

/-- Behind the first unconfirmed transaction come the others. -/
theorem unconfirmed_endLSN (hwal : wal.Pairwise fun a b => a.endLSN < b.endLSN) {lsn : LSN}
    (h : unconfirmed wal lsn = txn :: txns) : unconfirmed wal txn.endLSN = txns := by
  have hmem : txn ∈ unconfirmed wal lsn := by rw [h]; exact List.mem_cons_self
  have hlt : lsn < txn.endLSN := by simpa using (List.mem_filter.mp hmem).2
  have hsorted : (txn :: txns).Pairwise fun a b => a.endLSN < b.endLSN := by
    rw [← h]
    exact hwal.sublist List.filter_sublist
  -- confirming more only filters what was unconfirmed before
  have htwice : unconfirmed wal txn.endLSN = unconfirmed (unconfirmed wal lsn) txn.endLSN := by
    rw [unconfirmed, unconfirmed, unconfirmed, List.filter_filter]
    refine List.filter_congr fun other _ => ?_
    rw [Bool.eq_iff_iff, Bool.and_eq_true, decide_eq_true_eq, decide_eq_true_eq]
    exact ⟨fun h => ⟨h, Nat.lt_trans hlt h⟩, And.left⟩
  rw [htwice, h, unconfirmed, List.filter_cons_of_neg (by simp)]
  exact List.filter_eq_self.mpr fun other hother =>
    decide_eq_true ((List.pairwise_cons.mp hsorted).1 other hother)

/-- Up to the first unconfirmed transaction there is nothing else unconfirmed. -/
theorem eq_or_le_of_unconfirmed (hwal : wal.Pairwise fun a b => a.endLSN < b.endLSN) {lsn : LSN}
    (h : unconfirmed wal lsn = txn :: txns) {other : Transaction} (hother : other ∈ wal)
    (hle : other.endLSN ≤ txn.endLSN) : other = txn ∨ other.endLSN ≤ lsn := by
  by_cases hlsn : other.endLSN ≤ lsn
  · exact Or.inr hlsn
  · have hmem : other ∈ unconfirmed wal lsn :=
      List.mem_filter.mpr ⟨hother, decide_eq_true (Nat.lt_of_not_le hlsn)⟩
    rw [h, List.mem_cons] at hmem
    refine hmem.imp id fun hmem => ?_
    -- otherwise it stands behind the first one and so ends later
    have hrest : other ∈ unconfirmed wal txn.endLSN := by rwa [unconfirmed_endLSN hwal h]
    have hlt : txn.endLSN < other.endLSN := by simpa using (List.mem_filter.mp hrest).2
    exact absurd hle (Nat.not_le_of_lt hlt)

end Serving

/-! ## What an event can do -/

/-- The two sessions stand at the same point of the stream. -/
structure Session.SamePosition (s s' : Session) : Prop where
  inStream : s'.shared.inStream = s.shared.inStream
  lsn : s'.lsn = s.lsn
  pending : s'.pending = s.pending
  failed : s'.failed = s.failed

/-- The effects an event can have on the position in the stream, on the confirmed position and on
what has been sent. -/
inductive Move (wal : List Transaction) (w : World) : Event → World → Prop where
  | start (now : ℕ) : Move wal w (.start now) (w.start wal now)
  | quiet {e : Event} {s s' : Session} (hs : w.session = some s) (hsame : s.SamePosition s')
      (hcommits : CommitsNoFailure w e) : Move wal w e { w with session := some s' }
  | report {e : Event} {s s' : Session} (hs : w.session = some s) (hsame : s.SamePosition s')
      (hcommits : CommitsNoFailure w e) :
      Move wal w e { w with confirmed := s.lsn, session := some s' }
  | exit {e : Event} (hcommits : CommitsNoFailure w e) : Move wal w e w.exit
  | reportExit {e : Event} {s : Session} (hs : w.session = some s)
      (hcommits : CommitsNoFailure w e) : Move wal w e { w.exit with confirmed := s.lsn }
  | insert {delivery : Delivery} {s s' : Session} {id : InsertId} {message : InsertMessageV2}
      {sent : List InsertId} (hs : w.session = some s)
      (hnext : s.pending = .insert id message :: s'.pending)
      (hstream : s'.shared.inStream = s.shared.inStream) (hlsn : s'.lsn = s.lsn)
      (hsent : w.sent ⊆ sent) (hfailed : s.failed ⊆ s'.failed) (hid : id ∈ sent ∨ id ∈ s'.failed) :
      Move wal w (.receive (.next delivery)) { w with session := some s', sent }
  | commit {delivery : Delivery} {s s' : Session} {txn : Transaction} (hs : w.session = some s)
      (hnext : s.pending = .commit txn :: s'.pending)
      (hstream : s'.shared.inStream = s.shared.inStream) (hlsn : s'.lsn = txn.endLSN) :
      Move wal w (.receive (.next delivery)) { w with session := some s' }

section Step

variable {parseV2 : ParseV2} {typeMap : TypeMap} {wal : List Transaction} {w w' : World}
  {s : Session} {e : Event}

/-- A message other than an insert or a commit leaves the position as it is. -/
theorem move_quiet (hparse : ParsesFaithfully parseV2) (hs : w.session = some s)
    (hstream : s.shared.inStream = false) {message : LogicalMessage}
    (h : message.IsIgnored ∨ ∃ relation, message = .relation relation)
    (hcommits : CommitsNoFailure w e) :
    Move wal w e
      (w.handle parseV2 typeMap { s with receiving := false } message .delivered none) := by
  rcases h with h | ⟨relation, rfl⟩
  · rw [World.handle, process_ignored hparse hstream h]
    exact .quiet hs ⟨rfl, rfl, rfl, rfl⟩ hcommits
  · rw [World.handle, process_relation hparse hstream]
    exact .quiet hs ⟨rfl, rfl, rfl, rfl⟩ hcommits

/-- The next insert ends the process or is sent or fails. -/
theorem move_insert (hparse : ParsesFaithfully parseV2) (hs : w.session = some s)
    (hstream : s.shared.inStream = false) {id : InsertId} {message : InsertMessageV2}
    {pending : List WalItem} (hnext : s.pending = .insert id message :: pending)
    (delivery : Delivery) :
    Move wal w (.receive (.next delivery))
      (w.handle parseV2 typeMap { s with receiving := false, pending } (.insert message) delivery
        (some id)) := by
  rw [World.handle, process_insert hparse hstream]
  cases ProducerRecord.MapFromInsertMessage message s.shared.relations typeMap with
  | error exit =>
    -- nothing is sent, and the item at hand is no commit
    refine .exit fun s' hs' txn rest hcommit => ?_
    obtain rfl : s = s' := Option.some.inj (hs.symm.trans hs')
    rw [hnext] at hcommit
    cases hcommit
  | ok record =>
    simp only [Except.map]
    cases Producer.Send delivery with
    | ok =>
      exact .insert hs hnext rfl rfl (List.subset_cons_self id w.sent) (List.Subset.refl _)
        (Or.inl List.mem_cons_self)
    | error err =>
      have hfailed : s.failed ⊆ id :: s.failed := List.subset_cons_self id s.failed
      exact .insert hs hnext rfl rfl (List.Subset.refl _) hfailed (Or.inr List.mem_cons_self)

/-- The turn of the loop that reports to the server, or does not. -/
theorem move_of_standby {now later : ℕ} {update : Update}
    (h : step parseV2 typeMap wal w (.standby now later update) = some w') :
    Move wal w (.standby now later update) w' := by
  cases hs : w.session with
  | none => simp [step, hs] at h
  | some s =>
    cases hreceiving : s.receiving with
    | true => simp [step, hs, hreceiving] at h
    | false =>
      simp only [step, hs, hreceiving, Bool.false_eq_true, ↓reduceIte,
        sendOffsetUpdateWhenNeedled] at h
      -- past the deadline the lsn is reported; before it nothing happens but the step itself
      split_ifs at h with hdeadline
      · cases update with
        | acknowledged =>
          obtain rfl := Option.some.inj h
          exact .report hs ⟨rfl, rfl, rfl, rfl⟩ trivial
        | arrivedAndFailed =>
          obtain rfl := Option.some.inj h
          exact .reportExit hs trivial
        | failed =>
          obtain rfl := Option.some.inj h
          exact .exit trivial
      · obtain rfl := Option.some.inj h
        exact .quiet hs ⟨rfl, rfl, rfl, rfl⟩ trivial

/-- The turn that receives a message. -/
theorem move_of_receive {received : Received} (hparse : ParsesFaithfully parseV2)
    (hinv : Inv wal w) (h : step parseV2 typeMap wal w (.receive received) = some w') :
    Move wal w (.receive received) w' := by
  cases hs : w.session with
  | none => simp [step, hs] at h
  | some s =>
    -- the flag is never set, so that the parser reads every message as it is
    have hstream := (hinv s hs).inStream
    cases hreceiving : s.receiving with
    | false => simp [step, hs, hreceiving] at h
    | true =>
      simp only [step, hs, hreceiving, ↓reduceIte] at h
      cases received with
      | timeout =>
        obtain rfl := Option.some.inj h
        exact .quiet hs ⟨rfl, rfl, rfl, rfl⟩ trivial
      | failed =>
        obtain rfl := Option.some.inj h
        exact .exit trivial
      | unexpected =>
        obtain rfl := Option.some.inj h
        exact .quiet hs ⟨rfl, rfl, rfl, rfl⟩ trivial
      | keepalive replyRequested =>
        cases replyRequested with
        | false =>
          obtain rfl := Option.some.inj h
          exact .quiet hs ⟨rfl, rfl, rfl, rfl⟩ trivial
        | true =>
          obtain rfl := Option.some.inj h
          exact .quiet hs ⟨rfl, rfl, rfl, rfl⟩ trivial
      -- only here the pending items matter: an insert or a commit is taken from them
      | next delivery =>
        cases hpending : s.pending with
        | nil => simp [hpending] at h
        | cons item pending =>
          cases item with
          | insert id message =>
            simp only [hpending, Option.some.injEq] at h
            rw [← h]
            exact move_insert hparse hs hstream hpending delivery
          | commit txn =>
            simp only [hpending, Option.some.injEq, World.handle,
              process_commit hparse hstream] at h
            rw [← h]
            exact .commit hs hpending rfl rfl
      | relation message =>
        obtain rfl := Option.some.inj h
        exact move_quiet hparse hs hstream (Or.inr ⟨message, rfl⟩) trivial
      | begin xid =>
        obtain rfl := Option.some.inj h
        exact move_quiet hparse hs hstream (Or.inl rfl) trivial
      | other =>
        obtain rfl := Option.some.inj h
        exact move_quiet hparse hs hstream (Or.inl rfl) trivial

/-- Every event makes one of the moves. -/
theorem move_of_step (hparse : ParsesFaithfully parseV2) (hinv : Inv wal w)
    (h : step parseV2 typeMap wal w e = some w') : Move wal w e w' := by
  cases e with
  | start now =>
    obtain rfl := Option.some.inj h
    exact .start now
  | standby now later update => exact move_of_standby h
  | receive received => exact move_of_receive hparse hinv h

/-! ## Runs -/

/-- The invariant is kept by every move. -/
theorem Move.inv (hwal : wal.Pairwise fun a b => a.endLSN < b.endLSN) (hinv : Inv wal w)
    (h : Move wal w e w') : Inv wal w' := by
  intro t ht
  cases h with
  | start now =>
    obtain rfl := Option.some.inj ht
    exact { inStream := rfl, serving := serving_all rfl }
  | quiet hs hsame hcommits =>
    obtain rfl := Option.some.inj ht
    obtain ⟨hstream, hserving⟩ := hinv _ hs
    refine ⟨hsame.inStream.trans hstream, ?_⟩
    rw [hsame.lsn]
    exact hserving.mono hsame.pending (List.Subset.refl _) (by rw [hsame.failed]; simp)
  | report hs hsame hcommits =>
    obtain rfl := Option.some.inj ht
    obtain ⟨hstream, hserving⟩ := hinv _ hs
    refine ⟨hsame.inStream.trans hstream, ?_⟩
    rw [hsame.lsn]
    exact hserving.mono hsame.pending (List.Subset.refl _) (by rw [hsame.failed]; simp)
  | exit hcommits => cases ht
  | reportExit hs hcommits => cases ht
  | insert hs hnext hstream hlsn hsent hfailed hid =>
    obtain rfl := Option.some.inj ht
    obtain ⟨hinStream, hserving⟩ := hinv _ hs
    refine ⟨hstream.trans hinStream, ?_⟩
    rw [hlsn]
    exact hserving.insert hnext rfl hsent hfailed hid
  | commit hs hnext hstream hlsn =>
    obtain rfl := Option.some.inj ht
    obtain ⟨hinStream, hserving⟩ := hinv _ hs
    obtain ⟨rest, hrest, hpending, -⟩ := hserving.commit hnext
    refine ⟨hstream.trans hinStream, ?_⟩
    -- the lsn moves to the end of this transaction, so that the next ones are unconfirmed
    rw [hlsn, unconfirmed_endLSN hwal hrest]
    exact serving_all hpending

/-- Where no more is acknowledged and no less is sent, nothing gets lost. -/
theorem NothingLost.mono (h : NothingLost wal w) (hsent : w.sent ⊆ w'.sent)
    (hack : ∀ lsn, w'.Acknowledges lsn → w.Acknowledges lsn) : NothingLost wal w' :=
  fun txn htxn hle i hi => hsent (h txn htxn (hack _ hle) i hi)

/-- A commit acknowledges its transaction, so it has to find all its inserts sent. -/
theorem nothingLost_commit_iff (hwal : wal.Pairwise fun a b => a.endLSN < b.endLSN)
    (hinv : Inv wal w) (hkept : NothingLost wal w) {s s' : Session} {txn : Transaction}
    (hs : w.session = some s) (hnext : s.pending = .commit txn :: s'.pending)
    (hlsn : s'.lsn = txn.endLSN) {delivery : Delivery} :
    NothingLost wal { w with session := some s' } ↔
      CommitsNoFailure w (.receive (.next delivery)) := by
  obtain ⟨rest, hrest, -, hhandled⟩ := (hinv s hs).serving.commit hnext
  have htxn : txn ∈ wal := List.mem_of_mem_filter (hrest ▸ List.mem_cons_self)
  constructor
  · intro hlost t ht txn' rest' hcommit i hi _
    obtain rfl : s = t := Option.some.inj (hs.symm.trans ht)
    rw [hnext, List.cons.injEq] at hcommit
    obtain rfl := WalItem.commit.inj hcommit.1
    -- the transaction is in the log and the new lsn acknowledges it
    exact hlost txn htxn (Or.inr ⟨s', rfl, Nat.le_of_eq hlsn.symm⟩) i hi
  · intro hcommits other hother hack
    have hsent : w.AllSent txn := fun i hi =>
      (hhandled i hi).elim id fun hfailed => hcommits s hs txn _ hnext i hi hfailed
    rcases hack with hle | ⟨t, ht, hle⟩
    · exact hkept other hother (Or.inl hle)
    · obtain rfl := Option.some.inj ht
      rw [hlsn] at hle
      -- what the new lsn acknowledges beyond the old one is this transaction only
      rcases eq_or_le_of_unconfirmed hwal hrest hother hle with rfl | hle
      · exact hsent
      · exact hkept other hother (Or.inr ⟨s, hs, hle⟩)

/-- A move keeps `NothingLost` exactly when it does not commit past a failure. -/
theorem Move.keeps_nothingLost_iff (hwal : wal.Pairwise fun a b => a.endLSN < b.endLSN)
    (hinv : Inv wal w) (hkept : NothingLost wal w) (h : Move wal w e w') :
    NothingLost wal w' ↔ CommitsNoFailure w e := by
  -- all but a commit acknowledge nothing new, so that both sides hold
  cases h with
  | start now =>
    refine iff_of_true (hkept.mono (List.Subset.refl _) ?_) trivial
    rintro lsn (hle | ⟨t, ht, hle⟩)
    · exact Or.inl hle
    · obtain rfl := Option.some.inj ht
      exact Or.inl hle
  | quiet hs hsame hcommits =>
    refine iff_of_true (hkept.mono (List.Subset.refl _) ?_) hcommits
    rintro lsn (hle | ⟨t, ht, hle⟩)
    · exact Or.inl hle
    · obtain rfl := Option.some.inj ht
      exact Or.inr ⟨_, hs, hsame.lsn ▸ hle⟩
  | report hs hsame hcommits =>
    -- the new confirmed position is the lsn the session had already
    refine iff_of_true (hkept.mono (List.Subset.refl _) ?_) hcommits
    rintro lsn (hle | ⟨t, ht, hle⟩)
    · exact Or.inr ⟨_, hs, hle⟩
    · obtain rfl := Option.some.inj ht
      exact Or.inr ⟨_, hs, hsame.lsn ▸ hle⟩
  | exit hcommits =>
    refine iff_of_true (hkept.mono (List.Subset.refl _) ?_) hcommits
    rintro lsn (hle | ⟨t, ht, -⟩)
    · exact Or.inl hle
    · cases ht
  | reportExit hs hcommits =>
    refine iff_of_true (hkept.mono (List.Subset.refl _) ?_) hcommits
    rintro lsn (hle | ⟨t, ht, -⟩)
    · exact Or.inr ⟨_, hs, hle⟩
    · cases ht
  | insert hs hnext hstream hlsn hsent hfailed hid =>
    refine iff_of_true (hkept.mono hsent ?_) ?_
    · rintro lsn (hle | ⟨t, ht, hle⟩)
      · exact Or.inl hle
      · obtain rfl := Option.some.inj ht
        exact Or.inr ⟨_, hs, hlsn ▸ hle⟩
    · intro t ht txn rest hcommit
      obtain rfl := Option.some.inj (hs.symm.trans ht)
      rw [hnext] at hcommit
      cases hcommit
  | commit hs hnext hstream hlsn => exact nothingLost_commit_iff hwal hinv hkept hs hnext hlsn

end Step

/-- **What the relay acknowledges.** From a slot below all transactions, a run keeps `NothingLost`
in every state exactly when it handles no commit past a failed send. -/
theorem nothingLost_iff (parseV2 : ParseV2) (typeMap : TypeMap)
    (hparse : ParsesFaithfully parseV2) (wal : List Transaction)
    (hwal : wal.Pairwise fun a b => a.endLSN < b.endLSN) (slot : LSN)
    (hslot : ∀ txn ∈ wal, slot < txn.endLSN) (events : List Event) :
    Transition.Throughout (step parseV2 typeMap wal) (NothingLost wal) (World.init slot) events ↔
      Transition.Along (step parseV2 typeMap wal) CommitsNoFailure (World.init slot) events := by
  refine Transition.throughout_iff_along (J := Inv wal) ?_ ?_ ?_ ?_
  -- the invariant is kept whatever happens, `NothingLost` only under the condition
  · exact fun w e w' hinv hstep => (move_of_step hparse hinv hstep).inv hwal hinv
  · exact fun w e w' hinv hkept hstep =>
      (move_of_step hparse hinv hstep).keeps_nothingLost_iff hwal hinv hkept
  · intro s hs
    cases hs
  -- at the start nothing is acknowledged
  · rintro txn htxn (hle | ⟨s, hs, -⟩)
    · exact absurd hle (Nat.not_le_of_lt (hslot txn htxn))
    · cases hs

/-! ## Two runs -/

/-- Two transactions, the second one of two rows. -/
def twoTransactions : List Transaction := [⟨[topicInsert], 8⟩, ⟨[topicInsert, topicInsert], 16⟩]

/-- The process crashes before it has reported the first transaction and cannot send its row once
more; it goes on to the second one and reports that. -/
def restartedRun : List Event :=
  [.start 0,
   .standby 1 1 .acknowledged, .receive (.relation topicRelation),
   .standby 2 2 .acknowledged, .receive (.next .delivered),
   .standby 3 3 .acknowledged, .receive (.next .delivered),
   .start 4,
   .standby 5 5 .acknowledged, .receive (.relation topicRelation),
   .standby 6 6 .acknowledged, .receive (.next .deliveryFailed),
   .standby 7 7 .acknowledged, .receive (.next .delivered),
   .standby 8 8 .acknowledged, .receive (.next .delivered),
   .standby 9 9 .acknowledged, .receive (.next .delivered),
   .standby 10 10 .acknowledged, .receive (.next .delivered),
   .standby (standbyMessageTimeout + 5) (standbyMessageTimeout + 5) .acknowledged]

/-- The failed send loses nothing, as the row had been sent before the crash. -/
theorem nothingLost_iff_restartedRun :
    Transition.Throughout (step parseStrict (fun _ => none) twoTransactions)
        (NothingLost twoTransactions) (World.init 0) restartedRun ∧
      (Transition.run (step parseStrict (fun _ => none) twoTransactions) (World.init 0)
        restartedRun).map World.confirmed = some 16 := by
  refine ⟨?_, by decide +kernel⟩
  apply (nothingLost_iff parseStrict (fun _ => none) parsesFaithfully_parseStrict twoTransactions
    (by decide) 0 (by decide) restartedRun).mpr
  decide +kernel

/-- One transaction of one row. -/
def oneInsert : List Transaction := [⟨[topicInsert], 8⟩]

/-- The row's send fails, the commit is handled and the next loop iteration reports it. -/
def lossyRun : List Event :=
  [.start 0,
   .standby 1 1 .acknowledged, .receive (.relation topicRelation),
   .standby 2 2 .acknowledged, .receive (.next .deliveryFailed),
   .standby 3 3 .acknowledged, .receive (.next .delivered),
   .standby (standbyMessageTimeout + 1) (standbyMessageTimeout + 1) .acknowledged]

/-- The run ends with the transaction confirmed and its row not sent. -/
theorem lost_oneInsert :
    ∃ w, Transition.run (step parseStrict (fun _ => none) oneInsert) (World.init 0) lossyRun =
        some w ∧ w.confirmed = 8 ∧ ¬NothingLost oneInsert w := by
  refine ⟨_, rfl, rfl, fun h => ?_⟩
  have hsent := h ⟨[topicInsert], 8⟩ (by simp [oneInsert]) (Or.inl (Nat.le_refl 8)) 0 (by decide)
  revert hsent
  decide

end Outbox
