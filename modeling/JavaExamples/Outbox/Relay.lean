import JavaExamples.Outbox.ProducerRecord

/-!
# The outbox relay

`process` handles one message of the logical replication stream: it remembers relations, sends
inserts to Kafka and hands the end of a committed transaction to `listenEvents`, which reports it to
Postgres by `sendOffsetUpdateWhenNeedled`. The parser is a parameter; `ParsesFaithfully` states what
is assumed of it.

* `process_insert`, `process_commit`, …: what `process` does on each message.
* `process_inStream`: `process` never writes the flag `inStream`.
-/

namespace Outbox

/-- `pglogrepl.LSN`. -/
abbrev LSN := ℕ

/-- The logical messages of protocol version 2, with what the relay could read of them. -/
inductive LogicalMessage where
  | begin (xid : ℕ)
  | relation (message : RelationMessageV2)
  | insert (message : InsertMessageV2)
  | commit (transactionEndLSN : LSN)
  | streamStart (xid : ℕ)
  | streamStop
  | streamCommit (xid : ℕ) (transactionEndLSN : LSN)
  | streamAbort (xid : ℕ)
  | other
deriving DecidableEq

/-- The messages that never carry an xid prefix: the ends of transactions and of chunks. -/
def LogicalMessage.IsControl : LogicalMessage → Bool
  | begin _ | commit _ | streamStart _ | streamStop | streamCommit _ _ | streamAbort _ => true
  | relation _ | insert _ | other => false

/-- The bytes of one message as the server writes them: with the xid of its transaction in front if
it stands in a chunk of a streamed transaction. -/
structure WalData where
  xid : Option ℕ
  message : LogicalMessage
deriving DecidableEq

/-- `pglogrepl.ParseV2(walData, inStream)`, `none` for an error. -/
abbrev ParseV2 := WalData → Bool → Option LogicalMessage

/-- The parser strips an xid prefix if and only if `inStream` is set. Nothing is assumed where the
flag and the message disagree. -/
structure ParsesFaithfully (parseV2 : ParseV2) : Prop where
  ordinary (message : LogicalMessage) : parseV2 ⟨none, message⟩ false = some message
  streamed (xid : ℕ) (message : LogicalMessage) : parseV2 ⟨some xid, message⟩ true = some message
  control (message : LogicalMessage) (h : message.IsControl) :
    parseV2 ⟨none, message⟩ true = some message

/-! ## Sending -/

/-- What becomes of a message handed to the Kafka client. -/
inductive Delivery where
  | produceFailed
  | delivered
  | deliveryFailed
  | timedOut
deriving DecidableEq

inductive SendError where
  | produce
  | deliveryFailed
  | deliveryTimeout

/-- `Send` waits for the delivery report, so that `nil` means delivered. -/
def Producer.Send : Delivery → Except SendError Unit
  | .produceFailed => .error .produce
  | .delivered => .ok ()
  | .deliveryFailed => .error .deliveryFailed
  | .timedOut => .error .deliveryTimeout

/-! ## One message -/

/-- The variables of `listenEvents` that `process` is given a reference to. -/
structure Shared where
  relations : Relations
  inStream : Bool

/-- The variables as `listenEvents` starts with them. -/
def Shared.init : Shared := { relations := ∅, inStream := false }

/-- The call `process` makes besides its writes to the shared variables. -/
inductive Effect where
  | none
  | send (record : Message) (result : Except SendError Unit)
  | onCommit (lsn : LSN)

/-- One message of the stream; `delivery` is what becomes of the record if it is an insert. -/
def process (parseV2 : ParseV2) (typeMap : TypeMap) (delivery : Delivery) (walData : WalData)
    (shared : Shared) : Except Exit (Shared × Effect) :=
  match parseV2 walData shared.inStream with
  | none => .error .unparsableMessage
  | some logicalMsg =>
    match logicalMsg with
    | .relation message =>
      .ok ({ shared with relations := shared.relations.insert message.relationID message }, .none)
    | .insert message =>
      match ProducerRecord.MapFromInsertMessage message shared.relations typeMap with
      | .error exit => .error exit
      -- a failed `Send` is logged and otherwise ignored
      | .ok record => .ok (shared, .send record (Producer.Send delivery))
    | .commit transactionEndLSN => .ok (shared, .onCommit transactionEndLSN)
    | _ => .ok (shared, .none)

/-- Times are nanoseconds since `time.Time{}`. -/
def standbyMessageTimeout : ℕ := 10 * 1000000000

/-- The lsn to report, if any, and the next deadline, for clock readings `now` and `later`. -/
def sendOffsetUpdateWhenNeedled (now later : ℕ) (lsn : LSN) (nextStandbyMessageDeadline : ℕ) :
    Option LSN × ℕ :=
  if nextStandbyMessageDeadline < now then (some lsn, later + standbyMessageTimeout)
  else (none, nextStandbyMessageDeadline)

section Process

variable {parseV2 : ParseV2} {typeMap : TypeMap} {delivery : Delivery} {walData : WalData}
  {shared shared' : Shared} {effect : Effect}

/-- Neither `StreamStart` nor `StreamStop` changes the flag, nor does anything else. -/
theorem process_inStream
    (h : process parseV2 typeMap delivery walData shared = .ok (shared', effect)) :
    shared'.inStream = shared.inStream := by
  unfold process at h
  split at h
  · cases h
  · split at h
    · obtain ⟨rfl, -⟩ := Prod.mk.inj (Except.ok.inj h)
      rfl
    · split at h
      · cases h
      · obtain ⟨rfl, -⟩ := Prod.mk.inj (Except.ok.inj h)
        rfl
    · obtain ⟨rfl, -⟩ := Prod.mk.inj (Except.ok.inj h)
      rfl
    · obtain ⟨rfl, -⟩ := Prod.mk.inj (Except.ok.inj h)
      rfl

/-- Where the flag is unset, a message without prefix is handled as itself. -/
theorem parseV2_ordinary (hparse : ParsesFaithfully parseV2) (hstream : shared.inStream = false)
    (message : LogicalMessage) : parseV2 ⟨none, message⟩ shared.inStream = some message := by
  rw [hstream]
  exact hparse.ordinary message

/-- A relation is remembered. -/
theorem process_relation (hparse : ParsesFaithfully parseV2) (hstream : shared.inStream = false)
    (message : RelationMessageV2) :
    process parseV2 typeMap delivery ⟨none, .relation message⟩ shared =
      .ok ({ shared with relations := shared.relations.insert message.relationID message },
        .none) := by
  rw [process, parseV2_ordinary hparse hstream]

/-- An insert that maps to a record is sent, whatever comes of it. -/
theorem process_insert (hparse : ParsesFaithfully parseV2) (hstream : shared.inStream = false)
    (message : InsertMessageV2) :
    process parseV2 typeMap delivery ⟨none, .insert message⟩ shared =
      (ProducerRecord.MapFromInsertMessage message shared.relations typeMap).map fun record =>
        (shared, .send record (Producer.Send delivery)) := by
  rw [process, parseV2_ordinary hparse hstream]
  dsimp only
  cases ProducerRecord.MapFromInsertMessage message shared.relations typeMap with
  | error exit => rfl
  | ok record => rfl

/-- A commit is handed on. -/
theorem process_commit (hparse : ParsesFaithfully parseV2) (hstream : shared.inStream = false)
    (transactionEndLSN : LSN) :
    process parseV2 typeMap delivery ⟨none, .commit transactionEndLSN⟩ shared =
      .ok (shared, .onCommit transactionEndLSN) := by
  rw [process, parseV2_ordinary hparse hstream]

/-- The messages `process` has no case for. -/
def LogicalMessage.IsIgnored : LogicalMessage → Bool
  | relation _ | insert _ | commit _ => false
  | _ => true

/-- Every other message does nothing, those that end a streamed transaction included. -/
theorem process_ignored (hparse : ParsesFaithfully parseV2) (hstream : shared.inStream = false)
    {message : LogicalMessage} (h : message.IsIgnored) :
    process parseV2 typeMap delivery ⟨none, message⟩ shared = .ok (shared, .none) := by
  rw [process, parseV2_ordinary hparse hstream]
  cases message <;> first | rfl | cases h

end Process

/-! ## A parser and a table -/

/-- A parser that refuses what the flag does not fit. -/
def parseStrict : ParseV2
  | ⟨none, message⟩, false => some message
  | ⟨some _, message⟩, true => some message
  | ⟨none, message⟩, true => if message.IsControl then some message else none
  | ⟨some _, _⟩, false => none

theorem parsesFaithfully_parseStrict : ParsesFaithfully parseStrict where
  ordinary _ := rfl
  streamed _ _ := rfl
  control _ h := if_pos h

/-- A table with the column `nam_topic` only. -/
def topicRelation : RelationMessageV2 := ⟨1, [⟨"nam_topic".toList, 1043⟩]⟩

/-- A row of it. -/
def topicInsert : InsertMessageV2 := ⟨1, [⟨'t', "outbox".toList⟩]⟩

/-- The row maps to a record for its topic. -/
example : (ProducerRecord.MapFromInsertMessage topicInsert
    ((∅ : Relations).insert 1 topicRelation) fun _ => none).toOption.map Message.topic =
      some "outbox".toList := by decide

end Outbox
