import JavaExamples.Outbox.Relay

/-!
# Streamed transactions

With `streaming 'true'` Postgres sends a large transaction in chunks, interleaved with other
transactions, before it commits or aborts. The relay shares the flag `inStream` with the parser but
never sets it, and has no case for `StreamCommit` and `StreamAbort`.

* `RelayedLikeOrdinary`: every message is parsed with the right flag, the records sent are those of
  the committed transactions, and the lsn advances for each of these.
* `relayedLikeOrdinary_iff`: this holds of exactly the message sequences in which no chunk carries a
  message, no streamed transaction commits and every insert maps to a record.
-/

namespace Outbox

/-- A message inside a transaction. -/
inductive Change where
  | relation (message : RelationMessageV2)
  | insert (message : InsertMessageV2)
  | other

def Change.message : Change → LogicalMessage
  | .relation message => .relation message
  | .insert message => .insert message
  | .other => .other

/-- The units Postgres interleaves: whole ordinary transactions, and the chunks and ends of streamed
ones. -/
inductive Block where
  | transaction (xid : ℕ) (changes : List Change) (endLSN : LSN)
  | chunk (xid : ℕ) (changes : List Change)
  | streamCommit (xid : ℕ) (endLSN : LSN)
  | streamAbort (xid : ℕ)

/-- The messages of a block, and whether each lies between a `StreamStart` and its `StreamStop`. -/
def Block.messages : Block → List (WalData × Bool)
  | .transaction xid changes endLSN =>
    (⟨none, .begin xid⟩, false) :: changes.map (fun change => (⟨none, change.message⟩, false)) ++
      [(⟨none, .commit endLSN⟩, false)]
  | .chunk xid changes =>
    (⟨none, .streamStart xid⟩, false) ::
      changes.map (fun change => (⟨some xid, change.message⟩, true)) ++
      [(⟨none, .streamStop⟩, false)]
  | .streamCommit xid endLSN => [(⟨none, .streamCommit xid endLSN⟩, false)]
  | .streamAbort xid => [(⟨none, .streamAbort xid⟩, false)]

/-- What a relay does: the flag each message is parsed with, the records sent and the lsns handed to
`onCommit`. -/
structure Trace where
  flags : List Bool
  sent : List Message
  committed : List LSN

/-- One more message, in front. -/
def Trace.cons (flag : Bool) (effect : Effect) (trace : Trace) : Trace :=
  match effect with
  | .none => { trace with flags := flag :: trace.flags }
  | .send record _ => { trace with flags := flag :: trace.flags, sent := record :: trace.sent }
  | .onCommit lsn =>
    { trace with flags := flag :: trace.flags, committed := lsn :: trace.committed }

/-- `process` on one message after the other, until it ends the process; all sends succeed. -/
def relay (parseV2 : ParseV2) (typeMap : TypeMap) (shared : Shared) : List WalData → Trace
  | [] => ⟨[], [], []⟩
  | walData :: rest =>
    match process parseV2 typeMap .delivered walData shared with
    -- `log.Fatalf`: the rest of the sequence is never handled
    | .error _ => ⟨[shared.inStream], [], []⟩
    | .ok (shared', effect) =>
      (relay parseV2 typeMap shared' rest).cons shared.inStream effect

/-! ## What should be relayed -/

/-- The relations known after some changes. -/
def announce (relations : Relations) : List Change → Relations
  | [] => relations
  | .relation message :: changes => announce (relations.insert message.relationID message) changes
  | _ :: changes => announce relations changes

/-- The records of the inserts among some changes, each by the relations known there. -/
def changeRecords (typeMap : TypeMap) (relations : Relations) :
    List Change → List (Except Exit Message)
  | [] => []
  | .relation message :: changes =>
    changeRecords typeMap (relations.insert message.relationID message) changes
  | .insert message :: changes =>
    ProducerRecord.MapFromInsertMessage message relations typeMap ::
      changeRecords typeMap relations changes
  | .other :: changes => changeRecords typeMap relations changes

/-- The records of all inserts, with the xid of the transaction for those of a streamed one. -/
def records (typeMap : TypeMap) (relations : Relations) :
    List Block → List (Option ℕ × Except Exit Message)
  | [] => []
  | .transaction _ changes _ :: blocks =>
    (changeRecords typeMap relations changes).map (none, ·) ++
      records typeMap (announce relations changes) blocks
  | .chunk xid changes :: blocks =>
    (changeRecords typeMap relations changes).map (some xid, ·) ++
      records typeMap (announce relations changes) blocks
  | _ :: blocks => records typeMap relations blocks

/-- The block commits the streamed transaction `xid`. -/
def Block.commits (xid : ℕ) : Block → Bool
  | .streamCommit other _ => other = xid
  | _ => false

/-- The records of the inserts of committed transactions. -/
def committedRecords (typeMap : TypeMap) (blocks : List Block) : List (Except Exit Message) :=
  ((records typeMap ∅ blocks).filter fun record =>
    match record.1 with
    | none => true
    | some xid => blocks.any (Block.commits xid)).map Prod.snd

/-- The end of the transaction that a block commits. -/
def Block.committedLSN : Block → Option LSN
  | .transaction _ _ endLSN => some endLSN
  | .streamCommit _ endLSN => some endLSN
  | _ => none

/-- The relay treats streamed transactions like ordinary ones. -/
structure RelayedLikeOrdinary (parseV2 : ParseV2) (typeMap : TypeMap) (blocks : List Block) :
    Prop where
  /-- Every message is parsed, with `inStream` set between a `StreamStart` and its `StreamStop`. -/
  flags : (relay parseV2 typeMap Shared.init ((blocks.flatMap Block.messages).map Prod.fst)).flags =
    (blocks.flatMap Block.messages).map Prod.snd
  /-- The records sent are the inserts of the committed transactions. -/
  sent : ((relay parseV2 typeMap Shared.init
      ((blocks.flatMap Block.messages).map Prod.fst)).sent.map Except.ok).Perm
    (committedRecords typeMap blocks)
  /-- The lsn advances for every committed transaction. -/
  committed : (relay parseV2 typeMap Shared.init
      ((blocks.flatMap Block.messages).map Prod.fst)).committed =
    blocks.filterMap Block.committedLSN

/-- The block commits a streamed transaction. -/
def Block.isStreamCommit : Block → Bool
  | .streamCommit _ _ => true
  | _ => false

/-- The block carries nothing of a streamed transaction that would have to be relayed. -/
def Block.IsOrdinary : Block → Prop
  | .chunk _ changes => changes = []
  | .streamCommit _ _ => False
  | _ => True

section Relay

variable {parseV2 : ParseV2} {typeMap : TypeMap} {shared : Shared}

/-- All messages are parsed with the flag the relay starts with. -/
theorem relay_flags {messages : List WalData} :
    ∀ flag ∈ (relay parseV2 typeMap shared messages).flags, flag = shared.inStream := by
  induction messages generalizing shared with
  | nil => simp [relay]
  | cons walData rest ih =>
    intro flag hflag
    rw [relay] at hflag
    split at hflag
    · exact List.mem_singleton.mp hflag
    · next shared' effect hprocess =>
      -- every effect adds the flag in front
      have hflags : ((relay parseV2 typeMap shared' rest).cons shared.inStream effect).flags =
          shared.inStream :: (relay parseV2 typeMap shared' rest).flags := by
        cases effect <;> rfl
      rw [hflags, List.mem_cons] at hflag
      exact hflag.elim id fun h => (ih flag h).trans (process_inStream hprocess)

/-- The lsn of an ordinary commit. -/
def LogicalMessage.commitLSN : LogicalMessage → Option LSN
  | .commit transactionEndLSN => some transactionEndLSN
  | _ => none

/-- On messages without prefix, `onCommit` is called for ordinary commits only. -/
theorem relay_committed_sublist (hparse : ParsesFaithfully parseV2)
    (hstream : shared.inStream = false) {messages : List LogicalMessage} :
    (relay parseV2 typeMap shared (messages.map (⟨none, ·⟩))).committed.Sublist
      (messages.filterMap LogicalMessage.commitLSN) := by
  induction messages generalizing shared with
  | nil => exact List.Sublist.refl _
  | cons message rest ih =>
    rw [List.map_cons, relay]
    cases message with
    | relation message =>
      rw [process_relation hparse hstream]
      exact ih hstream
    | insert message =>
      rw [process_insert hparse hstream]
      cases ProducerRecord.MapFromInsertMessage message shared.relations typeMap with
      -- the process ends here: it may miss later commits, but it invents none
      | error exit => exact List.nil_sublist _
      | ok record => exact ih hstream
    | commit lsn =>
      rw [process_commit hparse hstream]
      exact (ih hstream).cons_cons lsn
    | _ =>
      rw [process_ignored hparse hstream rfl]
      exact ih hstream

/-- The changes of an ordinary transaction, all of whose inserts map to records, are relayed in
front of what follows them. -/
theorem relay_changes (hparse : ParsesFaithfully parseV2) {relations : Relations}
    {changes : List Change}
    (hok : ∀ record ∈ changeRecords typeMap relations changes, record.isOk) {rest : List WalData}
    {trace : Trace}
    (hrest : relay parseV2 typeMap ⟨announce relations changes, false⟩ rest = trace) :
    ∃ records, records.map Except.ok = changeRecords typeMap relations changes ∧
      relay parseV2 typeMap ⟨relations, false⟩
          (changes.map (fun change => ⟨none, change.message⟩) ++ rest) =
        ⟨List.replicate changes.length false ++ trace.flags, records ++ trace.sent,
          trace.committed⟩ := by
  -- each change is handled with the relations that the ones before it announced
  induction changes generalizing relations with
  | nil => exact ⟨[], rfl, hrest⟩
  | cons change changes ih =>
    rw [List.map_cons, List.cons_append, relay]
    cases change with
    | relation message =>
      obtain ⟨records, hrecords, htrace⟩ := ih hok hrest
      rw [Change.message, process_relation hparse rfl]
      exact ⟨records, hrecords, congrArg (Trace.cons false .none) htrace⟩
    | insert message =>
      obtain ⟨records, hrecords, htrace⟩ :=
        ih (fun record hrecord => hok record (List.mem_cons_of_mem _ hrecord)) hrest
      have hfirst := hok _ List.mem_cons_self
      rw [Change.message, process_insert hparse rfl]
      cases hrecord : ProducerRecord.MapFromInsertMessage message relations typeMap with
      -- ruled out: all records are known to map
      | error exit =>
        rw [hrecord] at hfirst
        cases hfirst
      | ok record =>
        refine ⟨record :: records, ?_, congrArg (Trace.cons false (.send record (.ok ()))) htrace⟩
        rw [List.map_cons, hrecords, changeRecords, hrecord]
    | other =>
      obtain ⟨records, hrecords, htrace⟩ := ih hok hrest
      rw [Change.message, process_ignored hparse rfl rfl]
      exact ⟨records, hrecords, congrArg (Trace.cons false .none) htrace⟩

/-- A message without effect only adds its flag. -/
theorem relay_ignored (hparse : ParsesFaithfully parseV2) {relations : Relations}
    {message : LogicalMessage} (h : message.IsIgnored) (rest : List WalData) :
    relay parseV2 typeMap ⟨relations, false⟩ (⟨none, message⟩ :: rest) =
      (relay parseV2 typeMap ⟨relations, false⟩ rest).cons false .none := by
  rw [relay, process_ignored hparse rfl h]

/-- An ordinary transaction is relayed in front of what follows it. -/
theorem relay_transaction (hparse : ParsesFaithfully parseV2) {relations : Relations} (xid : ℕ)
    {changes : List Change} (endLSN : LSN)
    (hok : ∀ record ∈ changeRecords typeMap relations changes, record.isOk) {rest : List WalData}
    {trace : Trace}
    (hrest : relay parseV2 typeMap ⟨announce relations changes, false⟩ rest = trace) :
    ∃ records, records.map Except.ok = changeRecords typeMap relations changes ∧
      relay parseV2 typeMap ⟨relations, false⟩
          ((Block.transaction xid changes endLSN).messages.map Prod.fst ++ rest) =
        ⟨(Block.transaction xid changes endLSN).messages.map Prod.snd ++ trace.flags,
          records ++ trace.sent, endLSN :: trace.committed⟩ := by
  -- first the commit behind the changes, then the changes and last the begin in front of them
  have hcommit : relay parseV2 typeMap ⟨announce relations changes, false⟩
      (⟨none, .commit endLSN⟩ :: rest) = trace.cons false (.onCommit endLSN) := by
    rw [relay, process_commit hparse rfl, ← hrest]
  obtain ⟨records, hrecords, htrace⟩ := relay_changes hparse hok hcommit
  refine ⟨records, hrecords, ?_⟩
  have hmessages : (Block.transaction xid changes endLSN).messages.map Prod.fst ++ rest =
      ⟨none, .begin xid⟩ :: (changes.map (fun change => ⟨none, change.message⟩) ++
        ⟨none, .commit endLSN⟩ :: rest) := by
    simp [Block.messages]
  have hflags : (Block.transaction xid changes endLSN).messages.map Prod.snd =
      false :: (List.replicate changes.length false ++ [false]) := by
    simp [Block.messages, Function.comp_def, List.map_const']
  rw [hmessages, relay_ignored hparse rfl, htrace, hflags]
  simp only [Trace.cons, List.cons_append, List.append_assoc, List.nil_append]

/-- Ordinary blocks whose inserts all map to records are relayed in full and in order. -/
theorem relay_ordinary (hparse : ParsesFaithfully parseV2) {relations : Relations}
    {blocks : List Block} (hordinary : ∀ block ∈ blocks, block.IsOrdinary)
    (hok : ∀ record ∈ records typeMap relations blocks, record.2.isOk) {trace : Trace}
    (htrace : relay parseV2 typeMap ⟨relations, false⟩
      ((blocks.flatMap Block.messages).map Prod.fst) = trace) :
    trace.flags = (blocks.flatMap Block.messages).map Prod.snd ∧
      trace.sent.map Except.ok = (records typeMap relations blocks).map Prod.snd ∧
      trace.committed = blocks.filterMap Block.committedLSN := by
  induction blocks generalizing relations trace with
  | nil =>
    subst htrace
    exact ⟨rfl, rfl, rfl⟩
  | cons block blocks ih =>
    have hblock := hordinary block List.mem_cons_self
    have hblocks : ∀ block ∈ blocks, block.IsOrdinary := fun other hother =>
      hordinary other (List.mem_cons_of_mem _ hother)
    rw [List.flatMap_cons, List.map_append] at htrace ⊢
    subst htrace
    cases block with
    | transaction xid changes endLSN =>
      simp only [records, List.mem_append, or_imp, forall_and, List.forall_mem_map] at hok
      obtain ⟨hflags, hsent, hcommitted⟩ := ih hblocks hok.2 rfl
      obtain ⟨sent, hchanges, htrace⟩ := relay_transaction hparse xid endLSN hok.1 rfl
      rw [htrace]
      refine ⟨congrArg (_ ++ ·) hflags, ?_, congrArg (endLSN :: ·) hcommitted⟩
      simp only [records, List.map_append, hsent, hchanges, List.map_map, Function.comp_def,
        List.map_id']
    | chunk xid changes =>
      -- only `StreamStart` and `StreamStop` are left, which `process` has no case for
      obtain rfl : changes = [] := hblock
      obtain ⟨hflags, hsent, hcommitted⟩ := ih hblocks hok rfl
      simp only [Block.messages, List.map_nil, List.cons_append, List.nil_append, List.map_cons]
      rw [relay_ignored hparse rfl, relay_ignored hparse rfl]
      exact ⟨congrArg (false :: false :: ·) hflags, hsent, hcommitted⟩
    | streamCommit xid endLSN => exact hblock.elim
    | streamAbort xid =>
      obtain ⟨hflags, hsent, hcommitted⟩ := ih hblocks hok rfl
      simp only [Block.messages, List.map_nil, List.cons_append, List.nil_append, List.map_cons]
      rw [relay_ignored hparse rfl]
      exact ⟨congrArg (false :: ·) hflags, hsent, hcommitted⟩

/-- Where no chunk carries a message, no message has a prefix. -/
theorem messages_eq_map {block : Block} (h : ∀ xid changes, block = .chunk xid changes →
    changes = []) :
    block.messages.map Prod.fst = (block.messages.map fun p => p.1.message).map (⟨none, ·⟩) := by
  cases block with
  | transaction xid changes endLSN => simp [Block.messages, Function.comp_def]
  | chunk xid changes =>
    obtain rfl := h xid changes rfl
    rfl
  | streamCommit xid endLSN => rfl
  | streamAbort xid => rfl

/-- The ordinary commits of a block are those it commits, unless it ends a streamed transaction. -/
theorem filterMap_commitLSN_messages (block : Block) :
    (block.messages.map fun p => p.1.message).filterMap LogicalMessage.commitLSN =
      if block.isStreamCommit then [] else block.committedLSN.toList := by
  have hchanges : ∀ changes : List Change,
      (changes.map Change.message).filterMap LogicalMessage.commitLSN = [] := by
    intro changes
    refine List.filterMap_eq_nil_iff.mpr fun message hmessage => ?_
    obtain ⟨change, -, rfl⟩ := List.mem_map.mp hmessage
    cases change <;> rfl
  cases block with
  | transaction xid changes endLSN =>
    have hmessages : ((Block.transaction xid changes endLSN).messages.map fun p => p.1.message) =
        .begin xid :: (changes.map Change.message ++ [.commit endLSN]) := by
      simp [Block.messages, Function.comp_def]
    rw [hmessages, List.filterMap_cons_none rfl, List.filterMap_append, hchanges]
    rfl
  | chunk xid changes =>
    have hmessages : ((Block.chunk xid changes).messages.map fun p => p.1.message) =
        .streamStart xid :: (changes.map Change.message ++ [.streamStop]) := by
      simp [Block.messages, Function.comp_def]
    rw [hmessages, List.filterMap_cons_none rfl, List.filterMap_append, hchanges]
    rfl
  | streamCommit xid endLSN => rfl
  | streamAbort xid => rfl

/-- A streamed transaction that commits is one more than the ordinary commits. -/
theorem length_filterMap_commitLSN (blocks : List Block) :
    ((blocks.flatMap fun block => block.messages.map fun p => p.1.message).filterMap
        LogicalMessage.commitLSN).length + blocks.countP Block.isStreamCommit =
      (blocks.filterMap Block.committedLSN).length := by
  induction blocks with
  | nil => rfl
  | cons block blocks ih =>
    rw [List.flatMap_cons, List.filterMap_append, List.length_append, filterMap_commitLSN_messages,
      List.countP_cons]
    cases block with
    | transaction xid changes endLSN =>
      rw [List.filterMap_cons_some (f := Block.committedLSN) rfl, List.length_cons, ← ih]
      simp only [Block.isStreamCommit, Block.committedLSN, Bool.false_eq_true, ↓reduceIte,
        Option.toList_some, List.length_singleton]
      omega
    | streamCommit xid endLSN =>
      rw [List.filterMap_cons_some (f := Block.committedLSN) rfl, List.length_cons, ← ih]
      simp only [Block.isStreamCommit, ↓reduceIte, List.length_nil]
      omega
    | chunk xid changes =>
      rw [List.filterMap_cons_none rfl, ← ih]
      simp [Block.isStreamCommit, Block.committedLSN]
    | streamAbort xid =>
      rw [List.filterMap_cons_none rfl, ← ih]
      simp [Block.isStreamCommit, Block.committedLSN]

/-- Without messages in chunks, all records are those of ordinary transactions. -/
theorem records_ordinary {blocks : List Block} (h : ∀ block ∈ blocks, block.IsOrdinary)
    (relations : Relations) : ∀ record ∈ records typeMap relations blocks, record.1 = none := by
  induction blocks generalizing relations with
  | nil => simp [records]
  | cons block blocks ih =>
    intro record hrecord
    have hblock := h block List.mem_cons_self
    have hblocks : ∀ block ∈ blocks, block.IsOrdinary := fun other hother =>
      h other (List.mem_cons_of_mem _ hother)
    cases block with
    | transaction xid changes endLSN =>
      rw [records, List.mem_append, List.mem_map] at hrecord
      rcases hrecord with ⟨_, -, rfl⟩ | hrecord
      · rfl
      · exact ih hblocks _ record hrecord
    | chunk xid changes =>
      obtain rfl : changes = [] := hblock
      exact ih hblocks _ record hrecord
    | streamCommit xid endLSN => exact hblock.elim
    | streamAbort xid => exact ih hblocks _ record hrecord

/-- Then all of them are records of committed transactions. -/
theorem committedRecords_ordinary {blocks : List Block} (h : ∀ block ∈ blocks, block.IsOrdinary) :
    committedRecords typeMap blocks = (records typeMap ∅ blocks).map Prod.snd := by
  rw [committedRecords, List.filter_eq_self.mpr]
  intro record hrecord
  rw [records_ordinary h ∅ record hrecord]

/-- If every message is parsed with the right flag, no chunk carries a message. -/
theorem RelayedLikeOrdinary.chunk_eq_nil {blocks : List Block}
    (h : RelayedLikeOrdinary parseV2 typeMap blocks) {xid : ℕ} {changes : List Change}
    (hchunk : .chunk xid changes ∈ blocks) : changes = [] := by
  cases changes with
  | nil => rfl
  | cons change changes =>
    -- its message stands inside a chunk, but the relay parses all with the flag unset
    have htrue : true ∈ (blocks.flatMap Block.messages).map Prod.snd :=
      List.mem_map.mpr ⟨(⟨some xid, change.message⟩, true),
        List.mem_flatMap.mpr ⟨_, hchunk, by simp [Block.messages]⟩, rfl⟩
    rw [← h.flags] at htrue
    cases relay_flags true htrue

/-- If the lsn advances for every committed transaction, none of these is streamed. -/
theorem RelayedLikeOrdinary.not_streamCommit (hparse : ParsesFaithfully parseV2)
    {blocks : List Block} (h : RelayedLikeOrdinary parseV2 typeMap blocks) {block : Block}
    (hblock : block ∈ blocks) : block.isStreamCommit = false := by
  -- no chunk carries a message, so that none has a prefix and all are parsed
  have hmessages : (blocks.flatMap Block.messages).map Prod.fst =
      (blocks.flatMap fun block => block.messages.map fun p => p.1.message).map (⟨none, ·⟩) := by
    rw [List.map_flatMap, List.map_flatMap]
    refine List.flatMap_congr fun other hother => messages_eq_map ?_
    rintro xid changes rfl
    exact h.chunk_eq_nil hother
  -- the relay hands on the ordinary commits at most, which leaves no room for a streamed one
  have hle : (relay parseV2 typeMap Shared.init
      ((blocks.flatMap Block.messages).map Prod.fst)).committed.length ≤
      ((blocks.flatMap fun block => block.messages.map fun p => p.1.message).filterMap
        LogicalMessage.commitLSN).length := by
    rw [hmessages]
    exact (relay_committed_sublist hparse rfl).length_le
  rw [h.committed, ← length_filterMap_commitLSN] at hle
  have hcount : blocks.countP Block.isStreamCommit = 0 := by omega
  exact Bool.eq_false_iff.mpr (List.countP_eq_zero.mp hcount block hblock)

end Relay

/-- **Streamed transactions.** The relay treats them like ordinary ones exactly on the sequences in
which there is nothing of them to relay and every insert maps to a record. -/
theorem relayedLikeOrdinary_iff (parseV2 : ParseV2) (typeMap : TypeMap)
    (hparse : ParsesFaithfully parseV2) (blocks : List Block) :
    RelayedLikeOrdinary parseV2 typeMap blocks ↔
      (∀ block ∈ blocks, block.IsOrdinary) ∧
        ∀ record ∈ records typeMap ∅ blocks, record.2.isOk := by
  constructor
  · intro h
    -- the flags rule out the chunks, the lsns the stream commits
    have hordinary : ∀ block ∈ blocks, block.IsOrdinary := by
      intro block hblock
      cases block with
      | transaction xid changes endLSN => trivial
      | chunk xid changes => exact h.chunk_eq_nil hblock
      | streamCommit xid endLSN => cases h.not_streamCommit hparse hblock
      | streamAbort xid => trivial
    refine ⟨hordinary, fun record hrecord => ?_⟩
    -- an insert that does not map would be among the records to send, but is not
    have hsent : record.2 ∈ committedRecords typeMap blocks := by
      rw [committedRecords_ordinary hordinary]
      exact List.mem_map_of_mem hrecord
    obtain ⟨message, -, hmessage⟩ := List.mem_map.mp (h.sent.mem_iff.mpr hsent)
    rw [← hmessage]
    rfl
  · rintro ⟨hordinary, hok⟩
    obtain ⟨hflags, hsent, hcommitted⟩ := relay_ordinary hparse hordinary hok rfl
    refine ⟨hflags, ?_, hcommitted⟩
    rw [committedRecords_ordinary hordinary, ← hsent]
    exact List.Perm.refl _

/-- An ordinary transaction of one row. -/
def ordinaryInsert : List Block := [.transaction 7 [.relation topicRelation, .insert topicInsert] 8]

theorem relayedLikeOrdinary_iff_ordinaryInsert :
    RelayedLikeOrdinary parseStrict (fun _ => none) ordinaryInsert ↔
      (∀ block ∈ ordinaryInsert, block.IsOrdinary) ∧
        ∀ record ∈ records (fun _ => none) ∅ ordinaryInsert, record.2.isOk :=
  relayedLikeOrdinary_iff parseStrict (fun _ => none) parsesFaithfully_parseStrict ordinaryInsert

/-- The same transaction in a chunk, with its commit. -/
def streamedInsert : List Block :=
  [.chunk 7 [.relation topicRelation, .insert topicInsert], .streamCommit 7 8]

/-- Its row is never sent and its end is never handed on. -/
theorem not_relayed_streamedInsert :
    let trace := relay parseStrict (fun _ => none) Shared.init
      ((streamedInsert.flatMap Block.messages).map Prod.fst)
    trace.sent = [] ∧ trace.committed = [] ∧
      ¬RelayedLikeOrdinary parseStrict (fun _ => none) streamedInsert := by
  refine ⟨rfl, rfl, fun h => ?_⟩
  have hcommitted := h.committed
  revert hcommitted
  decide

end Outbox
