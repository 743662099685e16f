import Mathlib.Data.List.DropRight
import Mathlib.Data.List.Nodup
import JavaExamples.LiveCollaboration.NoteWsResource

/-!
# The handlers of all notes, one at a time

`NoteWsResource` as a whole: the sessions and the updates of every note, and the handlers `onOpen`,
`onBinary` and `onClose`, each of which runs to its end before the next one begins. A session is
open from its `onOpen` to its `onClose`, on one note.

**Parameters.** `N` is the type of note ids; sessions and messages are as in `NoteWsResource`.

* `onOpen_sent`, `onBinary_sent` — what a handler hands to `sendBinary`.
* `Tracks` — the state that belongs to the events so far.
* `tracks_of_run` — every run leads to a state that tracks its events.
* `AgreesOn` — two states that are the same for one note.

**Statement.** A message is relayed to the other open sessions of its note, a session that joins
gets the last `maxStoredUpdates` sync messages since the note last had no session, and a note is not
concerned by what happens on another (`relaysExactly`).
-/

namespace LiveCollaboration.NoteWsResource

open Function Transition

/-! ## The handlers -/

/-- `NOTE_SESSIONS` and `NOTE_UPDATES`, and the messages handed to `sendBinary` of each session. -/
@[ext]
structure Server (N S M : Type*) where
  noteSessions : N → Option (List S)
  noteUpdates : N → Option (List M)
  sent : S → List M

variable {N S M : Type*}

namespace Server

def empty : Server N S M where
  noteSessions := fun _ => none
  noteUpdates := fun _ => none
  sent := fun _ => []

def sessions (server : Server N S M) (noteId : N) : List S := (server.noteSessions noteId).getD []

def updates (server : Server N S M) (noteId : N) : List M := (server.noteUpdates noteId).getD []

end Server

variable [DecidableEq N] [DecidableEq S]

/-- The sessions of the note; an empty set is created if there is none. -/
def findSessions (noteId : N) (server : Server N S M) : List S × Server N S M :=
  match server.noteSessions noteId with
  | some sessions => (sessions, server)
  | none => ([], { server with noteSessions := update server.noteSessions noteId (some []) })

/-- The deque of the note; an empty one is created if there is none. -/
def findUpdates (noteId : N) (server : Server N S M) : List M × Server N S M :=
  match server.noteUpdates noteId with
  | some updates => (updates, server)
  | none => ([], { server with noteUpdates := update server.noteUpdates noteId (some []) })

def sendBinaryAsync (session : S) (payload : M) (server : Server N S M) : Server N S M :=
  { server with sent := update server.sent session (server.sent session ++ [payload]) }

def addSession (session : S) (noteId : N) (server : Server N S M) : Server N S M :=
  let (sessions, server) := findSessions noteId server
  let sessions := if session ∈ sessions then sessions else sessions ++ [session]
  { server with noteSessions := update server.noteSessions noteId (some sessions) }

def replayUpdatesTo (session : S) (noteId : N) (server : Server N S M) : Server N S M :=
  match server.noteUpdates noteId with
  | none => server
  | some updates =>
    if updates.isEmpty then server
    else updates.foldl (fun server update => sendBinaryAsync session update server) server

def onOpen (session : S) (noteId : N) (server : Server N S M) : Server N S M :=
  replayUpdatesTo session noteId (addSession session noteId server)

/-- The loop of `saveMessage`: `pollFirst` as long as the deque is too long. -/
def trim : List M → List M
  | [] => []
  | update :: updates =>
    if maxStoredUpdates < (update :: updates).length then trim updates else update :: updates

variable (bytes : M → List UInt8)

def saveMessage (noteId : N) (message : M) (server : Server N S M) : Server N S M :=
  if (bytes message).isEmpty then server
  else
    let (deque, server) := findUpdates noteId server
    { server with
      noteUpdates := update server.noteUpdates noteId (some (trim (deque ++ [message]))) }

/-- `isOpen` is `Session.isOpen`. -/
def broadcastToOthers (isOpen : S → Bool) (noteId : N) (sender : S) (message : M)
    (server : Server N S M) : Server N S M :=
  let (sessions, server) := findSessions noteId server
  if sessions.isEmpty then server
  else
    sessions.foldl (fun server current =>
      if !isOpen current then server
      else if current = sender then server
      else sendBinaryAsync current message server) server

def onBinary (isOpen : S → Bool) (session : S) (message : M) (noteId : N)
    (server : Server N S M) : Server N S M :=
  let server :=
    if isSyncMessage (bytes message) then saveMessage bytes noteId message server else server
  broadcastToOthers isOpen noteId session message server

def onClose (session : S) (noteId : N) (server : Server N S M) : Server N S M :=
  let (sessions, server) := findSessions noteId server
  let sessions := sessions.filter (· ≠ session)
  let server := { server with noteSessions := update server.noteSessions noteId (some sessions) }
  if sessions.isEmpty then { server with noteUpdates := update server.noteUpdates noteId none }
  else server

/-! ## What a handler does -/

section Handlers

variable {bytes} {server : Server N S M} {noteId : N} {session : S} {message : M}
  {isOpen : S → Bool}

omit [DecidableEq S] in
theorem findSessions_eq (noteId : N) (server : Server N S M) :
    findSessions noteId server = (server.sessions noteId, { server with
      noteSessions := update server.noteSessions noteId (some (server.sessions noteId)) }) := by
  rw [findSessions, Server.sessions]
  split
  · next sessions hsessions =>
    rw [hsessions, Option.getD_some, ← hsessions, update_eq_self]
  · next hsessions => rw [hsessions, Option.getD_none]

omit [DecidableEq S] in
theorem findUpdates_eq (noteId : N) (server : Server N S M) :
    findUpdates noteId server = (server.updates noteId, { server with
      noteUpdates := update server.noteUpdates noteId (some (server.updates noteId)) }) := by
  rw [findUpdates, Server.updates]
  split
  · next updates hupdates => rw [hupdates, Option.getD_some, ← hupdates, update_eq_self]
  · next hupdates => rw [hupdates, Option.getD_none]

theorem addSession_eq (session : S) (noteId : N) (server : Server N S M) :
    addSession session noteId server = { server with
      noteSessions := update server.noteSessions noteId
        (some (if session ∈ server.sessions noteId then server.sessions noteId
          else server.sessions noteId ++ [session])) } := by
  rw [addSession, findSessions_eq]
  simp only [update_idem]

omit [DecidableEq N] in
/-- A list of messages is sent in its order. -/
theorem foldl_sendBinaryAsync (session : S) (updates : List M) (server : Server N S M) :
    updates.foldl (fun server update => sendBinaryAsync session update server) server =
      { server with sent := update server.sent session (server.sent session ++ updates) } := by
  induction updates generalizing server with
  | nil => simp
  | cons first rest ih =>
    rw [List.foldl_cons, ih, sendBinaryAsync]
    simp

omit [DecidableEq N] in
theorem replayUpdatesTo_eq (session : S) (noteId : N) (server : Server N S M) :
    replayUpdatesTo session noteId server = { server with
      sent := update server.sent session (server.sent session ++ server.updates noteId) } := by
  rw [replayUpdatesTo, Server.updates]
  split
  · next hnone => simp [hnone]
  · next updates hsome =>
    rw [hsome, Option.getD_some]
    cases updates with
    | nil => simp
    | cons first rest => exact foldl_sendBinaryAsync session (first :: rest) server

theorem onOpen_eq (session : S) (noteId : N) (server : Server N S M) :
    onOpen session noteId server = { server with
      noteSessions := update server.noteSessions noteId
        (some (if session ∈ server.sessions noteId then server.sessions noteId
          else server.sessions noteId ++ [session]))
      sent := update server.sent session (server.sent session ++ server.updates noteId) } := by
  rw [onOpen, replayUpdatesTo_eq, addSession_eq]
  rfl

/-- The loop keeps the last updates. -/
theorem trim_eq_rtake (updates : List M) : trim updates = updates.rtake maxStoredUpdates := by
  induction updates with
  | nil => rw [trim, List.rtake_nil]
  | cons first rest ih =>
    rw [trim]
    split_ifs with hlong
    · rw [List.length_cons] at hlong
      rw [ih, List.rtake, List.rtake, List.length_cons, Nat.succ_sub (by omega),
        List.drop_succ_cons]
    · rw [List.rtake, Nat.sub_eq_zero_of_le (Nat.not_lt.mp hlong), List.drop_zero]

omit [DecidableEq N] in
/-- One turn of the loop of a broadcast. -/
theorem broadcast_turn (current sender : S) (server : Server N S M) :
    (if !isOpen current then server else if current = sender then server
      else sendBinaryAsync current message server) = { server with
        sent := fun other => server.sent other ++
          if other = current ∧ isOpen current ∧ current ≠ sender then [message] else [] } := by
  by_cases hreached : isOpen current ∧ current ≠ sender
  · obtain ⟨hopen, hne⟩ := hreached
    rw [if_neg (by simp [hopen]), if_neg hne, sendBinaryAsync]
    congr 1
    ext1 other
    by_cases hother : other = current
    · simp [hother, hopen, hne]
    · simp [hother]
  · have hsilent : (if !isOpen current then server else if current = sender then server
        else sendBinaryAsync current message server) = server := by
      by_cases hopen : isOpen current = true
      · simp [not_not.mp fun hne => hreached ⟨hopen, hne⟩]
      · simp [hopen]
    rw [hsilent]
    simp [hreached]

omit [DecidableEq N] in
/-- A broadcast reaches each session of a list once, if it is open and not the sender. -/
theorem sent_foldl_broadcast {sender : S} {sessions : List S} (hnodup : sessions.Nodup)
    (server : Server N S M) :
    sessions.foldl (fun server current =>
      if !isOpen current then server
      else if current = sender then server
      else sendBinaryAsync current message server) server = { server with
        sent := fun other => server.sent other ++
          if other ∈ sessions ∧ isOpen other ∧ other ≠ sender then [message] else [] } := by
  induction sessions generalizing server with
  | nil => simp
  | cons first rest ih =>
    obtain ⟨hfirst, hrest⟩ := List.nodup_cons.mp hnodup
    rw [List.foldl_cons, ih hrest, broadcast_turn]
    congr 1
    ext1 other
    -- the first session is none of the others, so that it gets the message now or not at all
    by_cases hother : other = first
    · simp [hother, hfirst]
    · simp [hother]

theorem isEmpty_of_isSyncMessage (h : isSyncMessage (bytes message)) :
    (bytes message).isEmpty = false := by
  cases hbytes : bytes message with
  | nil =>
    rw [hbytes] at h
    cases h
  | cons => rfl

omit [DecidableEq S] in
theorem saveMessage_eq (h : isSyncMessage (bytes message)) (noteId : N) (server : Server N S M) :
    saveMessage bytes noteId message server = { server with
      noteUpdates := update server.noteUpdates noteId
        (some ((server.updates noteId ++ [message]).rtake maxStoredUpdates)) } := by
  rw [saveMessage, isEmpty_of_isSyncMessage h, findUpdates_eq]
  simp [trim_eq_rtake]

theorem broadcastToOthers_eq {sender : S} (hnodup : (server.sessions noteId).Nodup) :
    broadcastToOthers isOpen noteId sender message server = { server with
      noteSessions := update server.noteSessions noteId (some (server.sessions noteId))
      sent := fun other => server.sent other ++
        if other ∈ server.sessions noteId ∧ isOpen other ∧ other ≠ sender then [message]
        else [] } := by
  rw [broadcastToOthers, findSessions_eq]
  dsimp only
  split_ifs with hempty
  · rw [List.isEmpty_iff.mp hempty]
    simp
  · rw [sent_foldl_broadcast hnodup]

theorem onBinary_eq (hnodup : (server.sessions noteId).Nodup) :
    onBinary bytes isOpen session message noteId server =
      { noteSessions := update server.noteSessions noteId (some (server.sessions noteId))
        noteUpdates :=
          if isSyncMessage (bytes message) then update server.noteUpdates noteId
            (some ((server.updates noteId ++ [message]).rtake maxStoredUpdates))
          else server.noteUpdates
        sent := fun other => server.sent other ++
          if other ∈ server.sessions noteId ∧ isOpen other ∧ other ≠ session then [message]
          else [] } := by
  rw [onBinary]
  by_cases hsync : isSyncMessage (bytes message) = true
  · rw [if_pos hsync, if_pos hsync, saveMessage_eq hsync]
    exact broadcastToOthers_eq hnodup
  · rw [if_neg hsync, if_neg hsync, broadcastToOthers_eq hnodup]

theorem onClose_eq (session : S) (noteId : N) (server : Server N S M) :
    onClose session noteId server = { server with
      noteSessions := update server.noteSessions noteId
        (some ((server.sessions noteId).filter (· ≠ session)))
      noteUpdates :=
        if (server.sessions noteId).filter (· ≠ session) = [] then
          update server.noteUpdates noteId none
        else server.noteUpdates } := by
  rw [onClose, findSessions_eq]
  dsimp only
  rw [update_idem]
  split_ifs with hempty hnil hnil
  · rfl
  · exact absurd (List.isEmpty_iff.mp hempty) hnil
  · exact absurd (List.isEmpty_iff.mpr hnil) hempty
  · rfl

/-! ### What it leaves of a note -/

omit [DecidableEq S] in
theorem getD_update {α : Type*} (entries : N → Option (List α)) (entry : Option (List α))
    (other : N) : (update entries noteId entry other).getD [] =
      if other = noteId then entry.getD [] else (entries other).getD [] := by
  rw [update_apply]
  split_ifs <;> rfl

theorem sessions_onOpen (other : N) : (onOpen session noteId server).sessions other =
    if other = noteId then
      if session ∈ server.sessions noteId then server.sessions noteId
      else server.sessions noteId ++ [session]
    else server.sessions other := by
  rw [onOpen_eq]
  exact getD_update _ _ _

theorem mem_sessions_onOpen {current : S} {other : N} :
    current ∈ (onOpen session noteId server).sessions other ↔
      current ∈ server.sessions other ∨ current = session ∧ other = noteId := by
  rw [sessions_onOpen]
  by_cases hnote : other = noteId
  · subst hnote
    by_cases hmem : session ∈ server.sessions other
    · simpa [hmem] using fun hsession => hsession ▸ hmem
    · simp [hmem]
  · simp [hnote]

theorem nodup_sessions_onOpen {other : N} (hnodup : (server.sessions other).Nodup) :
    ((onOpen session noteId server).sessions other).Nodup := by
  rw [sessions_onOpen]
  split_ifs with hnote hmem
  · exact hnote ▸ hnodup
  · rw [← List.concat_eq_append]
    exact (hnote ▸ hnodup).concat hmem
  · exact hnodup

theorem updates_onOpen (other : N) :
    (onOpen session noteId server).updates other = server.updates other := by
  rw [onOpen_eq]
  rfl

theorem sessions_onBinary (hnodup : (server.sessions noteId).Nodup) (other : N) :
    (onBinary bytes isOpen session message noteId server).sessions other =
      server.sessions other := by
  rw [onBinary_eq hnodup]
  refine (getD_update _ _ _).trans ?_
  split_ifs with hother
  · rw [hother, Option.getD_some]
  · rfl

theorem updates_onBinary (hnodup : (server.sessions noteId).Nodup) (other : N) :
    (onBinary bytes isOpen session message noteId server).updates other =
      if other = noteId ∧ isSyncMessage (bytes message) then
        (server.updates noteId ++ [message]).rtake maxStoredUpdates
      else server.updates other := by
  rw [onBinary_eq hnodup, Server.updates]
  dsimp only
  by_cases hsync : isSyncMessage (bytes message) = true
  · rw [if_pos hsync, getD_update, Option.getD_some]
    simp only [hsync, and_true, Server.updates]
  · rw [if_neg hsync, if_neg fun h => hsync h.2]
    rfl

theorem sessions_onClose (other : N) : (onClose session noteId server).sessions other =
    if other = noteId then (server.sessions noteId).filter (· ≠ session)
    else server.sessions other := by
  rw [onClose_eq]
  exact getD_update _ _ _

theorem mem_sessions_onClose {current : S} {other : N} :
    current ∈ (onClose session noteId server).sessions other ↔
      current ∈ server.sessions other ∧ ¬(current = session ∧ other = noteId) := by
  rw [sessions_onClose]
  by_cases hnote : other = noteId
  · simp [hnote]
  · simp [hnote]

theorem nodup_sessions_onClose {other : N} (hnodup : (server.sessions other).Nodup) :
    ((onClose session noteId server).sessions other).Nodup := by
  rw [sessions_onClose]
  split_ifs with hnote
  · exact (hnote ▸ hnodup).filter _
  · exact hnodup

theorem updates_onClose (other : N) : (onClose session noteId server).updates other =
    if other = noteId ∧ (server.sessions noteId).filter (· ≠ session) = [] then []
    else server.updates other := by
  rw [onClose_eq, Server.updates]
  dsimp only
  by_cases hempty : (server.sessions noteId).filter (· ≠ session) = []
  · rw [if_pos hempty, getD_update]
    simp only [hempty, and_true]
    rfl
  · rw [if_neg hempty, if_neg fun h => hempty h.2]
    rfl

theorem sent_onOpen (other : S) : (onOpen session noteId server).sent other =
    server.sent other ++ if other = session then server.updates noteId else [] := by
  rw [onOpen_eq]
  by_cases hother : other = session
  · simp [hother]
  · simp [hother]

theorem sent_onBinary (hnodup : (server.sessions noteId).Nodup) (other : S) :
    (onBinary bytes isOpen session message noteId server).sent other = server.sent other ++
      if other ∈ server.sessions noteId ∧ isOpen other ∧ other ≠ session then [message]
      else [] := by
  rw [onBinary_eq hnodup]

theorem sent_onClose (other : S) :
    (onClose session noteId server).sent other = server.sent other := by
  rw [onClose_eq]

end Handlers

/-! ## Runs -/

/-- A session before its `onOpen`, between it and its `onClose`, and after that. -/
inductive Connection (N : Type*) where
  | new
  | opened (noteId : N)
  | closed (noteId : N)
deriving DecidableEq

namespace Connection

/-- `Session.isOpen`. -/
def isOpen : Connection N → Bool
  | opened _ => true
  | _ => false

/-- The note that the session has been opened on. -/
def noteId? : Connection N → Option N
  | new => none
  | opened noteId | closed noteId => some noteId

end Connection

@[ext]
structure Endpoint (N S M : Type*) where
  server : Server N S M
  connection : S → Connection N

def Endpoint.initial : Endpoint N S M where
  server := .empty
  connection := fun _ => .new

/-- A call of a handler. -/
inductive Event (N S M : Type*) where
  | onOpen (session : S) (noteId : N)
  | onBinary (session : S) (message : M) (noteId : N)
  | onClose (session : S) (noteId : N)

def Event.noteId : Event N S M → N
  | onOpen _ noteId | onBinary _ _ noteId | onClose _ noteId => noteId

/-- A session opens once, on one note, and sends and closes on that note while it is open. -/
def handle (e : Endpoint N S M) : Event N S M → Option (Endpoint N S M)
  | .onOpen session noteId =>
    if e.connection session = .new then
      some { server := onOpen session noteId e.server
             connection := update e.connection session (.opened noteId) }
    else none
  | .onBinary session message noteId =>
    if e.connection session = .opened noteId then
      let isOpen other := (e.connection other).isOpen
      some { e with server := onBinary bytes isOpen session message noteId e.server }
    else none
  | .onClose session noteId =>
    if e.connection session = .opened noteId then
      some { server := onClose session noteId e.server
             connection := update e.connection session (.closed noteId) }
    else none

/-! ## Histories -/

/-- The session has opened on the note and not closed. -/
def OpenOn (events : List (Event N S M)) (noteId : N) (session : S) : Prop :=
  .onOpen session noteId ∈ events ∧ .onClose session noteId ∉ events

/-- The note has no session. -/
def Deserted (events : List (Event N S M)) (noteId : N) : Prop :=
  ∀ session, ¬OpenOn events noteId session

/-- Between the two parts of a history the note had no session for the last time. -/
structure LastDeserted (noteId : N) (before after : List (Event N S M)) : Prop where
  deserted : Deserted before noteId
  since : ∀ mid, mid ≠ [] → mid <+: after → ¬Deserted (before ++ mid) noteId

/-- The sync messages that are sent on the note. -/
def syncMessages (noteId : N) (events : List (Event N S M)) : List M :=
  events.filterMap fun
    | .onBinary _ message other =>
      if other = noteId ∧ isSyncMessage (bytes message) then some message else none
    | _ => none

/-- The sessions of the notes are those that the events have opened and not closed. -/
structure Registers (events : List (Event N S M)) (e : Endpoint N S M) : Prop where
  onOpen : ∀ session noteId,
    .onOpen session noteId ∈ events ↔ (e.connection session).noteId? = some noteId
  onClose : ∀ session noteId,
    .onClose session noteId ∈ events ↔ e.connection session = .closed noteId
  nodup : ∀ noteId, (e.server.sessions noteId).Nodup
  sessions : ∀ noteId session,
    session ∈ e.server.sessions noteId ↔ e.connection session = .opened noteId
  dropped : ∀ noteId, e.server.sessions noteId = [] → e.server.updates noteId = []
  unsent : ∀ session, e.connection session = .new → e.server.sent session = []

/-- And their updates are the last sync messages since they last had no session. -/
structure Tracks (events : List (Event N S M)) (e : Endpoint N S M) : Prop
    extends Registers events e where
  updates : ∀ noteId, ∃ before after, events = before ++ after ∧ LastDeserted noteId before after ∧
    e.server.updates noteId = (syncMessages bytes noteId after).rtake maxStoredUpdates

section Runs

variable {bytes} {e e' : Endpoint N S M} {event : Event N S M} {events : List (Event N S M)}
  {noteId other : N} {session : S} {message : M}

theorem handle_onOpen : handle bytes e (.onOpen session noteId) = some e' ↔
    e.connection session = .new ∧
      { server := NoteWsResource.onOpen session noteId e.server
        connection := update e.connection session (.opened noteId) } = e' := by
  rw [handle, Option.ite_none_right_eq_some, Option.some.injEq]

theorem handle_onBinary : handle bytes e (.onBinary session message noteId) = some e' ↔
    e.connection session = .opened noteId ∧
      { e with
        server := onBinary bytes (fun other => (e.connection other).isOpen) session message noteId
          e.server } = e' := by
  rw [handle, Option.ite_none_right_eq_some, Option.some.injEq]

theorem handle_onClose : handle bytes e (.onClose session noteId) = some e' ↔
    e.connection session = .opened noteId ∧
      { server := NoteWsResource.onClose session noteId e.server
        connection := update e.connection session (.closed noteId) } = e' := by
  rw [handle, Option.ite_none_right_eq_some, Option.some.injEq]

omit [DecidableEq N] [DecidableEq S] in
/-- The sessions in a set are those that have opened and not closed. -/
theorem Registers.openOn_iff (h : Registers events e) :
    OpenOn events noteId session ↔ session ∈ e.server.sessions noteId := by
  rw [OpenOn, h.onOpen, h.onClose, h.sessions]
  cases e.connection session <;> simp [Connection.noteId?]

omit [DecidableEq N] [DecidableEq S] in
theorem Registers.deserted_iff (h : Registers events e) :
    Deserted events noteId ↔ e.server.sessions noteId = [] := by
  rw [Deserted, List.eq_nil_iff_forall_not_mem]
  exact forall_congr' fun session => not_congr h.openOn_iff

theorem Registers.handle_opened (h : Registers events e)
    (hstep : handle bytes e (.onOpen session noteId) = some e') :
    Registers (events ++ [.onOpen session noteId]) e' := by
  obtain ⟨hnew, rfl⟩ := handle_onOpen.mp hstep
  refine ⟨fun other otherId => ?_, fun other otherId => ?_, fun otherId => ?_,
    fun otherId other => ?_, fun otherId hempty => ?_, fun other hother => ?_⟩
  · rw [List.mem_append, h.onOpen]
    by_cases hother : other = session
    · subst hother
      simp [hnew, Connection.noteId?, eq_comm]
    · simp [hother]
  · rw [List.mem_append, h.onClose]
    by_cases hother : other = session
    · subst hother
      simp [hnew]
    · simp [hother]
  · exact nodup_sessions_onOpen (h.nodup otherId)
  · rw [mem_sessions_onOpen, h.sessions]
    by_cases hother : other = session
    · subst hother
      simp [hnew, eq_comm]
    · simp [hother]
  · rw [updates_onOpen]
    refine h.dropped otherId (List.eq_nil_iff_forall_not_mem.mpr fun current hcurrent => ?_)
    have hmem : current ∈ (NoteWsResource.onOpen session noteId e.server).sessions otherId :=
      mem_sessions_onOpen.mpr (Or.inl hcurrent)
    exact List.eq_nil_iff_forall_not_mem.mp hempty current hmem
  · have hne : other ≠ session := by
      rintro rfl
      simp at hother
    dsimp only at hother
    rw [update_of_ne hne] at hother
    rw [sent_onOpen, if_neg hne, h.unsent other hother, List.append_nil]

theorem Registers.handle_sent (h : Registers events e)
    (hstep : handle bytes e (.onBinary session message noteId) = some e') :
    Registers (events ++ [.onBinary session message noteId]) e' := by
  obtain ⟨hopen, rfl⟩ := handle_onBinary.mp hstep
  have hnodup := h.nodup noteId
  refine ⟨fun other otherId => ?_, fun other otherId => ?_, fun otherId => ?_,
    fun otherId other => ?_, fun otherId hempty => ?_, fun other hother => ?_⟩
  · simpa using h.onOpen other otherId
  · simpa using h.onClose other otherId
  · rw [sessions_onBinary hnodup]
    exact h.nodup otherId
  · rw [sessions_onBinary hnodup]
    exact h.sessions otherId other
  · rw [sessions_onBinary hnodup] at hempty
    rw [updates_onBinary hnodup, if_neg, h.dropped otherId hempty]
    -- the sender is a session of its note
    rintro ⟨rfl, -⟩
    rw [← h.sessions, hempty] at hopen
    cases hopen
  · have hmem : other ∉ e.server.sessions noteId := by
      rw [h.sessions, hother]
      nofun
    rw [sent_onBinary hnodup, if_neg fun hboth => hmem hboth.1, h.unsent other hother,
      List.append_nil]

theorem Registers.handle_closed (h : Registers events e)
    (hstep : handle bytes e (.onClose session noteId) = some e') :
    Registers (events ++ [.onClose session noteId]) e' := by
  obtain ⟨hopen, rfl⟩ := handle_onClose.mp hstep
  refine ⟨fun other otherId => ?_, fun other otherId => ?_, fun otherId => ?_,
    fun otherId other => ?_, fun otherId hempty => ?_, fun other hother => ?_⟩
  · rw [List.mem_append, h.onOpen]
    by_cases hother : other = session
    · subst hother
      simp [hopen, Connection.noteId?]
    · simp [hother]
  · rw [List.mem_append, h.onClose]
    by_cases hother : other = session
    · subst hother
      simp [hopen, eq_comm]
    · simp [hother]
  · exact nodup_sessions_onClose (h.nodup otherId)
  · rw [mem_sessions_onClose, h.sessions]
    by_cases hother : other = session
    · subst hother
      simp [hopen, eq_comm]
    · simp [hother]
  · rw [sessions_onClose] at hempty
    rw [updates_onClose]
    split_ifs at hempty with hnote
    · exact if_pos ⟨hnote, hempty⟩
    · rw [if_neg fun hboth => hnote hboth.1, h.dropped otherId hempty]
  · have hne : other ≠ session := by
      rintro rfl
      simp at hother
    dsimp only at hother
    rw [update_of_ne hne] at hother
    rw [sent_onClose, h.unsent other hother]

theorem Registers.handle (h : Registers events e) (hstep : handle bytes e event = some e') :
    Registers (events ++ [event]) e' := by
  cases event with
  | onOpen session noteId => exact h.handle_opened hstep
  | onBinary session message noteId => exact h.handle_sent hstep
  | onClose session noteId => exact h.handle_closed hstep

omit [DecidableEq N] [DecidableEq S] in
theorem Deserted.lastDeserted (h : Deserted events noteId) : LastDeserted noteId events [] where
  deserted := h
  since _ hmid hprefix := absurd (List.prefix_nil.mp hprefix) hmid

omit [DecidableEq N] [DecidableEq S] in
theorem LastDeserted.snoc {before after : List (Event N S M)} (h : LastDeserted noteId before after)
    (hnext : ¬Deserted (before ++ (after ++ [event])) noteId) :
    LastDeserted noteId before (after ++ [event]) where
  deserted := h.deserted
  since mid hmid hprefix := by
    rcases List.prefix_concat_iff.mp hprefix with rfl | hprefix
    · exact hnext
    · exact h.since mid hmid hprefix

/-- Of the last elements the last ones are the same again. -/
theorem rtake_rtake_append {α : Type*} (xs ys : List α) (n : ℕ) :
    (xs.rtake n ++ ys).rtake n = (xs ++ ys).rtake n := by
  simp only [List.rtake, List.length_append, List.length_drop]
  rcases Nat.le_total xs.length n with hle | hle
  · rw [Nat.sub_eq_zero_of_le hle, List.drop_zero, Nat.sub_zero]
  · have hdrop : xs.drop (xs.length - n) ++ ys = (xs ++ ys).drop (xs.length - n) :=
      (List.drop_append_of_le_length (Nat.sub_le _ _)).symm
    rw [hdrop, List.drop_drop]
    congr 1
    omega

/-- As long as the note has a session, a handler adds the sync messages of its event. -/
theorem updates_handle (h : Registers events e) (hstep : handle bytes e event = some e')
    (hsessions : e'.server.sessions noteId ≠ []) {stored : List M}
    (hstored : e.server.updates noteId = stored.rtake maxStoredUpdates) :
    e'.server.updates noteId =
      (stored ++ syncMessages bytes noteId [event]).rtake maxStoredUpdates := by
  cases event with
  | onOpen session opened =>
    obtain ⟨-, rfl⟩ := handle_onOpen.mp hstep
    rw [updates_onOpen, hstored]
    simp [syncMessages]
  | onBinary session message sentOn =>
    obtain ⟨-, rfl⟩ := handle_onBinary.mp hstep
    rw [updates_onBinary (h.nodup sentOn)]
    split_ifs with hsync
    · obtain ⟨rfl, hsync⟩ := hsync
      rw [hstored, rtake_rtake_append]
      simp [syncMessages, hsync]
    · have hnone : syncMessages bytes noteId [.onBinary session message sentOn] = [] := by
        simp only [syncMessages, List.filterMap_cons, List.filterMap_nil]
        rw [if_neg fun hboth => hsync ⟨hboth.1.symm, hboth.2⟩]
      rw [hnone, hstored, List.append_nil]
  | onClose session closed =>
    obtain ⟨-, rfl⟩ := handle_onClose.mp hstep
    rw [sessions_onClose] at hsessions
    rw [updates_onClose, if_neg, hstored]
    · simp [syncMessages]
    · rintro ⟨rfl, hempty⟩
      rw [if_pos rfl] at hsessions
      exact hsessions hempty

theorem Tracks.handle (h : Tracks bytes events e) (hstep : handle bytes e event = some e') :
    Tracks bytes (events ++ [event]) e' := by
  have hregisters := h.toRegisters.handle hstep
  refine ⟨hregisters, fun noteId => ?_⟩
  -- either the note has lost its last session just now, or nothing has begun anew
  by_cases hdeserted : Deserted (events ++ [event]) noteId
  · refine ⟨events ++ [event], [], (List.append_nil _).symm, hdeserted.lastDeserted, ?_⟩
    rw [hregisters.dropped noteId (hregisters.deserted_iff.mp hdeserted)]
    exact (List.rtake_nil _).symm
  · obtain ⟨before, after, rfl, hlast, hstored⟩ := h.updates noteId
    rw [List.append_assoc] at hdeserted ⊢
    refine ⟨before, after ++ [event], rfl, hlast.snoc hdeserted, ?_⟩
    rw [← List.append_assoc, hregisters.deserted_iff] at hdeserted
    rw [updates_handle h.toRegisters hstep hdeserted hstored, syncMessages, syncMessages,
      syncMessages, List.filterMap_append]

omit [DecidableEq S] in
theorem tracks_initial : Tracks bytes [] (Endpoint.initial : Endpoint N S M) where
  onOpen session noteId := by simp [Endpoint.initial, Connection.noteId?]
  onClose session noteId := by simp [Endpoint.initial]
  nodup noteId := List.nodup_nil
  sessions noteId session := by simp [Endpoint.initial, Server.empty, Server.sessions]
  dropped noteId _ := rfl
  unsent session _ := rfl
  updates noteId := by
    have hdeserted : Deserted ([] : List (Event N S M)) noteId := fun session hopen => by
      cases hopen.1
    exact ⟨[], [], rfl, hdeserted.lastDeserted, (List.rtake_nil _).symm⟩

/-- Every run leads to a state that tracks its events. -/
theorem tracks_of_run (hrun : run (handle bytes) Endpoint.initial events = some e) :
    Tracks bytes events e := by
  induction events using List.reverseRecOn generalizing e with
  | nil =>
    obtain rfl := Option.some.inj hrun
    exact tracks_initial
  | append_singleton events event ih =>
    obtain ⟨before, hbefore, hstep⟩ := (run_snoc_eq_some _).mp hrun
    exact (ih hbefore).handle hstep

end Runs

/-! ## One note -/

/-- What there is of a note, as if there were no other one. -/
def Endpoint.on (noteId : N) (e : Endpoint N S M) : Endpoint N S M where
  server :=
    { noteSessions := update (fun _ => none) noteId (e.server.noteSessions noteId)
      noteUpdates := update (fun _ => none) noteId (e.server.noteUpdates noteId)
      sent := fun session =>
        if (e.connection session).noteId? = some noteId then e.server.sent session else [] }
  connection := fun session =>
    if (e.connection session).noteId? = some noteId then e.connection session else .new

section OneNote

variable {bytes} {e e' : Endpoint N S M} {event : Event N S M} {events : List (Event N S M)}
  {noteId : N} {session : S} {message : M}

omit [DecidableEq S] in
@[simp]
theorem sessions_on : (e.on noteId).server.sessions noteId = e.server.sessions noteId := by
  simp [Endpoint.on, Server.sessions]

omit [DecidableEq S] in
@[simp]
theorem updates_on : (e.on noteId).server.updates noteId = e.server.updates noteId := by
  simp [Endpoint.on, Server.updates]

omit [DecidableEq S] in
theorem connection_on (h : (e.connection session).noteId? = some noteId) :
    (e.on noteId).connection session = e.connection session := if_pos h

omit [DecidableEq S] in
theorem connection_on_of_ne (h : (e.connection session).noteId? ≠ some noteId) :
    (e.on noteId).connection session = .new := if_neg h

/-- What is seen of a note, after one session has changed. -/
theorem connection_on_update (noteId : N) (connection : S → Connection N) (session : S)
    (c : Connection N) :
    (fun other => if (update connection session c other).noteId? = some noteId then
        update connection session c other else .new) =
      update (fun other => if (connection other).noteId? = some noteId then connection other
        else .new) session (if c.noteId? = some noteId then c else .new) := by
  ext1 other
  by_cases hother : other = session
  · simp [hother]
  · simp [update_of_ne hother]

theorem handle_on_onOpen (he : Registers events e)
    (hstep : handle bytes e (.onOpen session noteId) = some e') :
    handle bytes (e.on noteId) (.onOpen session noteId) = some (e'.on noteId) := by
  obtain ⟨hnew, rfl⟩ := handle_onOpen.mp hstep
  refine handle_onOpen.mpr ⟨connection_on_of_ne (by simp [hnew, Connection.noteId?]), ?_⟩
  rw [onOpen_eq, onOpen_eq, sessions_on, updates_on]
  ext : 1
  · ext : 1
    · simp [Endpoint.on]
    · rfl
    · funext other
      by_cases hother : other = session
      · subst hother
        simp [Endpoint.on, Connection.noteId?, hnew, he.unsent other hnew]
      · simp [Endpoint.on, update_of_ne hother]
  · refine Eq.symm ((connection_on_update noteId e.connection session _).trans ?_)
    exact congrArg (update _ session) (if_pos rfl)

theorem handle_on_onBinary (he : Registers events e)
    (hstep : handle bytes e (.onBinary session message noteId) = some e') :
    handle bytes (e.on noteId) (.onBinary session message noteId) = some (e'.on noteId) := by
  obtain ⟨hopen, rfl⟩ := handle_onBinary.mp hstep
  have hon : (e.connection session).noteId? = some noteId := by
    rw [hopen]
    rfl
  refine handle_onBinary.mpr ⟨(connection_on hon).trans hopen, ?_⟩
  have hnodup := he.nodup noteId
  rw [onBinary_eq hnodup, onBinary_eq (by rwa [sessions_on]), sessions_on, updates_on]
  ext : 1
  · ext : 1
    · simp [Endpoint.on]
    · dsimp only
      by_cases hsync : isSyncMessage (bytes message) = true
      · simp [hsync, Endpoint.on]
      · simp [hsync, Endpoint.on]
    · funext other
      by_cases hother : (e.connection other).noteId? = some noteId
      · simp [Endpoint.on, hother]
      · have hmem : other ∉ e.server.sessions noteId := fun hmem => hother (by
          rw [(he.sessions noteId other).mp hmem]
          rfl)
        simp [Endpoint.on, hother, hmem]
  · rfl

theorem handle_on_onClose
    (hstep : handle bytes e (.onClose session noteId) = some e') :
    handle bytes (e.on noteId) (.onClose session noteId) = some (e'.on noteId) := by
  obtain ⟨hopen, rfl⟩ := handle_onClose.mp hstep
  have hon : (e.connection session).noteId? = some noteId := by
    rw [hopen]
    rfl
  refine handle_onClose.mpr ⟨(connection_on hon).trans hopen, ?_⟩
  rw [onClose_eq, onClose_eq, sessions_on]
  ext : 1
  · ext : 1
    · simp [Endpoint.on]
    · dsimp only [Endpoint.on]
      split_ifs
      · simp
      · rfl
    · funext other
      by_cases hother : other = session
      · subst hother
        simp [Endpoint.on, Connection.noteId?, hopen]
      · simp [Endpoint.on, update_of_ne hother]
  · refine Eq.symm ((connection_on_update noteId e.connection session _).trans ?_)
    exact congrArg (update _ session) (if_pos rfl)

/-- A handler works on the note of its event as if there were no other one. -/
theorem handle_on (he : Registers events e) (hstep : handle bytes e event = some e')
    (hnote : event.noteId = noteId) : handle bytes (e.on noteId) event = some (e'.on noteId) := by
  subst hnote
  cases event with
  | onOpen session noteId => exact handle_on_onOpen he hstep
  | onBinary session message noteId => exact handle_on_onBinary he hstep
  | onClose session noteId => exact handle_on_onClose hstep

theorem on_onOpen_of_ne {opened : N}
    (hstep : handle bytes e (.onOpen session opened) = some e') (hne : opened ≠ noteId) :
    e'.on noteId = e.on noteId := by
  obtain ⟨hnew, rfl⟩ := handle_onOpen.mp hstep
  rw [onOpen_eq]
  ext : 1
  · ext : 1
    · simp [Endpoint.on, update_of_ne hne.symm]
    · rfl
    · funext other
      by_cases hother : other = session
      · subst hother
        simp [Endpoint.on, Connection.noteId?, hnew, hne]
      · simp [Endpoint.on, update_of_ne hother]
  · refine (connection_on_update noteId e.connection session _).trans ?_
    rw [if_neg (by simp [Connection.noteId?, hne])]
    exact update_eq_self_iff.mpr (connection_on_of_ne (by simp [hnew, Connection.noteId?])).symm

theorem on_onBinary_of_ne {sentOn : N} (he : Registers events e)
    (hstep : handle bytes e (.onBinary session message sentOn) = some e') (hne : sentOn ≠ noteId) :
    e'.on noteId = e.on noteId := by
  obtain ⟨-, rfl⟩ := handle_onBinary.mp hstep
  rw [onBinary_eq (he.nodup sentOn)]
  ext : 1
  · ext : 1
    · simp [Endpoint.on, update_of_ne hne.symm]
    · dsimp only [Endpoint.on]
      split_ifs
      · rw [update_of_ne hne.symm]
      · rfl
    · funext other
      by_cases hother : (e.connection other).noteId? = some noteId
      · have hmem : other ∉ e.server.sessions sentOn := fun hmem => hne (by
          rw [(he.sessions sentOn other).mp hmem] at hother
          exact Option.some.inj hother)
        simp [Endpoint.on, hother, hmem]
      · simp [Endpoint.on, hother]
  · rfl

theorem on_onClose_of_ne {closed : N}
    (hstep : handle bytes e (.onClose session closed) = some e') (hne : closed ≠ noteId) :
    e'.on noteId = e.on noteId := by
  obtain ⟨hopen, rfl⟩ := handle_onClose.mp hstep
  rw [onClose_eq]
  ext : 1
  · ext : 1
    · simp [Endpoint.on, update_of_ne hne.symm]
    · dsimp only [Endpoint.on]
      split_ifs
      · rw [update_of_ne hne.symm]
      · rfl
    · funext other
      by_cases hother : other = session
      · subst hother
        simp [Endpoint.on, Connection.noteId?, hopen, hne]
      · simp [Endpoint.on, update_of_ne hother]
  · refine (connection_on_update noteId e.connection session _).trans ?_
    rw [if_neg (by simp [Connection.noteId?, hne])]
    exact update_eq_self_iff.mpr
      (connection_on_of_ne (by simp [hopen, Connection.noteId?, hne])).symm

/-- Other notes are left alone. -/
theorem on_handle_ne (he : Registers events e) (hstep : handle bytes e event = some e')
    (hnote : event.noteId ≠ noteId) : e'.on noteId = e.on noteId := by
  cases event with
  | onOpen session opened => exact on_onOpen_of_ne hstep hnote
  | onBinary session message sentOn => exact on_onBinary_of_ne he hstep hnote
  | onClose session closed => exact on_onClose_of_ne hstep hnote

/-- The events on a note alone lead to what there is of the note. -/
theorem run_on (hrun : run (handle bytes) Endpoint.initial events = some e) (noteId : N) :
    run (handle bytes) Endpoint.initial (events.filter (·.noteId = noteId)) =
      some (e.on noteId) := by
  induction events using List.reverseRecOn generalizing e with
  | nil =>
    obtain rfl := Option.some.inj hrun
    refine congrArg some ?_
    ext : 1
    · ext : 1
      · exact (update_eq_self noteId _).symm
      · exact (update_eq_self noteId _).symm
      · rfl
    · rfl
  | append_singleton events event ih =>
    obtain ⟨before, hbefore, hstep⟩ := (run_snoc_eq_some _).mp hrun
    have hregisters := (tracks_of_run hbefore).toRegisters
    rw [List.filter_append]
    by_cases hnote : event.noteId = noteId
    · have hfilter : [event].filter (·.noteId = noteId) = [event] := by simp [hnote]
      rw [hfilter]
      exact (run_snoc_eq_some _).mpr ⟨_, ih hbefore, handle_on hregisters hstep hnote⟩
    · have hfilter : [event].filter (·.noteId = noteId) = [] := by simp [hnote]
      rw [hfilter, List.append_nil, on_handle_ne hregisters hstep hnote]
      exact ih hbefore

end OneNote

/-! ## What is relayed -/

/-- After any run: a message is handed once to each other open session of its note, and to nobody
else; a session that joins is handed the last sync messages since the note last had no session, and
nobody else anything; a session that closes brings nobody anything. What there is of a note is what
the events on it alone lead to. -/
theorem relaysExactly {bytes : M → List UInt8} {events : List (Event N S M)} {e : Endpoint N S M}
    (hrun : run (handle bytes) Endpoint.initial events = some e) :
    (∀ sender message noteId e', handle bytes e (.onBinary sender message noteId) = some e' →
      ∀ session,
        (OpenOn events noteId session ∧ session ≠ sender →
          e'.server.sent session = e.server.sent session ++ [message]) ∧
        (¬(OpenOn events noteId session ∧ session ≠ sender) →
          e'.server.sent session = e.server.sent session)) ∧
    (∀ session noteId e', handle bytes e (.onOpen session noteId) = some e' →
      (∃ before after, events = before ++ after ∧ LastDeserted noteId before after ∧
        e'.server.sent session = (syncMessages bytes noteId after).rtake maxStoredUpdates) ∧
      ∀ other ≠ session, e'.server.sent other = e.server.sent other) ∧
    (∀ session noteId e', handle bytes e (.onClose session noteId) = some e' →
      e'.server.sent = e.server.sent) ∧
    ∀ noteId, run (handle bytes) Endpoint.initial (events.filter (·.noteId = noteId)) =
      some (e.on noteId) := by
  have htracks := tracks_of_run hrun
  have hregisters := htracks.toRegisters
  refine ⟨fun sender message noteId e' hstep session => ?_, fun session noteId e' hstep => ?_,
    fun session noteId e' hstep => ?_, run_on hrun⟩
  · obtain ⟨-, rfl⟩ := handle_onBinary.mp hstep
    dsimp only
    rw [sent_onBinary (hregisters.nodup noteId), hregisters.openOn_iff]
    -- the sessions in the set are open
    have hopen : session ∈ e.server.sessions noteId → (e.connection session).isOpen :=
      fun hmem => by
      rw [(hregisters.sessions noteId session).mp hmem]
      rfl
    refine ⟨fun hother => ?_, fun hnot => ?_⟩
    · rw [if_pos ⟨hother.1, hopen hother.1, hother.2⟩]
    · rw [if_neg fun hall => hnot ⟨hall.1, hall.2.2⟩, List.append_nil]
  · obtain ⟨hnew, rfl⟩ := handle_onOpen.mp hstep
    dsimp only
    obtain ⟨before, after, hevents, hlast, hstored⟩ := htracks.updates noteId
    refine ⟨⟨before, after, hevents, hlast, ?_⟩, fun other hother => ?_⟩
    · rw [sent_onOpen, if_pos rfl, hregisters.unsent session hnew, hstored, List.nil_append]
    · rw [sent_onOpen, if_neg hother, List.append_nil]
  · obtain ⟨-, rfl⟩ := handle_onClose.mp hstep
    exact funext sent_onClose

/-- A note that is deserted once and joined again, where one of two sessions leaves; and a session
on another note. -/
def rejoined : List (Event ℕ ℕ (List UInt8)) :=
  [.onOpen 0 7, .onBinary 0 [0, 9] 7, .onClose 0 7, .onOpen 1 7, .onBinary 1 [0, 1] 7, .onOpen 2 8,
    .onOpen 3 7, .onBinary 3 [1, 4] 7, .onBinary 3 [0, 2] 7, .onOpen 4 7, .onClose 3 7]

/-- A message of session 1 reaches session 4 alone; a session that joins is handed the sync messages
since the note was deserted; closing session 4 brings nobody anything; and of the other note there
is what its only event leads to. -/
theorem relaysExactly_rejoined : ∃ e relayed joined closed,
    run (handle id) Endpoint.initial rejoined = some e ∧
    (handle id e (.onBinary 1 [0, 5] 7) = some relayed ∧
      relayed.server.sent 4 = e.server.sent 4 ++ [[0, 5]] ∧
      ∀ session ≠ 4, relayed.server.sent session = e.server.sent session) ∧
    (handle id e (.onOpen 5 7) = some joined ∧
      (∃ before after, rejoined = before ++ after ∧ LastDeserted 7 before after ∧
        joined.server.sent 5 = (syncMessages id 7 after).rtake maxStoredUpdates) ∧
      joined.server.sent 5 = [[0, 1], [0, 2]] ∧
      ∀ other ≠ 5, joined.server.sent other = e.server.sent other) ∧
    (handle id e (.onClose 4 7) = some closed ∧ closed.server.sent = e.server.sent) ∧
    run (handle id) Endpoint.initial [.onOpen 2 8] = some (e.on 8) := by
  have hrun : run (handle id) Endpoint.initial rejoined = some _ := rfl
  obtain ⟨hrelays, hjoins, hcloses, hon⟩ := relaysExactly hrun
  refine ⟨_, _, _, _, hrun, ⟨rfl, ?_, ?_⟩, ⟨rfl, ?_, rfl, ?_⟩, ⟨rfl, ?_⟩, ?_⟩
  · apply (hrelays 1 [0, 5] 7 _ rfl 4).1
    simp [OpenOn, rejoined]
  · intro session hsession
    apply (hrelays 1 [0, 5] 7 _ rfl session).2
    -- sessions 0 and 3 are closed, and only 1 and 4 are open on the note besides
    rintro ⟨⟨hopened, hclosed⟩, hother⟩
    simp [rejoined] at hopened hclosed
    omega
  · exact (hjoins 5 7 _ rfl).1
  · exact (hjoins 5 7 _ rfl).2
  · exact hcloses 4 7 _ rfl
  · exact hon 8

end LiveCollaboration.NoteWsResource
