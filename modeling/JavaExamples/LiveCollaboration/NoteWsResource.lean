import Mathlib.Logic.Function.Basic
import JavaExamples.Common.Transition

/-!
# The sessions of one note

`NoteWsResource` keeps for every note the set of its sessions and a deque of its sync messages. A
session that opens is added to the set and gets what the deque holds; a sync message is appended to
the deque and sent to the other sessions of the set; the last session that closes drops the deque.
Each of these methods is a sequence of operations on concurrent collections, and each operation is
one step here.

**Parameters.** `S` is the type of sessions, which are told apart by their ids. `M` is the type of
messages, with their `bytes`; two messages with the same bytes may be different.

* `isSyncMessage` — the test on the first byte.
* `Note` — the session set, the update deques, and what has been sent to whom.
* `Phase` — where a session is in its calls. The server runs the calls of one session one after the
  other, so that a session has one phase.
* `act`, `step` — one operation of one session.
* `Moves` — what a step can do.
-/

namespace LiveCollaboration

open Function

/-! ## Messages and deques -/

/-- `SYNC_MESSAGE_TYPE`. -/
def syncMessageType : ℕ := 0

/-- `MAX_STORED_UPDATES`. -/
def maxStoredUpdates : ℕ := 10000

def isSyncMessage : List UInt8 → Bool
  | [] => false
  | messageType :: _ => messageType.toNat == syncMessageType

/-- A `ConcurrentLinkedDeque` that is appended to at its end and polled at its front: whatever was
appended, and how much of it is polled. An element keeps its index. -/
structure UpdateDeque (M : Type*) where
  added : List M
  polled : ℕ

namespace UpdateDeque

variable {M : Type*}

def empty : UpdateDeque M where
  added := []
  polled := 0

def size (updates : UpdateDeque M) : ℕ := updates.added.length - updates.polled

def addLast (updates : UpdateDeque M) (message : M) : UpdateDeque M :=
  { updates with added := updates.added ++ [message] }

def pollFirst (updates : UpdateDeque M) : UpdateDeque M :=
  { updates with polled := updates.polled + 1 }

end UpdateDeque

/-! ## The collections of a note -/

variable {S M : Type*}

/-- What `NOTE_SESSIONS` and `NOTE_UPDATES` hold for the note. A deque that was dropped is still
there for those who have it, so that deques are told apart by the order in which they are created.
`findSessions` creates an empty set where there is none. -/
structure Note (S M : Type*) where
  sessions : List S
  updates : Option ℕ
  deques : ℕ → UpdateDeque M
  created : ℕ
  /-- The messages handed to `sendBinary` of each session. -/
  sent : S → List M

namespace Note

def empty : Note S M where
  sessions := []
  updates := none
  deques := fun _ => .empty
  created := 0
  sent := fun _ => []

/-- `findUpdates`: the deque of the note, created if there is none. -/
def findUpdates (n : Note S M) : ℕ × Note S M :=
  match n.updates with
  | some deque => (deque, n)
  | none => (n.created, { n with updates := some n.created, created := n.created + 1 })

def addLast (n : Note S M) (deque : ℕ) (message : M) : Note S M :=
  { n with deques := update n.deques deque ((n.deques deque).addLast message) }

def pollFirst (n : Note S M) (deque : ℕ) : Note S M :=
  { n with deques := update n.deques deque (n.deques deque).pollFirst }

/-- `NOTE_UPDATES.remove`. -/
def dropUpdates (n : Note S M) : Note S M := { n with updates := none }

@[simp]
theorem findUpdates_sessions (n : Note S M) : n.findUpdates.2.sessions = n.sessions := by
  rw [findUpdates]
  split <;> rfl

@[simp]
theorem findUpdates_deques (n : Note S M) : n.findUpdates.2.deques = n.deques := by
  rw [findUpdates]
  split <;> rfl

@[simp]
theorem findUpdates_sent (n : Note S M) : n.findUpdates.2.sent = n.sent := by
  rw [findUpdates]
  split <;> rfl

/-- The deque that is found is the deque of the note from then on. -/
theorem findUpdates_updates (n : Note S M) : n.findUpdates.2.updates = some n.findUpdates.1 := by
  rw [findUpdates]
  split
  · assumption
  · rfl

theorem findUpdates_updates_of_some {n : Note S M} {deque : ℕ} (h : n.updates = some deque) :
    n.findUpdates.2.updates = some deque := by
  rw [findUpdates, h]
  exact h

theorem addLast_deques_self (n : Note S M) (deque : ℕ) (message : M) :
    (n.addLast deque message).deques deque = (n.deques deque).addLast message := update_self _ _ _

theorem addLast_deques_ne (n : Note S M) {deque other : ℕ} (message : M) (h : other ≠ deque) :
    (n.addLast deque message).deques other = n.deques other := update_of_ne h _ _

/-- Polling forgets nothing of what was added. -/
theorem pollFirst_added (n : Note S M) (deque other : ℕ) :
    ((n.pollFirst deque).deques other).added = (n.deques other).added := by
  show (update n.deques deque (n.deques deque).pollFirst other).added = _
  by_cases hother : other = deque
  · subst hother
    rw [update_self]
    rfl
  · rw [update_of_ne hother]

variable [DecidableEq S]

def addSession (n : Note S M) (session : S) : Note S M :=
  { n with sessions := if session ∈ n.sessions then n.sessions else n.sessions ++ [session] }

def removeSession (n : Note S M) (session : S) : Note S M :=
  { n with sessions := n.sessions.filter (· ≠ session) }

/-- `sendBinaryAsync`. -/
def send (n : Note S M) (session : S) (message : M) : Note S M :=
  { n with sent := update n.sent session (n.sent session ++ [message]) }

theorem mem_sessions_addSession {n : Note S M} {session other : S} :
    other ∈ (n.addSession session).sessions ↔ other = session ∨ other ∈ n.sessions := by
  rw [addSession]
  split
  · next hmem => exact ⟨Or.inr, fun h => h.elim (fun hother => hother ▸ hmem) id⟩
  · rw [List.mem_append, List.mem_singleton, or_comm]

theorem mem_sessions_removeSession {n : Note S M} {session other : S} :
    other ∈ (n.removeSession session).sessions ↔ other ∈ n.sessions ∧ other ≠ session := by
  rw [removeSession, List.mem_filter, decide_eq_true_iff]

theorem mem_sent_send {n : Note S M} {session other : S} {message sent : M} :
    sent ∈ (n.send session message).sent other ↔
      sent ∈ n.sent other ∨ other = session ∧ sent = message := by
  rw [send]
  by_cases hother : other = session
  · subst hother
    simp
  · simp [hother]

end Note

/-! ## Sessions and their steps -/

/-- Where a session is in its calls. -/
inductive Phase (S M : Type*) where
  | new
  /-- `onOpen`: the session is in the set. -/
  | added
  /-- `replayUpdatesTo` has got the deque of the note. -/
  | fetched (deque : ℕ)
  /-- The replay is at index `next`; what stood below `bound` was there when it began. -/
  | replaying (deque next bound : ℕ)
  /-- `onOpen` is over, and the session is in no call. -/
  | ready
  /-- `saveMessage` has found the deque. -/
  | saving (deque : ℕ) (message : M)
  /-- The message is in the deque, whose size is to be tested. -/
  | saved (deque : ℕ) (message : M)
  /-- The deque was found to be too long. -/
  | trimming (deque : ℕ) (message : M)
  /-- `saveMessage` is over. -/
  | stored (message : M)
  /-- `broadcastToOthers` still has to visit `rest`. -/
  | broadcasting (message : M) (rest : List S)
  /-- `onClose`: the session is out of the set. -/
  | leaving
  /-- It has found the set empty. -/
  | dropping
  | closed

/-- `Session.isOpen`: a connection is open until its `onClose`. -/
def Phase.isOpen : Phase S M → Bool
  | .leaving | .dropping | .closed => false
  | _ => true

/-- The operations of the three methods. -/
inductive Action (M : Type*) where
  | addSession
  | getUpdates
  | iterateUpdates
  | replayNext
  | skipPolled
  | endReplay
  | findUpdates (message : M)
  | addLast
  | testSize
  | pollFirst
  | iterateSessions
  | relay (message : M)
  | sendNext
  | endBroadcast
  | removeSession
  | testEmpty
  | dropUpdates

structure State (S M : Type*) where
  note : Note S M
  phase : S → Phase S M

/-- No session has opened yet. -/
def State.initial : State S M where
  note := .empty
  phase := fun _ => .new

variable [DecidableEq S] (bytes : M → List UInt8)

/-- One operation of a session: its next phase, and what the operation leaves behind. -/
def act (s : State S M) (session : S) (action : Action M) : Option (Phase S M × Note S M) :=
  match s.phase session, action with
  -- `onOpen`
  | .new, .addSession => some (.added, s.note.addSession session)
  | .added, .getUpdates =>
    match s.note.updates with
    | some deque => some (.fetched deque, s.note)
    | none => some (.ready, s.note)
  -- the iterator returns every element that is there now and stays, and maybe later ones
  | .fetched deque, .iterateUpdates =>
    let updates := s.note.deques deque
    some (.replaying deque updates.polled updates.added.length, s.note)
  | .replaying deque next bound, .replayNext =>
    match (s.note.deques deque).added[next]? with
    | some message => some (.replaying deque (next + 1) bound, s.note.send session message)
    | none => none
  | .replaying deque next bound, .skipPolled =>
    if next < (s.note.deques deque).polled then some (.replaying deque (next + 1) bound, s.note)
    else none
  | .replaying _ next bound, .endReplay => if bound ≤ next then some (.ready, s.note) else none
  -- `onBinary`
  | .ready, .findUpdates message =>
    if isSyncMessage (bytes message) then
      some (.saving s.note.findUpdates.1 message, s.note.findUpdates.2)
    else none
  | .saving deque message, .addLast => some (.saved deque message, s.note.addLast deque message)
  | .saved deque message, .testSize =>
    if maxStoredUpdates < (s.note.deques deque).size then some (.trimming deque message, s.note)
    else some (.stored message, s.note)
  | .trimming deque message, .pollFirst => some (.saved deque message, s.note.pollFirst deque)
  -- an empty set ends the broadcast like an iteration over nothing
  | .stored message, .iterateSessions => some (.broadcasting message s.note.sessions, s.note)
  -- a message that is not a sync message is only broadcast
  | .ready, .relay message =>
    if isSyncMessage (bytes message) then none
    else some (.broadcasting message s.note.sessions, s.note)
  | .broadcasting message (current :: rest), .sendNext =>
    if (s.phase current).isOpen ∧ current ≠ session then
      some (.broadcasting message rest, s.note.send current message)
    else some (.broadcasting message rest, s.note)
  | .broadcasting _ [], .endBroadcast => some (.ready, s.note)
  -- `onClose`
  | .ready, .removeSession => some (.leaving, s.note.removeSession session)
  | .leaving, .testEmpty =>
    if s.note.sessions = [] then some (.dropping, s.note) else some (.closed, s.note)
  | .dropping, .dropUpdates => some (.closed, s.note.dropUpdates)
  | _, _ => none

/-- One step of one session. -/
def step (s : State S M) : S × Action M → Option (State S M)
  | (session, action) =>
    (act bytes s session action).map fun (phase, note) =>
      { note, phase := update s.phase session phase }

/-! ## What a step can do -/

/-- The moves of a session, one constructor for every way an operation can turn out. -/
inductive Moves (s : State S M) (session : S) : Action M → Phase S M → Note S M → Prop
  | addSession (hphase : s.phase session = .new) :
    Moves s session .addSession .added (s.note.addSession session)
  | getUpdates_some (hphase : s.phase session = .added) {deque : ℕ}
    (hupdates : s.note.updates = some deque) :
    Moves s session .getUpdates (.fetched deque) s.note
  | getUpdates_none (hphase : s.phase session = .added) (hupdates : s.note.updates = none) :
    Moves s session .getUpdates .ready s.note
  | iterateUpdates {deque : ℕ} (hphase : s.phase session = .fetched deque) :
    Moves s session .iterateUpdates (.replaying deque (s.note.deques deque).polled
      (s.note.deques deque).added.length) s.note
  | replayNext {deque next bound : ℕ} {message : M}
    (hphase : s.phase session = .replaying deque next bound)
    (hnext : (s.note.deques deque).added[next]? = some message) :
    Moves s session .replayNext (.replaying deque (next + 1) bound) (s.note.send session message)
  | skipPolled {deque next bound : ℕ} (hphase : s.phase session = .replaying deque next bound)
    (hnext : next < (s.note.deques deque).polled) :
    Moves s session .skipPolled (.replaying deque (next + 1) bound) s.note
  | endReplay {deque next bound : ℕ} (hphase : s.phase session = .replaying deque next bound)
    (hbound : bound ≤ next) :
    Moves s session .endReplay .ready s.note
  | findUpdates (hphase : s.phase session = .ready) {message : M}
    (hsync : isSyncMessage (bytes message)) :
    Moves s session (.findUpdates message) (.saving s.note.findUpdates.1 message)
      s.note.findUpdates.2
  | addLast {deque : ℕ} {message : M} (hphase : s.phase session = .saving deque message) :
    Moves s session .addLast (.saved deque message) (s.note.addLast deque message)
  | testSize_long {deque : ℕ} {message : M} (hphase : s.phase session = .saved deque message)
    (hsize : maxStoredUpdates < (s.note.deques deque).size) :
    Moves s session .testSize (.trimming deque message) s.note
  | testSize_short {deque : ℕ} {message : M} (hphase : s.phase session = .saved deque message) :
    Moves s session .testSize (.stored message) s.note
  | pollFirst {deque : ℕ} {message : M} (hphase : s.phase session = .trimming deque message) :
    Moves s session .pollFirst (.saved deque message) (s.note.pollFirst deque)
  | iterateSessions {message : M} (hphase : s.phase session = .stored message) :
    Moves s session .iterateSessions (.broadcasting message s.note.sessions) s.note
  | relay (hphase : s.phase session = .ready) {message : M}
    (hsync : ¬ isSyncMessage (bytes message)) :
    Moves s session (.relay message) (.broadcasting message s.note.sessions) s.note
  | sendNext {message : M} {current : S} {rest : List S}
    (hphase : s.phase session = .broadcasting message (current :: rest))
    (hopen : (s.phase current).isOpen) (hother : current ≠ session) :
    Moves s session .sendNext (.broadcasting message rest) (s.note.send current message)
  | skipNext {message : M} {current : S} {rest : List S}
    (hphase : s.phase session = .broadcasting message (current :: rest))
    (hskip : (s.phase current).isOpen → current = session) :
    Moves s session .sendNext (.broadcasting message rest) s.note
  | endBroadcast {message : M} (hphase : s.phase session = .broadcasting message []) :
    Moves s session .endBroadcast .ready s.note
  | removeSession (hphase : s.phase session = .ready) :
    Moves s session .removeSession .leaving (s.note.removeSession session)
  | testEmpty_last (hphase : s.phase session = .leaving) (hsessions : s.note.sessions = []) :
    Moves s session .testEmpty .dropping s.note
  | testEmpty (hphase : s.phase session = .leaving) :
    Moves s session .testEmpty .closed s.note
  | dropUpdates (hphase : s.phase session = .dropping) :
    Moves s session .dropUpdates .closed s.note.dropUpdates

variable {bytes} {s s' : State S M} {session : S} {action : Action M}

theorem moves_of_act {phase : Phase S M} {note : Note S M}
    (h : act bytes s session action = some (phase, note)) :
    Moves bytes s session action phase note := by
  unfold act at h
  split at h
  case h_1 hphase => cases h; exact .addSession hphase
  case h_2 hphase =>
    split at h
    · next hupdates => cases h; exact .getUpdates_some hphase hupdates
    · next hupdates => cases h; exact .getUpdates_none hphase hupdates
  case h_3 hphase => cases h; exact .iterateUpdates hphase
  case h_4 hphase =>
    split at h
    · next hnext => cases h; exact .replayNext hphase hnext
    · cases h
  case h_5 hphase =>
    split at h
    · next hnext => cases h; exact .skipPolled hphase hnext
    · cases h
  case h_6 hphase =>
    split at h
    · next hbound => cases h; exact .endReplay hphase hbound
    · cases h
  case h_7 hphase =>
    split at h
    · next hsync => cases h; exact .findUpdates hphase hsync
    · cases h
  case h_8 hphase => cases h; exact .addLast hphase
  case h_9 hphase =>
    split at h
    · next hsize => cases h; exact .testSize_long hphase hsize
    · cases h; exact .testSize_short hphase
  case h_10 hphase => cases h; exact .pollFirst hphase
  case h_11 hphase => cases h; exact .iterateSessions hphase
  case h_12 hphase =>
    split at h
    · cases h
    · next hsync => cases h; exact .relay hphase hsync
  case h_13 hphase =>
    split at h
    · next hopen => cases h; exact .sendNext hphase hopen.1 hopen.2
    · next hskip =>
      cases h
      exact .skipNext hphase fun hopen => not_not.mp fun hother => hskip ⟨hopen, hother⟩
  case h_14 hphase => cases h; exact .endBroadcast hphase
  case h_15 hphase => cases h; exact .removeSession hphase
  case h_16 hphase =>
    split at h
    · next hsessions => cases h; exact .testEmpty_last hphase hsessions
    · cases h; exact .testEmpty hphase
  case h_17 hphase => cases h; exact .dropUpdates hphase
  case h_18 => cases h

/-- A step is a move of its session. -/
theorem step_cases (h : step bytes s (session, action) = some s') :
    ∃ phase note, Moves bytes s session action phase note ∧
      s' = { note, phase := update s.phase session phase } := by
  obtain ⟨⟨phase, note⟩, hact, rfl⟩ := Option.map_eq_some_iff.mp h
  exact ⟨phase, note, moves_of_act hact, rfl⟩

end LiveCollaboration
