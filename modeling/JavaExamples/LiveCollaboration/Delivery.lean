import Mathlib.Data.List.Basic
import JavaExamples.LiveCollaboration.NoteWsResource

/-!
# Delivery of the updates of a note

A session that joins is added to the set before it reads the deque, and a sync message is in the
deque before the set is read. Either the session is in the set when the broadcast begins, or it
reads the deque after the message was appended. What can go wrong is the deque itself: a session
that closes and finds the set empty drops whatever deque the note has by then.

* `FreshFind` — while a message looks for its deque, nobody is about to drop one.
* `Reached` — a session has been sent the update, or its replay will come to it.
* `Carried` — what is known of the message that a session is saving or broadcasting.
* `Kept` — what is known of an accepted message as long as the note has a session.

**Statement.** If every step of a run is a `FreshFind` and the deque is never trimmed, then no
accepted update is lost (`noUpdateLost_of_freshFind`). A message that comes while somebody is about
to drop the deque can be lost for all who join later (`not_noUpdateLost`).
-/

namespace LiveCollaboration

open Function

variable {S M : Type*}

/-! ## Phases -/

/-- The session is in the set. -/
def Phase.Registered : Phase S M → Prop
  | .new | .leaving | .dropping | .closed => False
  | _ => True

/-- `onOpen` is over. -/
def Phase.Opened : Phase S M → Prop
  | .new | .added | .fetched _ | .replaying _ _ _ => False
  | _ => True

/-- The replay of the session is going to come to the update, which is in the deque. -/
def Phase.WillReplay (note : Note S M) (deque : ℕ) (message : M) : Phase S M → Prop
  | .new | .added => True
  | .fetched other => other = deque
  | .replaying other next bound => other = deque ∧
      ∃ i, next ≤ i ∧ i < bound ∧ (note.deques deque).added[i]? = some message
  | _ => False

/-! ## States -/

/-- Nobody is about to drop the deque. -/
def NobodyDropping (s : State S M) : Prop := ∀ session, s.phase session ≠ .dropping

/-- The message is in the deque of the note. -/
def Stored (s : State S M) (deque : ℕ) (message : M) : Prop :=
  s.note.updates = some deque ∧ message ∈ (s.note.deques deque).added

def Reached (s : State S M) (deque : ℕ) (message : M) (session : S) : Prop :=
  message ∈ s.note.sent session ∨ (s.phase session).WillReplay s.note deque message

/-- The set holds the sessions between `addSession` and `removeSession`. -/
def Registration (s : State S M) : Prop :=
  ∀ session, session ∈ s.note.sessions ↔ (s.phase session).Registered

/-- No deque has been trimmed, or is about to be. -/
structure Untrimmed (s : State S M) : Prop where
  polled : ∀ deque, (s.note.deques deque).polled = 0
  phase : ∀ session deque message, s.phase session ≠ .trimming deque message

/-- No deque is longer than it may be. -/
def Roomy (s : State S M) : Prop :=
  ∀ deque, (s.note.deques deque).added.length ≤ maxStoredUpdates

/-- When a message looks for its deque, nobody is about to drop one. -/
def FreshFind (s : State S M) : S × Action M → Prop
  | (_, .findUpdates _) => NobodyDropping s
  | _ => True

/-! ## What a move keeps -/

variable [DecidableEq S] {bytes : M → List UInt8} {s s' : State S M} {session other : S}
  {action : Action M} {phase : Phase S M} {note : Note S M} {deque : ℕ} {message : M}

/-- What was sent stays sent. -/
theorem Moves.mem_sent (h : Moves bytes s session action phase note)
    (hsent : message ∈ s.note.sent other) : message ∈ note.sent other := by
  cases h with
  | replayNext => exact Note.mem_sent_send.mpr (Or.inl hsent)
  | sendNext => exact Note.mem_sent_send.mpr (Or.inl hsent)
  | findUpdates =>
    rw [Note.findUpdates_sent]
    exact hsent
  | _ => exact hsent

/-- A deque only grows. -/
theorem Moves.added_prefix (h : Moves bytes s session action phase note) (deque : ℕ) :
    (s.note.deques deque).added <+: (note.deques deque).added := by
  cases h with
  | @addLast found added hphase =>
    by_cases hdeque : deque = found
    · subst hdeque
      rw [Note.addLast_deques_self]
      exact List.prefix_append _ _
    · rw [Note.addLast_deques_ne _ _ hdeque]
  | pollFirst => rw [Note.pollFirst_added]
  | findUpdates => rw [Note.findUpdates_deques]
  | _ => exact List.prefix_rfl

/-- The note keeps its deque, unless somebody was about to drop it. -/
theorem Moves.updates_eq (h : Moves bytes s session action phase note) (hcalm : NobodyDropping s)
    (hupdates : s.note.updates = some deque) : note.updates = some deque := by
  cases h with
  | dropUpdates hphase => exact absurd hphase (hcalm session)
  | findUpdates => exact Note.findUpdates_updates_of_some hupdates
  | _ => exact hupdates

/-- Other sessions stay where they are in the set. -/
theorem Moves.mem_sessions_of_ne (h : Moves bytes s session action phase note)
    (hother : other ≠ session) : other ∈ note.sessions ↔ other ∈ s.note.sessions := by
  cases h with
  | addSession => exact Note.mem_sessions_addSession.trans (or_iff_right hother)
  | removeSession => exact Note.mem_sessions_removeSession.trans (and_iff_left hother)
  | findUpdates => rw [Note.findUpdates_sessions]
  | _ => exact Iff.rfl

/-- The session itself is in the set exactly in the phases in which it has to be. -/
theorem Moves.mem_sessions_self (h : Moves bytes s session action phase note)
    (hregistered : session ∈ s.note.sessions ↔ (s.phase session).Registered) :
    session ∈ note.sessions ↔ phase.Registered := by
  cases h with
  | addSession =>
    refine iff_of_true ?_ trivial
    exact Note.mem_sessions_addSession.mpr (Or.inl rfl)
  | removeSession =>
    refine iff_of_false ?_ id
    exact fun hmem => (Note.mem_sessions_removeSession.mp hmem).2 rfl
  | findUpdates hphase =>
    rw [Note.findUpdates_sessions, hregistered, hphase]
    rfl
  -- the other operations leave the set and whether the session is to be in it as they were
  | _ hphase =>
    rw [hphase] at hregistered
    exact hregistered

theorem Registration.preserved (h : Registration s)
    (hstep : step bytes s (session, action) = some s') : Registration s' := by
  obtain ⟨phase, note, hmoves, rfl⟩ := step_cases hstep
  intro other
  show other ∈ note.sessions ↔ (update s.phase session phase other).Registered
  by_cases hother : other = session
  · subst hother
    rw [update_self]
    exact hmoves.mem_sessions_self (h _)
  · rw [update_of_ne hother, hmoves.mem_sessions_of_ne hother]
    exact h other

/-- While no deque is too long, none is trimmed. -/
theorem Untrimmed.preserved (h : Untrimmed s) (hroom : Roomy s)
    (hstep : step bytes s (session, action) = some s') : Untrimmed s' := by
  obtain ⟨phase, note, hmoves, rfl⟩ := step_cases hstep
  have hpolled : ∀ deque, (note.deques deque).polled = 0 := by
    intro deque
    cases hmoves with
    | @addLast found added hphase =>
      by_cases hdeque : deque = found
      · subst hdeque
        rw [Note.addLast_deques_self]
        exact h.polled deque
      · rw [Note.addLast_deques_ne _ _ hdeque]
        exact h.polled deque
    | pollFirst hphase => exact absurd hphase (h.phase _ _ _)
    | findUpdates =>
      rw [Note.findUpdates_deques]
      exact h.polled deque
    | _ => exact h.polled deque
  have hphase : ∀ deque message, phase ≠ .trimming deque message := by
    intro deque message
    cases hmoves with
    | @testSize_long found _ _ hsize =>
      -- the size test fails only for a deque that is too long
      rw [UpdateDeque.size] at hsize
      have := hroom found
      omega
    | _ => nofun
  refine ⟨hpolled, fun other deque message => ?_⟩
  show update s.phase session phase other ≠ _
  by_cases hother : other = session
  · subst hother
    rw [update_self]
    exact hphase deque message
  · rw [update_of_ne hother]
    exact h.phase other deque message

/-! ## What a calm note keeps -/

/-- As long as a session is in the set, nobody comes to find it empty. -/
theorem NobodyDropping.preserved (hcalm : NobodyDropping s) (hsessions : s.note.sessions ≠ [])
    (hstep : step bytes s (session, action) = some s') : NobodyDropping s' := by
  obtain ⟨phase, note, hmoves, rfl⟩ := step_cases hstep
  intro other
  show update s.phase session phase other ≠ .dropping
  by_cases hother : other = session
  · subst hother
    rw [update_self]
    cases hmoves with
    | testEmpty_last _ hempty => exact absurd hempty hsessions
    | _ => nofun
  · rw [update_of_ne hother]
    exact hcalm other

theorem Stored.preserved (h : Stored s deque message) (hcalm : NobodyDropping s)
    (hstep : step bytes s (session, action) = some s') : Stored s' deque message := by
  obtain ⟨phase, note, hmoves, rfl⟩ := step_cases hstep
  exact ⟨hmoves.updates_eq hcalm h.1, (hmoves.added_prefix deque).subset h.2⟩

/-- A session that has closed does not open again. -/
theorem isOpen_of_step (hstep : step bytes s (session, action) = some s')
    (h : (s'.phase other).isOpen) : (s.phase other).isOpen := by
  obtain ⟨phase, note, hmoves, rfl⟩ := step_cases hstep
  by_cases hother : other = session
  · subst hother
    have hopen : phase.isOpen := by
      rw [← update_self other phase s.phase]
      exact h
    cases hmoves with
    | testEmpty_last => cases hopen
    | testEmpty => cases hopen
    | dropUpdates => cases hopen
    | _ hphase =>
      rw [hphase]
      rfl
  · rw [← update_of_ne hother phase s.phase]
    exact h

/-- A replay that is going to come to the update does so, or has come to it. -/
theorem Moves.reached_self (h : Moves bytes s session action phase note) (htrim : Untrimmed s)
    (hstored : Stored s deque message)
    (hreplay : (s.phase session).WillReplay s.note deque message) :
    message ∈ note.sent session ∨ phase.WillReplay note deque message := by
  obtain ⟨hupdates, hmem⟩ := hstored
  cases h with
  | addSession => exact Or.inr trivial
  | getUpdates_some hphase hfound => exact Or.inr (Option.some.inj (hfound.symm.trans hupdates))
  | getUpdates_none hphase hfound => cases hfound.symm.trans hupdates
  | iterateUpdates hphase =>
    rw [hphase] at hreplay
    obtain rfl : _ = deque := hreplay
    -- the iteration begins at the front, and the update is in the deque
    obtain ⟨i, hi⟩ := List.mem_iff_getElem?.mp hmem
    obtain ⟨hlt, -⟩ := List.getElem?_eq_some_iff.mp hi
    refine Or.inr ⟨rfl, i, ?_, hlt, hi⟩
    rw [htrim.polled]
    exact Nat.zero_le i
  | replayNext hphase hnext =>
    rw [hphase] at hreplay
    obtain ⟨rfl, i, hle, hlt, hi⟩ := hreplay
    rcases Nat.eq_or_lt_of_le hle with rfl | hlater
    · obtain rfl := Option.some.inj (hi.symm.trans hnext)
      exact Or.inl (Note.mem_sent_send.mpr (Or.inr ⟨rfl, rfl⟩))
    · exact Or.inr ⟨rfl, i, hlater, hlt, hi⟩
  | skipPolled hphase hnext =>
    rw [htrim.polled] at hnext
    cases hnext
  | endReplay hphase hbound =>
    rw [hphase] at hreplay
    obtain ⟨-, i, hle, hlt, -⟩ := hreplay
    omega
  | _ hphase =>
    rw [hphase] at hreplay
    exact hreplay.elim

omit [DecidableEq S] in
/-- The moves of the other sessions take nothing from a replay. -/
theorem Phase.WillReplay.mono {p : Phase S M} (h : p.WillReplay s.note deque message)
    (hadded : (s.note.deques deque).added <+: (note.deques deque).added) :
    p.WillReplay note deque message := by
  cases p with
  | replaying other next bound =>
    obtain ⟨rfl, i, hle, hlt, hi⟩ := h
    obtain ⟨later, hlater⟩ := hadded
    refine ⟨rfl, i, hle, hlt, ?_⟩
    rw [← hlater, List.getElem?_append_left (List.getElem?_eq_some_iff.mp hi).1]
    exact hi
  | _ => exact h

theorem Reached.preserved (h : Reached s deque message other) (htrim : Untrimmed s)
    (hstored : Stored s deque message)
    (hstep : step bytes s (session, action) = some s') : Reached s' deque message other := by
  obtain ⟨phase, note, hmoves, rfl⟩ := step_cases hstep
  show message ∈ note.sent other ∨
    (update s.phase session phase other).WillReplay note deque message
  rcases h with hsent | hreplay
  · exact Or.inl (hmoves.mem_sent hsent)
  · by_cases hother : other = session
    · subst hother
      rw [update_self]
      exact hmoves.reached_self htrim hstored hreplay
    · rw [update_of_ne hother]
      exact Or.inr (hreplay.mono (hmoves.added_prefix deque))

/-! ## The message of a session -/

/-- What a session that is saving or broadcasting a sync message knows, by its phase: nobody is
about to drop the deque, from the time of the append the message is in it, and from the beginning of
the broadcast the sessions that are neither to be visited nor gone are reached. -/
def Carried (bytes : M → List UInt8) (s : State S M) (session : S) : Phase S M → Prop
  | .saving deque _ => NobodyDropping s ∧ s.note.updates = some deque
  | .saved deque message | .trimming deque message => NobodyDropping s ∧ Stored s deque message
  | .stored message => NobodyDropping s ∧ ∃ deque, Stored s deque message
  | .broadcasting message rest => isSyncMessage (bytes message) →
    NobodyDropping s ∧ ∃ deque, Stored s deque message ∧
      ∀ other ≠ session, other ∈ rest ∨ ¬ (s.phase other).isOpen ∨ Reached s deque message other
  | _ => True

structure Consistent (bytes : M → List UInt8) (s : State S M) : Prop where
  registration : Registration s
  untrimmed : Untrimmed s
  carried : ∀ session, Carried bytes s session (s.phase session)

/-- What is still to be visited, gone or reached remains so. -/
theorem covered_step (htrim : Untrimmed s) (hstored : Stored s deque message)
    (hstep : step bytes s (session, action) = some s')
    (h : ¬ (s.phase other).isOpen ∨ Reached s deque message other) :
    ¬ (s'.phase other).isOpen ∨ Reached s' deque message other := by
  rcases h with hgone | hreached
  · exact Or.inl fun hopen => hgone (isOpen_of_step hstep hopen)
  · exact Or.inr (hreached.preserved htrim hstored hstep)

/-- The steps of the others take nothing from what a session knows. -/
theorem Carried.mono {p : Phase S M} (h : Carried bytes s other p) (htrim : Untrimmed s)
    (hsessions : s.note.sessions ≠ []) (hstep : step bytes s (session, action) = some s') :
    Carried bytes s' other p := by
  cases p with
  | saving deque message =>
    obtain ⟨hcalm, hupdates⟩ := h
    obtain ⟨phase, note, hmoves, rfl⟩ := step_cases hstep
    exact ⟨hcalm.preserved hsessions hstep, hmoves.updates_eq hcalm hupdates⟩
  | saved deque message =>
    obtain ⟨hcalm, hstored⟩ := h
    exact ⟨hcalm.preserved hsessions hstep, hstored.preserved hcalm hstep⟩
  | trimming deque message =>
    obtain ⟨hcalm, hstored⟩ := h
    exact ⟨hcalm.preserved hsessions hstep, hstored.preserved hcalm hstep⟩
  | stored message =>
    obtain ⟨hcalm, deque, hstored⟩ := h
    exact ⟨hcalm.preserved hsessions hstep, deque, hstored.preserved hcalm hstep⟩
  | broadcasting message rest =>
    intro hsync
    obtain ⟨hcalm, deque, hstored, hcovered⟩ := h hsync
    refine ⟨hcalm.preserved hsessions hstep, deque, hstored.preserved hcalm hstep, fun x hx => ?_⟩
    exact (hcovered x hx).imp id (covered_step htrim hstored hstep)
  | _ => trivial

/-- A broadcast goes on behind the next session, once that is gone or reached. -/
theorem Carried.visited {message : M} {next : S} {rest : List S}
    (h : Carried bytes s session (.broadcasting message (next :: rest))) (htrim : Untrimmed s)
    (hsessions : s.note.sessions ≠ []) (hstep : step bytes s (session, action) = some s')
    (hnext : ∀ deque, next ≠ session → ¬ (s'.phase next).isOpen ∨ Reached s' deque message next) :
    Carried bytes s' session (.broadcasting message rest) := by
  intro hsync
  obtain ⟨hcalm, deque, hstored, hcovered⟩ := h hsync
  refine ⟨hcalm.preserved hsessions hstep, deque, hstored.preserved hcalm hstep, ?_⟩
  intro other hother
  rcases hcovered other hother with hvisit | hcovered
  · rcases List.mem_cons.mp hvisit with rfl | hrest
    · exact Or.inr (hnext deque hother)
    · exact Or.inl hrest
  · exact Or.inr (covered_step htrim hstored hstep hcovered)

omit [DecidableEq S] in
/-- A session that is not in the set has not come yet, or it is gone. -/
theorem covered_of_registration (h : Registration s) (hother : other ∉ s.note.sessions) :
    ¬ (s.phase other).isOpen ∨ Reached s deque message other := by
  rw [h other] at hother
  rw [Reached]
  cases hphase : s.phase other with
  | new => exact Or.inr (Or.inr trivial)
  | leaving => exact Or.inl nofun
  | dropping => exact Or.inl nofun
  | closed => exact Or.inl nofun
  | _ => exact absurd (hphase ▸ trivial) hother

/-- What the session that moves knows afterwards. -/
theorem Consistent.carried_self (h : Consistent bytes s)
    (hfresh : FreshFind s (session, action))
    (hstep : step bytes s (session, action) = some s') :
    Carried bytes s' session (s'.phase session) := by
  have hcarried := h.carried session
  have hsessions : (s.phase session).Registered → s.note.sessions ≠ [] := fun hregistered =>
    List.ne_nil_of_mem ((h.registration session).mpr hregistered)
  obtain ⟨phase, note, hmoves, rfl⟩ := step_cases hstep
  show Carried bytes _ session (update s.phase session phase session)
  rw [update_self]
  cases hmoves with
  | findUpdates hphase =>
    rw [hphase] at hsessions
    exact ⟨NobodyDropping.preserved hfresh (hsessions trivial) hstep, s.note.findUpdates_updates⟩
  | @addLast deque message hphase =>
    rw [hphase] at hcarried hsessions
    obtain ⟨hcalm, hupdates⟩ := hcarried
    refine ⟨hcalm.preserved (hsessions trivial) hstep, hupdates, ?_⟩
    show message ∈ ((s.note.addLast deque message).deques deque).added
    rw [Note.addLast_deques_self]
    exact List.mem_append_right _ List.mem_cons_self
  | testSize_long hphase =>
    rw [hphase] at hcarried hsessions
    obtain ⟨hcalm, hstored⟩ := hcarried
    exact ⟨hcalm.preserved (hsessions trivial) hstep, hstored.preserved hcalm hstep⟩
  | testSize_short hphase =>
    rw [hphase] at hcarried hsessions
    obtain ⟨hcalm, hstored⟩ := hcarried
    exact ⟨hcalm.preserved (hsessions trivial) hstep, _, hstored.preserved hcalm hstep⟩
  | pollFirst hphase => exact absurd hphase (h.untrimmed.phase _ _ _)
  | iterateSessions hphase =>
    rw [hphase] at hcarried hsessions
    obtain ⟨hcalm, deque, hstored⟩ := hcarried
    refine fun _ => ⟨hcalm.preserved (hsessions trivial) hstep, deque,
      hstored.preserved hcalm hstep, ?_⟩
    intro other _
    by_cases hother : other ∈ s.note.sessions
    · exact Or.inl hother
    · -- who joins from here on reads the deque after the append
      exact Or.inr (covered_step h.untrimmed hstored hstep
        (covered_of_registration h.registration hother))
  | relay _ hrelayed => exact fun hsync => absurd hsync hrelayed
  | sendNext hphase =>
    rw [hphase] at hcarried hsessions
    exact hcarried.visited h.untrimmed (hsessions trivial) hstep fun _ _ =>
      Or.inr (Or.inl (Note.mem_sent_send.mpr (Or.inr ⟨rfl, rfl⟩)))
  | skipNext hphase hskip =>
    rw [hphase] at hcarried hsessions
    -- another session is skipped only if it is gone
    refine hcarried.visited h.untrimmed (hsessions trivial) hstep fun _ hother => Or.inl ?_
    exact fun hopen => hother (hskip (isOpen_of_step hstep hopen))
  | _ => trivial

omit [DecidableEq S] in
/-- Outside the set there is no message to know of. -/
theorem carried_of_not_registered {p : Phase S M} (h : ¬ p.Registered) :
    Carried bytes s session p := by
  cases p with
  | new | leaving | dropping | closed => trivial
  | _ => exact absurd trivial h

/-- The invariant of runs in which every message finds its deque while nobody is to drop one. -/
theorem Consistent.preserved (h : Consistent bytes s) (hroom : Roomy s)
    (hfresh : FreshFind s (session, action))
    (hstep : step bytes s (session, action) = some s') : Consistent bytes s' := by
  refine ⟨h.registration.preserved hstep, h.untrimmed.preserved hroom hstep, fun other => ?_⟩
  by_cases hother : other = session
  · subst hother
    exact h.carried_self hfresh hstep
  · have hphase : s'.phase other = s.phase other := by
      obtain ⟨phase, note, -, rfl⟩ := step_cases hstep
      exact update_of_ne hother _ _
    rw [hphase]
    by_cases hregistered : (s.phase other).Registered
    · have hsessions := List.ne_nil_of_mem ((h.registration other).mpr hregistered)
      exact (h.carried other).mono h.untrimmed hsessions hstep
    · exact carried_of_not_registered hregistered

omit [DecidableEq S] in
theorem consistent_initial : Consistent bytes (State.initial : State S M) where
  registration _ := ⟨nofun, nofun⟩
  untrimmed := ⟨fun _ => rfl, nofun⟩
  carried _ := trivial

/-! ## An accepted message -/

/-- What is known of an accepted message: nobody is about to drop the deque, the message is in it,
and every session of its audience is reached. -/
structure Kept (s : State S M) (deque : ℕ) (message : M) (audience : S → Prop) : Prop where
  untrimmed : Untrimmed s
  calm : NobodyDropping s
  stored : Stored s deque message
  reached : ∀ session, audience session → Reached s deque message session

theorem Kept.preserved {audience : S → Prop} (h : Kept s deque message audience) (hroom : Roomy s)
    (hsessions : s.note.sessions ≠ []) (hstep : step bytes s (session, action) = some s') :
    Kept s' deque message audience where
  untrimmed := h.untrimmed.preserved hroom hstep
  calm := h.calm.preserved hsessions hstep
  stored := h.stored.preserved h.calm hstep
  reached other hother := (h.reached other hother).preserved h.untrimmed h.stored hstep

/-- At the end of its broadcast a message has reached whoever has not closed by then. -/
theorem Consistent.kept (h : Consistent bytes s) (hroom : Roomy s)
    (hphase : s.phase session = .broadcasting message []) (hsync : isSyncMessage (bytes message))
    (hstep : step bytes s (session, action) = some s') :
    ∃ deque, Kept s' deque message fun other => other ≠ session ∧ (s'.phase other).isOpen := by
  have hcarried := h.carried session
  have hregistered := h.registration session
  rw [hphase] at hcarried hregistered
  obtain ⟨hcalm, deque, hstored, hcovered⟩ := hcarried hsync
  refine ⟨deque, h.untrimmed.preserved hroom hstep, ?_, hstored.preserved hcalm hstep, ?_⟩
  · exact hcalm.preserved (List.ne_nil_of_mem (hregistered.mpr trivial)) hstep
  · rintro other ⟨hother, hopen⟩
    rcases hcovered other hother with hvisit | hgone | hreached
    · cases hvisit
    · exact absurd (isOpen_of_step hstep hopen) hgone
    · exact hreached.preserved h.untrimmed hstored hstep

omit [DecidableEq S] in
/-- A replay is part of `onOpen`. -/
theorem Phase.WillReplay.not_opened {p : Phase S M} (h : p.WillReplay note deque message) :
    ¬ p.Opened := by
  cases p with
  | new | added | fetched | replaying => exact id
  | _ => exact h.elim

omit [DecidableEq S] in
/-- When its `onOpen` is over, a session that is reached has been sent the message. -/
theorem Reached.mem_sent (h : Reached s deque message session)
    (hopened : (s.phase session).Opened) : message ∈ s.note.sent session :=
  h.resolve_right fun hreplay => hreplay.not_opened hopened

/-! ## Whole runs -/

/-- `onBinary` of the session, with the sync message, is about to return. -/
def Accepts (bytes : M → List UInt8) (s : State S M) (session : S) (message : M) : Prop :=
  s.phase session = .broadcasting message [] ∧ isSyncMessage (bytes message)

/-- No update that is accepted during the run is lost: as long as the note has a session, every
other session that was in the set then, or whose `onOpen` ends later, is sent the update before its
`onOpen` ends. -/
def NoUpdateLost (bytes : M → List UInt8) (events : List (S × Action M)) : Prop :=
  ∀ before sender message after s₀ s₁ t, events = before ++ (sender, .endBroadcast) :: after →
    Transition.run (step bytes) .initial before = some s₀ →
    Accepts bytes s₀ sender message →
    step bytes s₀ (sender, .endBroadcast) = some s₁ →
    Transition.Throughout (step bytes) (fun s => s.note.sessions ≠ []) s₁ after →
    Transition.run (step bytes) s₁ after = some t →
    ∀ session ≠ sender, session ∈ s₁.note.sessions ∨ ¬ (s₁.phase session).Opened →
      (t.phase session).Opened → message ∈ t.note.sent session

def Action.appends : Action M → Bool
  | .addLast => true
  | _ => false

/-- How many messages the run appends to the deques. -/
def appended (events : List (S × Action M)) : ℕ := events.countP fun event => event.2.appends

theorem Moves.length_added_le (h : Moves bytes s session action phase note) (deque : ℕ) :
    (note.deques deque).added.length ≤
      (s.note.deques deque).added.length + appended [(session, action)] := by
  cases h with
  | @addLast found added hphase =>
    by_cases hdeque : deque = found
    · subst hdeque
      rw [Note.addLast_deques_self]
      exact (List.length_append).le
    · rw [Note.addLast_deques_ne _ _ hdeque]
      exact Nat.le_add_right _ _
  | pollFirst =>
    rw [Note.pollFirst_added]
    exact Nat.le_add_right _ _
  | findUpdates =>
    rw [Note.findUpdates_deques]
    exact Nat.le_add_right _ _
  | _ => exact Nat.le_add_right _ _

/-- A deque holds no more than the run has appended. -/
theorem length_added_le_appended {t : State S M} {events : List (S × Action M)}
    (hrun : Transition.run (step bytes) s events = some t) (deque : ℕ) :
    (t.note.deques deque).added.length ≤
      (s.note.deques deque).added.length + appended events := by
  induction events generalizing s with
  | nil =>
    obtain rfl := Option.some.inj hrun
    exact Nat.le_add_right _ _
  | cons event events ih =>
    obtain ⟨m, hstep, hrest⟩ := (Transition.run_cons_eq_some (step bytes)).mp hrun
    obtain ⟨phase, note, hmoves, rfl⟩ := step_cases hstep
    calc
      (t.note.deques deque).added.length
        ≤ (note.deques deque).added.length + appended events := ih hrest
      _ ≤ (s.note.deques deque).added.length + appended [event] + appended events :=
        Nat.add_le_add_right (hmoves.length_added_le deque) _
      _ = (s.note.deques deque).added.length + appended (event :: events) := by
        rw [Nat.add_assoc]
        exact congrArg _ List.countP_append.symm

theorem roomy_throughout {events : List (S × Action M)}
    (hcount : appended events ≤ maxStoredUpdates) :
    Transition.Throughout (step bytes) Roomy .initial events := by
  rw [Transition.throughout_iff_initial]
  intro before t hbefore hrun deque
  have hlength := length_added_le_appended hrun deque
  have hempty : ((State.initial : State S M).note.deques deque).added.length = 0 := rfl
  have hprefix : appended before ≤ appended events := hbefore.sublist.countP_le
  omega

omit [DecidableEq S] in
theorem Phase.Registered.isOpen {p : Phase S M} (h : p.Registered) : p.isOpen := by
  cases p with
  | leaving | dropping | closed => exact h.elim
  | _ => rfl

omit [DecidableEq S] in
theorem Phase.isOpen_of_not_opened {p : Phase S M} (h : ¬ p.Opened) : p.isOpen := by
  cases p with
  | leaving | dropping | closed => exact absurd trivial h
  | _ => rfl

/-- If every message finds its deque while nobody is about to drop one, then no update is lost. -/
theorem noUpdateLost_of_freshFind (bytes : M → List UInt8) (events : List (S × Action M))
    (hcount : appended events ≤ maxStoredUpdates)
    (hfresh : Transition.Along (step bytes) FreshFind .initial events) :
    NoUpdateLost bytes events := by
  rintro before sender message after s₀ s₁ t rfl hrun₀ haccepts hstep hsessions hrun₁
  intro session hsender haudience hopened
  -- up to the acceptance the sessions are consistent, from then on the message is kept
  have hroom : Transition.Along (step bytes) (fun s _ => Roomy s) .initial _ :=
    (roomy_throughout hcount).along
  obtain ⟨hbefore, hrest⟩ := (hfresh.and hroom).append
  have hconsistent : Consistent bytes s₀ :=
    hbefore.invariant (fun _ _ _ h hP => h.preserved hP.2 hP.1) consistent_initial hrun₀
  obtain ⟨⟨-, hroom₀⟩, hafter⟩ := hrest s₀ hrun₀ s₁ hstep
  obtain ⟨deque, hkept⟩ := hconsistent.kept hroom₀ haccepts.1 haccepts.2 hstep
  have hkept' := (hafter.and hsessions.along).invariant
    (I := fun s => Kept s deque message fun other => other ≠ sender ∧ (s₁.phase other).isOpen)
    (fun _ _ _ h hP => h.preserved hP.1.2 hP.2) hkept hrun₁
  have hopen : (s₁.phase session).isOpen := by
    rcases haudience with hmem | hlater
    · exact (((hconsistent.registration.preserved hstep) session).mp hmem).isOpen
    · exact Phase.isOpen_of_not_opened hlater
  exact (hkept'.reached session ⟨hsender, hopen⟩).mem_sent hopened

/-- As long as nobody leaves, nobody is about to drop the deque. -/
theorem freshFind_of_nobodyLeaves {events : List (S × Action M)}
    (h : ∀ event ∈ events, event.2 ≠ .removeSession) :
    Transition.Along (step bytes) FreshFind .initial events := by
  have hstays : Transition.Along (step bytes) (fun _ event => event.2 ≠ .removeSession) .initial
      events := Transition.along_of_forall fun event hevent _ => h event hevent
  refine hstays.imp_of_invariant (J := fun s => ∀ session, (s.phase session).isOpen) ?_ ?_
    fun _ => rfl
  · rintro s ⟨session, action⟩ s' hopen hstay hstep other
    obtain ⟨phase, note, hmoves, rfl⟩ := step_cases hstep
    show (update s.phase session phase other).isOpen
    by_cases hother : other = session
    · subst hother
      rw [update_self]
      have hself := hopen other
      cases hmoves with
      | removeSession => exact absurd rfl hstay
      | testEmpty_last hphase | testEmpty hphase | dropUpdates hphase =>
        rw [hphase] at hself
        cases hself
      | _ => rfl
    · rw [update_of_ne hother]
      exact hopen other
  · rintro s ⟨session, action⟩ hopen -
    cases action with
    | findUpdates message =>
      intro other hother
      have hself := hopen other
      rw [hother] at hself
      cases hself
    | _ => trivial

/-- Session 1 joins while session 0 is sending an update, and session 2 joins afterwards. -/
theorem noUpdateLost_joining :
    NoUpdateLost id [((0 : ℕ), .addSession), (0, .getUpdates), (0, .findUpdates [0]),
      (1, .addSession), (1, .getUpdates), (0, .addLast), (0, .testSize), (0, .iterateSessions),
      (1, .iterateUpdates), (0, .sendNext), (1, .replayNext), (0, .sendNext), (0, .endBroadcast),
      (2, .addSession), (2, .getUpdates), (2, .iterateUpdates), (2, .replayNext),
      (2, .endReplay)] :=
  noUpdateLost_of_freshFind id _ (by decide) (freshFind_of_nobodyLeaves (by simp))

/-! ## A deque that is dropped too late -/

/-- Session 0 opens and closes up to its test; session 1 opens and sends an update. -/
def beforeLateDrop : List (ℕ × Action (List UInt8)) :=
  [(0, .addSession), (0, .getUpdates), (0, .removeSession), (0, .testEmpty),
    (1, .addSession), (1, .getUpdates), (1, .findUpdates [0]), (1, .addLast), (1, .testSize),
    (1, .iterateSessions), (1, .sendNext)]

/-- Then session 0 drops the deque, and session 2 joins. -/
def lateDrop : List (ℕ × Action (List UInt8)) :=
  [(0, .dropUpdates), (2, .addSession), (2, .getUpdates)]

/-- The update of session 1 does not come to session 2, though session 1 has never left. -/
theorem not_noUpdateLost :
    ¬ ∀ events : List (ℕ × Action (List UInt8)), appended events < maxStoredUpdates →
      NoUpdateLost id events := by
  intro h
  have hsessions : ∀ s₀ s₁, Transition.run (step id) .initial beforeLateDrop = some s₀ →
      step id s₀ (1, .endBroadcast) = some s₁ →
        Transition.Throughout (step id) (fun s => s.note.sessions ≠ []) s₁ lateDrop := by
    intro s₀ s₁ hrun hstep
    obtain rfl := Option.some.inj hrun
    obtain rfl := Option.some.inj hstep
    refine ⟨List.cons_ne_nil 1 [], fun s₂ hdrop => ?_⟩
    obtain rfl := Option.some.inj hdrop
    refine ⟨List.cons_ne_nil 1 [], fun s₃ hadd => ?_⟩
    obtain rfl := Option.some.inj hadd
    refine ⟨List.cons_ne_nil 1 [2], fun s₄ hget => ?_⟩
    obtain rfl := Option.some.inj hget
    exact List.cons_ne_nil 1 [2]
  have hlost := h (beforeLateDrop ++ (1, .endBroadcast) :: lateDrop) (by decide) beforeLateDrop 1
    [0] lateDrop _ _ _ rfl rfl ⟨rfl, rfl⟩ rfl (hsessions _ _ rfl rfl) rfl 2 (by decide) (Or.inr id)
    trivial
  cases hlost

end LiveCollaboration
