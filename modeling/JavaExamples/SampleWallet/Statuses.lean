import JavaExamples.SampleWallet.Progress

/-!
# The status of a wallet

Who decides about a wallet: one workflow, and it decides once. So a status moves on from CREATING
and then stays.

* `Owns`: the workflow whose attempt has created the wallet.
* `WalletProgress`: the invariant about owners, decisions and statuses; `Step.walletProgress` keeps
  it.
* `Step.statusesMove`: what a step does to the statuses.
-/

namespace SampleWallet

/-! ## Owners and decisions -/

/-- The wallet a workflow works on. -/
def Position.walletId : Position → Option Text
  | creatingInvestments _ walletId => some walletId
  | creatingCandidates walletId _ => some walletId
  | fanningOut walletId _ _ => some walletId
  | awaiting walletId _ _ => some walletId
  | aborting walletId => some walletId
  | finishing walletId _ _ => some walletId
  | _ => none

/-- The status a workflow has decided for. -/
def Position.decision : Position → Option WalletStatus
  | aborting _ => some .ABORTED
  | finishing _ _ _ => some .READY
  | _ => none

/-- An attempt of the workflow has created the wallet. -/
def Owns (s : State) (workflowId id : Text) : Prop :=
  ∃ attempt ∈ s.attempts, attempt.workflowId = workflowId ∧ attempt.position = .walletCreated id

/-- The workflow is where it has decided for the status, or behind it. -/
def Decided (s : State) (workflowId : Text) (status : WalletStatus) : Prop :=
  (s.workflows workflowId).position.decision = some status ∨
    (s.workflows workflowId).position = .closed

structure WalletProgress (s : State) : Prop where
  calls : ∀ attempt ∈ s.attempts, ∀ id, attempt.call.walletId = some id →
    Owns s attempt.workflowId id
  positions : ∀ workflowId id, (s.workflows workflowId).position.walletId = some id →
    Owns s workflowId id
  decided : ∀ attempt ∈ s.attempts, ∀ status, attempt.call.decision = some status →
    Decided s attempt.workflowId status
  exclusive : ∀ attempt ∈ s.attempts, ∀ attempt' ∈ s.attempts, ∀ status status',
    attempt.workflowId = attempt'.workflowId → attempt.call.decision = some status →
    attempt'.call.decision = some status' → status = status'
  statuses : ∀ workflowId id row, Owns s workflowId id → s.wallets id = some row →
    row.status = .CREATING ∨
      ∃ attempt ∈ s.attempts, attempt.workflowId = workflowId ∧
        attempt.call.decision = some row.status

section Owners

variable {policy : BackgroundJobPolicy} {s s' final : State} {workflowId id : Text}

/-- No wallet has two owners. -/
theorem Owns.unique {workflowId' : Text} (h : Owns s workflowId id) (h' : Owns s workflowId' id)
    (hs : Identified final s) : workflowId = workflowId' := by
  obtain ⟨attempt, hattempt, rfl, hposition⟩ := h
  obtain ⟨attempt', hattempt', rfl, hposition'⟩ := h'
  -- a wallet's id is in the hands of one attempt
  have hsame : attempt = attempt' := by
    refine Numbered.eq_of_nodup_flatMap hs.wallets.nodup hattempt hattempt' (x := id) ?_ ?_
    · rw [hposition]
      exact List.mem_singleton_self id
    · rw [hposition']
      exact List.mem_singleton_self id
  rw [hsame]

theorem Owns.step (h : Owns s workflowId id) (hstep : Step policy s s') :
    Owns s' workflowId id := by
  obtain ⟨attempt, hattempt, hworkflow, hposition⟩ := h
  rcases hstep.attempt_remains hattempt with hattempt | ⟨position, s₁, hstep, -⟩
  · exact ⟨attempt, hattempt, hworkflow, hposition⟩
  · -- there is nothing left to do for the attempt
    rw [hposition] at hstep
    generalize attempt.call = call at hstep
    cases hstep

/-- An attempt's call was there, or is where its workflow is. -/
theorem Step.call_origin (h : Step policy s s') {attempt : Attempt}
    (hattempt : attempt ∈ s'.attempts) :
    (∃ old ∈ s.attempts, old.workflowId = attempt.workflowId ∧ old.call = attempt.call) ∨
      (s.workflows attempt.workflowId).position = attempt.call := by
  rcases h.attempt_origin hattempt with hold | ⟨hposition, -⟩ | ⟨_, i, _, hold, -⟩
  · exact .inl ⟨attempt, hold, rfl, rfl⟩
  · exact .inr hposition
  · exact .inl ⟨_, List.mem_of_getElem? hold, rfl, rfl⟩

/-- An attempt's call stays. -/
theorem Step.call_remains (h : Step policy s s') {attempt : Attempt}
    (hattempt : attempt ∈ s.attempts) :
    ∃ new ∈ s'.attempts, new.workflowId = attempt.workflowId ∧ new.call = attempt.call := by
  rcases h.attempt_remains hattempt with hattempt | ⟨position, s₁, -, hattempt⟩
  · exact ⟨attempt, hattempt, rfl, rfl⟩
  · exact ⟨_, hattempt, rfl, rfl⟩

/-- A decision is not taken back. -/
theorem Decided.step {status : WalletStatus} (h : Decided s workflowId status)
    (hstep : Step policy s s') : Decided s' workflowId status := by
  rcases hstep.workflow_origin workflowId with ⟨hsame, -⟩ | hworkflow
  · rwa [Decided, hsame]
  · unfold Decided at h ⊢
    -- from a decision a workflow can only close
    generalize s'.workflows workflowId = workflow at hworkflow
    cases hworkflow with
    | start investorId hposition => simp [hposition, Position.decision] at h
    | complete attempt hattempt hid position hreturned hposition =>
      rw [hposition] at h
      obtain ⟨id, call, old⟩ := attempt
      cases hreturned with
      | finished => exact .inr rfl
      | aborted => exact .inr rfl
      | _ => simp [Position.decision] at h
    | unblock _ _ _ hposition => simp [hposition, Position.decision] at h
    | timeOut _ _ _ hposition => simp [hposition, Position.decision] at h
    | fail => exact .inr rfl
    | deliver => exact h

theorem WorkflowStep.owns {workflow : Workflow} (h : WorkflowStep s workflowId workflow)
    (hs : WalletProgress s) (hid : workflow.position.walletId = some id) :
    Owns s workflowId id := by
  have hposition := hs.positions workflowId id
  cases h with
  | start => cases hid
  | complete attempt hattempt hworkflow position hreturned hat =>
    rw [hat] at hposition
    obtain ⟨owner, call, old⟩ := attempt
    cases hreturned with
    | walletCreated investorId walletId =>
      obtain rfl := Option.some.inj hid
      exact ⟨_, hattempt, hworkflow, rfl⟩
    | investmentsCreated => exact hposition hid
    | candidatesCreated => exact hposition hid
    | fannedOut => exact hposition hid
    | _ => cases hid
  | unblock _ _ _ hat =>
    rw [hat] at hposition
    exact hposition hid
  | timeOut _ _ _ hat =>
    rw [hat] at hposition
    exact hposition hid
  | fail => cases hid
  | deliver => exact hposition hid

end Owners

/-! ## Statuses -/

/-- Rows stay, a new one is CREATING, and a status moves on from CREATING only. -/
structure StatusesMove (wallets wallets' : Table Wallet) : Prop where
  moved : ∀ id row, wallets id = some row → ∃ row', wallets' id = some row' ∧
    (row'.status = row.status ∨
      row.status = .CREATING ∧ (row'.status = .READY ∨ row'.status = .ABORTED))
  new : ∀ id row, wallets id = none → wallets' id = some row → row.status = .CREATING

theorem StatusesMove.refl (wallets : Table Wallet) : StatusesMove wallets wallets where
  moved _ row hrow := ⟨row, hrow, .inl rfl⟩
  new _ _ hnone hrow := nomatch hnone.symm.trans hrow

/-- What a step of an attempt does to the wallets: nothing, a new row, or the status that its
workflow has decided for. -/
theorem ActivityStep.wallets_cases {s s' : State} {workflowId : Text} {call : Position}
    {position position' : ActivityPosition}
    (h : ActivityStep workflowId s call position position' s') :
    s'.wallets = s.wallets ∧ (∀ id, position' ≠ .walletCreated id) ∨
      (∃ investorId id, position = .saveWallet id ∧ position' = .walletCreated id ∧
        s'.wallets = save id (newWallet investorId) s.wallets) ∨
      ∃ id row, call.walletId = some id ∧ call.decision = some row.status ∧
        replacedWallet call position = some id ∧ (∀ id, position' ≠ .walletCreated id) ∧
        s'.wallets = save id row s.wallets := by
  cases h with
  | saveWallet investorId id => exact .inr (.inl ⟨investorId, id, rfl, rfl, rfl⟩)
  | saveReady walletId investmentIds candidateIds wallet =>
    exact .inr (.inr ⟨walletId, _, rfl, rfl, rfl, fun _ => nofun, rfl⟩)
  | saveAborted walletId wallet =>
    exact .inr (.inr ⟨walletId, _, rfl, rfl, rfl, fun _ => nofun, rfl⟩)
  | _ => exact .inl ⟨rfl, fun _ => nofun⟩

/-- What a step of the system does to the wallets. -/
theorem Step.wallets_cases {policy : BackgroundJobPolicy} {s s' : State} (h : Step policy s s') :
    s'.wallets = s.wallets ∨
      (∃ investorId id attempt, attempt ∈ s.attempts ∧ attempt.position = .saveWallet id ∧
        s'.wallets = save id (newWallet investorId) s.wallets) ∨
      ∃ id row attempt, attempt ∈ s.attempts ∧ attempt.call.walletId = some id ∧
        attempt.call.decision = some row.status ∧
        replacedWallet attempt.call attempt.position = some id ∧
        s'.wallets = save id row s.wallets := by
  cases h with
  | workflow => exact .inl rfl
  | begin => exact .inl rfl
  | attempt i attempt position s₁ hattempt hstep =>
    have hmem := List.mem_of_getElem? hattempt
    rcases hstep.wallets_cases with ⟨hsame, -⟩ | ⟨investorId, id, hsaved, -, hwallets⟩ |
      ⟨id, row, hid, hdecision, hreplaced, -, hwallets⟩
    · exact .inl hsame
    · exact .inr (.inl ⟨investorId, id, attempt, hmem, hsaved, hwallets⟩)
    · exact .inr (.inr ⟨id, row, attempt, hmem, hid, hdecision, hreplaced, hwallets⟩)
  | investmentJob i job position s₁ hjob hstep =>
    exact .inl hstep.outside.wallets
  | candidateJob i job position s₁ hjob hstep =>
    exact .inl hstep.outside.wallets

section Statuses

variable {policy : BackgroundJobPolicy} {s s' final : State}

theorem Identified.wallet_none (hs : Identified final s) {attempt : Attempt} {id : Text}
    (hattempt : attempt ∈ s.attempts) (hposition : attempt.position = .saveWallet id) :
    s.wallets id = none := by
  refine hs.wallets.unsaved_none id (List.mem_flatMap.mpr ⟨attempt, hattempt, ?_⟩)
  rw [hposition]
  exact List.mem_singleton_self id

/-- What a workflow has decided for is the only status that its wallet moves to. -/
theorem WalletProgress.status_of_decision (hw : WalletProgress s) {attempt : Attempt}
    (hattempt : attempt ∈ s.attempts) {id : Text} (hid : attempt.call.walletId = some id)
    {status : WalletStatus} (hdecision : attempt.call.decision = some status) {row : Wallet}
    (hrow : s.wallets id = some row) : row.status = .CREATING ∨ row.status = status := by
  refine (hw.statuses _ id row (hw.calls attempt hattempt id hid) hrow).imp_right ?_
  rintro ⟨attempt', hattempt', hworkflow, hdecision'⟩
  exact hw.exclusive attempt' hattempt' attempt hattempt _ _ hworkflow hdecision' hdecision

/-- A decision is for READY or for ABORTED. -/
theorem Position.decision_cases {position : Position} {status : WalletStatus}
    (h : position.decision = some status) : status = .READY ∨ status = .ABORTED := by
  cases position with
  | aborting => exact .inr (Option.some.inj h).symm
  | finishing => exact .inl (Option.some.inj h).symm
  | _ => cases h

theorem Step.statusesMove (h : Step policy s s') (hs : Identified final s) (hw : WalletProgress s) :
    StatusesMove s.wallets s'.wallets := by
  have hother : ∀ {id other : Text} {row : Wallet} (new : Wallet), other ≠ id →
      s.wallets other = some row →
      ∃ row', save id new s.wallets other = some row' ∧ (row'.status = row.status ∨
        row.status = .CREATING ∧ (row'.status = .READY ∨ row'.status = .ABORTED)) :=
    fun new hne hrow => ⟨_, (save_of_ne hne).trans hrow, .inl rfl⟩
  rcases h.wallets_cases with hsame | ⟨investorId, id, attempt, hattempt, hposition, hwallets⟩ |
    ⟨id, new, attempt, hattempt, hid, hdecision, hreplaced, hwallets⟩
  · rw [hsame]
    exact .refl _
  · -- a new row is not saved over another one
    have hnone := hs.wallet_none hattempt hposition
    rw [hwallets]
    refine ⟨fun other row hrow => ?_, fun other row hnone hrow => ?_⟩
    · exact hother _ (ne_of_stored hrow hnone) hrow
    · by_cases hne : other = id
      · subst hne
        rw [save_self] at hrow
        exact Option.some.inj hrow ▸ rfl
      · rw [save_of_ne hne, hnone] at hrow
        cases hrow
  -- the status saved is the one decided for, and the row has no other decided one
  · have hstored := hs.stored.wallets attempt hattempt id hreplaced
    rw [hwallets]
    refine ⟨fun other row hrow => ?_, fun other row hnone hrow => ?_⟩
    · by_cases hne : other = id
      · subst hne
        refine ⟨new, save_self, ?_⟩
        rcases hw.status_of_decision hattempt hid hdecision hrow with hcreating | hsame
        · exact .inr ⟨hcreating, Position.decision_cases hdecision⟩
        · exact .inl hsame.symm
      · exact hother _ hne hrow
    · have hne : other ≠ id := by
        rintro rfl
        exact hstored hnone
      rw [save_of_ne hne, hnone] at hrow
      cases hrow

/-- An owner has been one before, or has just saved the new row. -/
theorem Step.owns_origin (h : Step policy s s') {workflowId id : Text}
    (howns : Owns s' workflowId id) :
    Owns s workflowId id ∨
      ∃ investorId, s'.wallets = save id (newWallet investorId) s.wallets := by
  obtain ⟨attempt, hattempt, hworkflow, hposition⟩ := howns
  rcases h.attempt_origin hattempt with hold | ⟨-, hbegin⟩ | ⟨old, i, s₁, hold, hstep, rfl⟩
  · exact .inl ⟨attempt, hold, hworkflow, hposition⟩
  -- an attempt that has just begun has created nothing
  · obtain ⟨hempty, -⟩ := ids_of_activity hbegin
    rw [hposition] at hempty
    cases hempty
  · rcases hstep.wallets_cases with ⟨-, hne⟩ | ⟨investorId, new, -, hnew, hwallets⟩ |
      ⟨_, _, -, -, -, hne, -⟩
    · exact absurd hposition (hne id)
    · rw [hposition] at hnew
      obtain rfl := ActivityPosition.walletCreated.inj hnew
      exact .inr ⟨investorId, hwallets⟩
    · exact absurd hposition (hne id)

/-- The status of an owned wallet is CREATING, or the one its workflow has decided for. -/
theorem Step.statuses (h : Step policy s s') (hs : Identified final s) (hw : WalletProgress s)
    {workflowId id : Text} {row : Wallet} (howns : Owns s' workflowId id)
    (hrow : s'.wallets id = some row) :
    row.status = .CREATING ∨ ∃ attempt ∈ s'.attempts, attempt.workflowId = workflowId ∧
      attempt.call.decision = some row.status := by
  -- a row that is not written keeps its status, and its decision stays taken
  have hkept : Owns s workflowId id → s.wallets id = some row → row.status = .CREATING ∨
      ∃ attempt ∈ s'.attempts, attempt.workflowId = workflowId ∧
        attempt.call.decision = some row.status := by
    intro hold hrow
    refine (hw.statuses workflowId id row hold hrow).imp_right ?_
    rintro ⟨attempt, hattempt, hworkflow, hdecision⟩
    obtain ⟨new, hnew, hworkflow', hcall⟩ := h.call_remains hattempt
    exact ⟨new, hnew, hworkflow'.trans hworkflow, hcall ▸ hdecision⟩
  rcases h.owns_origin howns with hold | ⟨investorId, hwallets⟩
  · rcases h.wallets_cases with hsame | ⟨investorId, other, attempt, -, -, hwallets⟩ |
      ⟨other, new, attempt, hattempt, hid, hdecision, -, hwallets⟩
    · exact hkept hold (hsame ▸ hrow)
    · rw [hwallets] at hrow
      by_cases hne : id = other
      · subst hne
        rw [save_self] at hrow
        exact .inl (Option.some.inj hrow ▸ rfl)
      · rw [save_of_ne hne] at hrow
        exact hkept hold hrow
    · rw [hwallets] at hrow
      by_cases hne : id = other
      · subst hne
        rw [save_self] at hrow
        obtain rfl := Option.some.inj hrow
        -- the attempt that saves the row is its owner's
        obtain ⟨attempt', hattempt', hworkflow, hcall⟩ := h.call_remains hattempt
        have howner := hold.unique (hw.calls attempt hattempt id hid) hs
        exact .inr ⟨attempt', hattempt', hworkflow.trans howner.symm, hcall ▸ hdecision⟩
      · rw [save_of_ne hne] at hrow
        exact hkept hold hrow
  · rw [hwallets, save_self] at hrow
    exact .inl (Option.some.inj hrow ▸ rfl)

theorem Step.walletProgress (h : Step policy s s') (hs : Identified final s)
    (hw : WalletProgress s) : WalletProgress s' where
  calls attempt hattempt id hid := by
    refine Owns.step ?_ h
    rcases h.call_origin hattempt with ⟨old, hold, hworkflow, hcall⟩ | hposition
    · exact hworkflow ▸ hw.calls old hold id (hcall ▸ hid)
    · exact hw.positions _ id (hposition ▸ hid)
  positions workflowId id hid := by
    refine Owns.step ?_ h
    rcases h.workflow_origin workflowId with ⟨hsame, -⟩ | hstep
    · exact hw.positions workflowId id (hsame ▸ hid)
    · exact hstep.owns hw hid
  decided attempt hattempt status hdecision := by
    refine Decided.step ?_ h
    rcases h.call_origin hattempt with ⟨old, hold, hworkflow, hcall⟩ | hposition
    · exact hworkflow ▸ hw.decided old hold status (hcall ▸ hdecision)
    · exact .inl (hposition ▸ hdecision)
  exclusive attempt hattempt attempt' hattempt' status status' hworkflow hdecision hdecision' := by
    -- one that has just begun is where the workflow is, and there it has decided once
    have hbegun : ∀ {old call status status'}, old ∈ s.attempts →
        old.call.decision = some status → (s.workflows old.workflowId).position = call →
        call.decision = some status' → status = status' := by
      intro old call status status' hold hdecision hposition hdecision'
      rcases hw.decided old hold status hdecision with hsame | hclosed
      · rw [hposition, hdecision'] at hsame
        exact (Option.some.inj hsame).symm
      · rw [← hposition, hclosed] at hdecision'
        cases hdecision'
    rcases h.call_origin hattempt with ⟨old, hold, hid, hcall⟩ | hposition <;>
      rcases h.call_origin hattempt' with ⟨old', hold', hid', hcall'⟩ | hposition'
    · exact hw.exclusive old hold old' hold' status status' (hid.trans (hworkflow.trans hid'.symm))
        (hcall ▸ hdecision) (hcall' ▸ hdecision')
    · exact hbegun hold (hcall ▸ hdecision) (hid ▸ hworkflow ▸ hposition') hdecision'
    · exact (hbegun hold' (hcall' ▸ hdecision') (hid' ▸ hworkflow ▸ hposition) hdecision).symm
    · rw [hworkflow, hposition'] at hposition
      rw [hposition, hdecision] at hdecision'
      exact Option.some.inj hdecision'
  statuses workflowId id row howns hrow := h.statuses hs hw howns hrow

end Statuses

theorem WalletProgress.initial (wallets : Table Wallet) (investments : Table Investment)
    (candidates : Table FinancialEventCandidate) :
    WalletProgress (.initial wallets investments candidates) where
  calls := by simp [State.initial]
  positions := nofun
  decided := by simp [State.initial]
  exclusive := by simp [State.initial]
  statuses := by simp [State.initial, Owns]

end SampleWallet
