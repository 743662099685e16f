import JavaExamples.Common.References
import JavaExamples.SampleWallet.Statuses

/-!
# The rows that attempts have saved

Which attempt has saved which row, and what the row refers to: an investment to its wallet, a
candidate to its investment.

* `ActivityPosition.savedIds`: the rows an attempt has saved.
* `State.investmentReferences`, `State.candidateReferences`: the tables with what has been inserted.
* `RowProgress`: the invariant; `Step.rowProgress` keeps it.
-/

namespace SampleWallet

open References

/-! ## What an attempt has saved -/

inductive RowKind where
  | wallet
  | investment
  | candidate
  deriving DecidableEq

namespace ActivityPosition

def savedWalletIds : ActivityPosition → List Text
  | walletCreated id => [id]
  | _ => []

def savedInvestmentIds : ActivityPosition → List Text
  | nextInvestment _ _ ids => ids
  | saveInvestment _ _ _ _ ids => ids
  | scheduleInvestments _ ids => ids
  | investmentsCreated ids => ids
  | _ => []

/-- The candidates an attempt has created, also after they have been scheduled. -/
def createdCandidateIds : ActivityPosition → List Text
  | nextCandidate _ ids => ids
  | saveCandidate id _ _ ids => id :: ids
  | scheduleCandidates _ ids => ids
  | candidatesCreated ids => ids
  | _ => []

def createdIds : RowKind → ActivityPosition → List Text
  | .wallet => walletIds
  | .investment => createdInvestmentIds
  | .candidate => createdCandidateIds

def unsavedIds : RowKind → ActivityPosition → List Text
  | .wallet => unsavedWalletIds
  | .investment => unsavedInvestmentIds
  | .candidate => unsavedCandidateIds

def savedIds : RowKind → ActivityPosition → List Text
  | .wallet => savedWalletIds
  | .investment => savedInvestmentIds
  | .candidate => storedCandidateIds

/-- How many investments an attempt has still to save. -/
def missingInvestments : ActivityPosition → ℕ
  | createInvestments => 3
  | nextInvestment _ bases _ => bases.length
  | saveInvestment _ _ _ bases _ => bases.length + 1
  | _ => 0

theorem savedIds_subset (kind : RowKind) (position : ActivityPosition) :
    position.savedIds kind ⊆ position.createdIds kind := by
  intro id hid
  cases kind <;> cases position <;> first | exact hid | exact List.mem_cons_of_mem _ hid

end ActivityPosition

/-- The rows whose saving is the purpose of the activity. -/
def Position.kind : Position → Option RowKind
  | creatingWallet _ => some .wallet
  | creatingInvestments _ _ => some .investment
  | creatingCandidates _ _ => some .candidate
  | _ => none

/-- The investments an attempt has saved, with their wallet. -/
def savedInvestments : Position → ActivityPosition → List (Text × Text)
  | .creatingInvestments _ walletId, position =>
    position.savedInvestmentIds.map fun id => (id, walletId)
  | _, _ => []

/-- The candidates an attempt has saved, with their investments. -/
def savedCandidates : Position → ActivityPosition → List (Text × Text)
  | .creatingCandidates _ investmentIds, position => position.storedCandidateIds.zip investmentIds
  | _, _ => []

/-- How the place of an attempt fits its call: it saves the rows of one kind, three investments and
a candidate for each investment in turn. -/
structure Fits (call : Position) (position : ActivityPosition) : Prop where
  kind : ∀ kind, position.savedIds kind ≠ [] → call.kind = some kind
  investments : ∀ investorId walletId, call = .creatingInvestments investorId walletId →
    position.savedInvestmentIds.length + position.missingInvestments = 3
  candidates : ∀ walletId investmentIds, call = .creatingCandidates walletId investmentIds →
    ∃ done, done ++ position.pendingInvestmentIds = investmentIds ∧
      done.length = position.storedCandidateIds.length

section Attempts

variable {workflowId : Text} {s s' : State} {call : Position}
  {position position' : ActivityPosition}

/-- A step of an attempt saves what it has in hands to save. -/
theorem ActivityStep.savedIds_eq (h : ActivityStep workflowId s call position position' s')
    (kind : RowKind) :
    position'.savedIds kind = position.savedIds kind ++ position.unsavedIds kind := by
  cases kind <;> cases h <;> first | rfl | exact (List.append_nil _).symm

/-- An attempt begins with nothing created and nothing saved. -/
theorem rows_of_activity (h : call.activity = some position) :
    (∀ kind, position.createdIds kind = [] ∧ position.savedIds kind = []) ∧
      savedInvestments call position = [] ∧ savedCandidates call position = [] := by
  cases call with
  -- these wait for no activity
  | notStarted => cases h
  | awaiting => cases h
  | closed => cases h
  | _ =>
    obtain rfl := Option.some.inj h
    refine ⟨fun kind => ?_, rfl, rfl⟩
    cases kind <;> exact ⟨rfl, rfl⟩

theorem fits_of_activity (h : call.activity = some position) : Fits call position where
  kind kind hkind := absurd ((rows_of_activity h).1 kind).2 hkind
  investments investorId walletId hcall := by
    subst hcall
    obtain rfl := Option.some.inj h
    rfl
  candidates walletId investmentIds hcall := by
    subst hcall
    obtain rfl := Option.some.inj h
    exact ⟨[], rfl, rfl⟩

theorem BASE_INVESTMENTS_BY_PROFILE_length (profile : InvestorProfile) :
    (BASE_INVESTMENTS_BY_PROFILE profile).length = 3 := by
  cases profile <;> rfl

theorem ActivityStep.fits (h : ActivityStep workflowId s call position position' s')
    (hfits : Fits call position) : Fits call position' where
  kind kind hkind := by
    -- what is saved now was in hands before, in the same activity
    cases kind <;> cases h <;> first | rfl | exact absurd rfl hkind
  investments investorId walletId hcall := by
    have hold := hfits.investments investorId walletId hcall
    cases h with
    | createInvestments _ _ profile =>
      exact (Nat.zero_add _).trans (BASE_INVESTMENTS_BY_PROFILE_length profile)
    | saveInvestment _ _ profile id base bases ids =>
      show (ids ++ [id]).length + bases.length = 3
      rw [List.length_append, Nat.add_assoc, Nat.add_comm [id].length]
      exact hold
    | nextInvestment | investmentsSaved | scheduleInvestment | investmentsScheduled => exact hold
    | _ => cases hcall
  candidates walletId investmentIds hcall := by
    obtain ⟨done, hdone, hlength⟩ := hfits.candidates walletId investmentIds hcall
    cases h with
    | saveCandidate _ _ id investmentId rest ids =>
      -- the investment at hand is done
      refine ⟨done ++ [investmentId], (List.append_assoc ..).trans hdone, ?_⟩
      show (done ++ [investmentId]).length = (ids ++ [id]).length
      rw [List.length_append, List.length_append, hlength]
      rfl
    | nextCandidate | candidatesSaved | scheduleCandidate | candidatesScheduled =>
      exact ⟨done, hdone, hlength⟩
    | _ => cases hcall

end Attempts

/-! ## Tables and what has been inserted -/

/-- The investment is stored and belongs to the wallet. -/
def InvestmentOf (investments : Table Investment) (investmentId walletId : Text) : Prop :=
  Refers Investment.walletId investments investmentId walletId

namespace State

def investmentReferences (s : State) : Referring Text Text Investment :=
  { rows := s.investments
    inserted := s.attempts.flatMap fun attempt => savedInvestments attempt.call attempt.position }

def candidateReferences (s : State) : Referring Text Text FinancialEventCandidate :=
  { rows := s.candidates
    inserted := s.attempts.flatMap fun attempt => savedCandidates attempt.call attempt.position }

/-- The candidates by those who have created them. -/
def createdCandidateNumbers (s : State) : Numbered Text FinancialEventCandidate :=
  { sequence := s.candidateSequence
    rows := s.candidates
    held := s.attempts.flatMap fun attempt => attempt.position.createdCandidateIds
    unsaved := s.attempts.flatMap fun attempt => attempt.position.unsavedCandidateIds }

end State

/-- The row that a job has found and is about to replace. -/
def CandidateJobPosition.found : CandidateJobPosition → Option FinancialEventCandidate
  | saveFailing _ candidate => some candidate
  | saveMatched _ candidate => some candidate
  | saveRejected candidate => some candidate
  | _ => none

/-- What a job writes back belongs where the row belongs. -/
structure JobRows (s : State) : Prop where
  investments : ∀ job ∈ s.investmentJobs, ∀ persisted, job.position = .save persisted →
    InvestmentOf s.investments job.investmentId persisted.walletId
  candidates : ∀ job ∈ s.candidateJobs, ∀ candidate ∈ job.position.found,
    CandidateOf s.candidates job.candidateId candidate.investmentId

section Tables

variable {policy : BackgroundJobPolicy} {s s' final : State}

section Parties

open Referring

variable {workflowId : Text} {call : Position} {position position' : ActivityPosition}

theorem ActivityStep.investmentReferring (h : ActivityStep workflowId s call position position' s')
    (hnone : ∀ id ∈ position.unsavedInvestmentIds, s.investments id = none) :
    Change Investment.walletId ⟨s.investments, savedInvestments call position⟩
      ⟨s'.investments, savedInvestments call position'⟩ := by
  cases h with
  | saveInvestment investorId walletId profile id base bases ids =>
    refine .insert id (newInvestment walletId investorId profile base)
      (hnone id (List.mem_singleton_self id)) rfl ?_
    show ((ids ++ [id]).map fun id => (id, walletId)).Perm _
    rw [List.map_append]
    exact List.perm_append_singleton ..
  | _ => exact .keep rfl .rfl

theorem ActivityStep.candidateReferring (h : ActivityStep workflowId s call position position' s')
    (hfits : Fits call position)
    (hnone : ∀ id ∈ position.unsavedCandidateIds, s.candidates id = none) :
    Change FinancialEventCandidate.investmentId ⟨s.candidates, savedCandidates call position⟩
      ⟨s'.candidates, savedCandidates call position'⟩ := by
  cases h with
  | saveCandidate walletId all id investmentId rest ids =>
    -- the candidates so far go with the investments before this one
    obtain ⟨done, hdone, hlength⟩ := hfits.candidates walletId all rfl
    refine .insert id (newCandidate investmentId) (hnone id (List.mem_singleton_self id)) rfl ?_
    show ((ids ++ [id]).zip all).Perm ((id, investmentId) :: ids.zip all)
    subst hdone
    have hzip : (ids ++ [id]).zip (done ++ investmentId :: rest) =
        ids.zip (done ++ investmentId :: rest) ++ [(id, investmentId)] := zip_concat hlength
    show ((ids ++ [id]).zip (done ++ investmentId :: rest)).Perm _
    rw [hzip]
    exact List.perm_append_singleton ..
  | _ => exact .keep rfl .rfl

theorem InvestmentJobStep.referring {id : Text} {position position' : InvestmentJobPosition}
    (h : InvestmentJobStep s id position position' s')
    (hjob : ∀ persisted, position = .save persisted →
      InvestmentOf s.investments id persisted.walletId) (inserted : List (Text × Text)) :
    Change Investment.walletId ⟨s.investments, inserted⟩ ⟨s'.investments, inserted⟩ := by
  cases h with
  | find => exact .keep rfl .rfl
  | save persisted =>
    exact .replace id { persisted with created := true } (hjob persisted rfl) rfl .rfl

theorem CandidateJobStep.referring {id : Text} {position position' : CandidateJobPosition}
    (h : CandidateJobStep policy s workflowId id position position' s')
    (hjob : ∀ candidate ∈ position.found, CandidateOf s.candidates id candidate.investmentId)
    (inserted : List (Text × Text)) :
    Change FinancialEventCandidate.investmentId ⟨s.candidates, inserted⟩
      ⟨s'.candidates, inserted⟩ := by
  cases h with
  | saveFailing attempts candidate =>
    exact .replace id { candidate with attempts } (hjob candidate rfl) rfl .rfl
  | saveMatched attempts candidate =>
    exact .replace id (processedCandidate attempts candidate) (hjob candidate rfl) rfl .rfl
  | saveRejected candidate =>
    exact .replace id (rejectedCandidate policy candidate) (hjob candidate rfl) rfl .rfl
  | _ => exact .keep rfl .rfl

end Parties

theorem Step.investmentReferring (h : Step policy s s') (hs : Identified final s)
    (hjobs : JobRows s) :
    Referring.Change Investment.walletId s.investmentReferences s'.investmentReferences := by
  cases h with
  | workflow => exact .keep rfl .rfl
  | begin workflowId position hposition =>
    refine .keep rfl ?_
    obtain ⟨-, hbegin, -⟩ := rows_of_activity hposition
    simp [State.investmentReferences, hbegin]
  | attempt i attempt position s₁ hattempt hstep =>
    have hchange := hstep.investmentReferring fun id hid =>
      hs.investments.unsaved_none id
        (List.mem_flatMap.mpr ⟨attempt, List.mem_of_getElem? hattempt, hid⟩)
    obtain ⟨others, hold, hnew⟩ := Numbered.exists_flatMap_set_perm hattempt
      fun attempt => savedInvestments attempt.call attempt.position
    exact hchange.frame rfl rfl hold (hnew _)
  | investmentJob i job position s₁ hjob hstep =>
    have hchange := hstep.referring (hjobs.investments job (List.mem_of_getElem? hjob))
      s.investmentReferences.inserted
    simpa only [State.investmentReferences, hstep.outside.attempts] using hchange
  | candidateJob i job position s₁ hjob hstep =>
    refine .keep hstep.outside.investments ?_
    simp [State.investmentReferences, hstep.outside.attempts]

theorem Step.candidateReferring (h : Step policy s s') (hs : Identified final s)
    (hjobs : JobRows s) (hfits : ∀ attempt ∈ s.attempts, Fits attempt.call attempt.position) :
    Referring.Change FinancialEventCandidate.investmentId s.candidateReferences
      s'.candidateReferences := by
  cases h with
  | workflow => exact .keep rfl .rfl
  | begin workflowId position hposition =>
    refine .keep rfl ?_
    obtain ⟨-, -, hbegin⟩ := rows_of_activity hposition
    simp [State.candidateReferences, State.setWorkflow, hbegin]
  | attempt i attempt position s₁ hattempt hstep =>
    have hmem := List.mem_of_getElem? hattempt
    have hchange := hstep.candidateReferring (hfits attempt hmem) fun id hid =>
      hs.candidates.unsaved_none id (List.mem_flatMap.mpr ⟨attempt, hmem, hid⟩)
    obtain ⟨others, hold, hnew⟩ := Numbered.exists_flatMap_set_perm hattempt
      fun attempt => savedCandidates attempt.call attempt.position
    exact hchange.frame rfl rfl hold (hnew _)
  | investmentJob i job position s₁ hjob hstep =>
    refine .keep hstep.outside.candidates ?_
    simp [State.candidateReferences, hstep.outside.attempts]
  | candidateJob i job position s₁ hjob hstep =>
    have hchange := hstep.referring (hjobs.candidates job (List.mem_of_getElem? hjob))
      s.candidateReferences.inserted
    simpa only [State.candidateReferences, hstep.outside.attempts] using hchange

/-- What a job has found it has found in the table. -/
theorem InvestmentJobStep.jobRows {id : Text} {position position' : InvestmentJobPosition}
    (h : InvestmentJobStep s id position position' s') {persisted : Investment}
    (hposition : position' = .save persisted) :
    InvestmentOf s.investments id persisted.walletId := by
  cases h with
  | find found hfound =>
    obtain rfl := InvestmentJobPosition.save.inj hposition
    exact ⟨found, hfound, rfl⟩
  | save => cases hposition

theorem CandidateJobStep.jobRows {workflowId id : Text} {position position' : CandidateJobPosition}
    (h : CandidateJobStep policy s workflowId id position position' s')
    {candidate : FinancialEventCandidate} (hfound : candidate ∈ position'.found) :
    CandidateOf s.candidates id candidate.investmentId := by
  cases h with
  | findFailing attempts row hrow | findMatched attempts row hrow | findRejected row hrow =>
    obtain rfl := Option.some.inj hfound
    exact ⟨row, hrow, rfl⟩
  | _ => cases hfound

theorem Step.jobRows (h : Step policy s s') (hs : Identified final s) (hjobs : JobRows s)
    (hfits : ∀ attempt ∈ s.attempts, Fits attempt.call attempt.position) : JobRows s' where
  investments job hjob persisted hposition := by
    -- no row goes, so that it is enough to have found it before the step
    refine (h.investmentReferring hs hjobs).refers ?_
    rcases h.investmentJob_origin hjob with hold | hfind | ⟨_, _, _, -, hstep, -⟩
    · exact hjobs.investments job hold persisted hposition
    · rw [hfind] at hposition
      cases hposition
    · exact hstep.jobRows hposition
  candidates job hjob candidate hfound := by
    refine (h.candidateReferring hs hjobs hfits).refers ?_
    rcases h.candidateJob_origin hjob with hold | hloop | ⟨_, _, _, -, hstep, -⟩
    · exact hjobs.candidates job hold candidate hfound
    · rw [hloop] at hfound
      cases hfound
    · exact hstep.jobRows hfound

end Tables

/-! ## Who has created a candidate -/

section Created

open Numbered

variable {policy : BackgroundJobPolicy} {s s' : State}

theorem ActivityStep.createdCandidateChange {workflowId : Text} {call : Position}
    {position position' : ActivityPosition}
    (h : ActivityStep workflowId s call position position' s') :
    Change candidateId
      ⟨s.candidateSequence, s.candidates, position.createdCandidateIds,
        position.unsavedCandidateIds⟩
      ⟨s'.candidateSequence, s'.candidates, position'.createdCandidateIds,
        position'.unsavedCandidateIds⟩ := by
  cases h with
  | nextCandidate => exact .next rfl rfl .rfl .rfl
  | saveCandidate walletId all id investmentId rest ids =>
    exact .save id (newCandidate investmentId) rfl rfl (List.perm_append_singleton id ids) .rfl
  | _ => exact .keep rfl rfl .rfl .rfl

theorem Step.createdCandidateChange (h : Step policy s s') (hs : Stored s) :
    Change candidateId s.createdCandidateNumbers s'.createdCandidateNumbers := by
  cases h with
  | workflow => exact .keep rfl rfl .rfl .rfl
  | begin workflowId position hposition =>
    obtain ⟨hcreated, -⟩ := rows_of_activity hposition
    obtain ⟨-, -, -, -, -, hunsaved, -⟩ := ids_of_activity hposition
    have hheld : position.createdCandidateIds = [] := (hcreated .candidate).1
    refine .keep rfl rfl ?_ ?_ <;> simp [State.createdCandidateNumbers, hheld, hunsaved]
  | attempt i attempt position s₁ hattempt hstep =>
    obtain ⟨held, hheld, hheld'⟩ := exists_flatMap_set_perm hattempt
      fun attempt => attempt.position.createdCandidateIds
    obtain ⟨unsaved, hunsaved, hunsaved'⟩ := exists_flatMap_set_perm hattempt
      fun attempt => attempt.position.unsavedCandidateIds
    exact hstep.createdCandidateChange.frame rfl rfl rfl rfl hheld (hheld' _) hunsaved
      (hunsaved' _)
  | investmentJob i job position s₁ hjob hstep =>
    refine .keep hstep.outside.candidateSequence hstep.outside.candidates ?_ ?_ <;>
      simp [State.createdCandidateNumbers, hstep.outside.attempts]
  | candidateJob i job position s₁ hjob hstep =>
    have hchange := hstep.change (hs.candidates job (List.mem_of_getElem? hjob))
      s.createdCandidateNumbers.held s.createdCandidateNumbers.unsaved
    simpa only [State.createdCandidateNumbers, hstep.outside.attempts] using hchange

end Created

/-! ## What has been returned -/

def InvestmentsReturned (s : State) (workflowId walletId : Text) (investmentIds : List Text) :
    Prop :=
  ∃ investorId, ⟨workflowId, .creatingInvestments investorId walletId,
    .investmentsCreated investmentIds⟩ ∈ s.attempts

def CandidatesReturned (s : State) (workflowId walletId : Text)
    (investmentIds candidateIds : List Text) : Prop :=
  ⟨workflowId, .creatingCandidates walletId investmentIds, .candidatesCreated candidateIds⟩ ∈
    s.attempts

/-- The rows a workflow works with have been returned to it by its attempts. -/
def Returns (s : State) (workflowId : Text) : Position → Prop
  | .creatingCandidates walletId investmentIds =>
    InvestmentsReturned s workflowId walletId investmentIds
  | .fanningOut walletId investmentIds candidateIds =>
    CandidatesReturned s workflowId walletId investmentIds candidateIds
  | .awaiting walletId investmentIds candidateIds =>
    CandidatesReturned s workflowId walletId investmentIds candidateIds
  | .finishing walletId investmentIds candidateIds =>
    CandidatesReturned s workflowId walletId investmentIds candidateIds
  | _ => True

section Returns

variable {policy : BackgroundJobPolicy} {s s' : State} {workflowId : Text}

/-- An attempt that has come to its end stays there. -/
theorem Step.returned_remains (h : Step policy s s') {call call' : Position}
    {position : ActivityPosition} (hreturned : Returned call position call')
    (hattempt : ⟨workflowId, call, position⟩ ∈ s.attempts) :
    ⟨workflowId, call, position⟩ ∈ s'.attempts := by
  rcases h.attempt_remains hattempt with hsame | ⟨position', s₁, hstep, -⟩
  · exact hsame
  · cases hreturned <;> cases hstep

theorem Returns.step {position : Position} (h : Returns s workflowId position)
    (hstep : Step policy s s') : Returns s' workflowId position := by
  cases position with
  | creatingCandidates walletId investmentIds =>
    obtain ⟨investorId, hattempt⟩ := h
    exact ⟨investorId, hstep.returned_remains (.investmentsCreated ..) hattempt⟩
  | fanningOut | awaiting | finishing =>
    exact hstep.returned_remains (.candidatesCreated ..) h
  | _ => trivial

theorem WorkflowStep.returns {workflow : Workflow} (h : WorkflowStep s workflowId workflow)
    (hs : Returns s workflowId (s.workflows workflowId).position) :
    Returns s workflowId workflow.position := by
  cases h with
  | start => trivial
  | complete attempt hattempt hworkflow position hreturned hat =>
    rw [hat] at hs
    subst hworkflow
    obtain ⟨owner, call, old⟩ := attempt
    cases hreturned with
    | investmentsCreated investorId walletId investmentIds => exact ⟨investorId, hattempt⟩
    | candidatesCreated => exact hattempt
    | fannedOut => exact hs
    | _ => trivial
  | unblock walletId investmentIds candidateIds hat =>
    rw [hat] at hs
    exact hs
  | timeOut => trivial
  | fail => trivial
  | deliver => exact hs

end Returns

/-! ## The invariant -/

/-- What is known about the rows of a process that has started in `start`. -/
structure RowProgress (start final s : State) : Prop where
  identified : Identified final s
  wallets : WalletProgress s
  created : s.createdCandidateNumbers.WellNumbered candidateId final.candidateSequence
  stored : ∀ workflowId id, Owns s workflowId id → s.wallets id ≠ none
  jobs : JobRows s
  fits : ∀ attempt ∈ s.attempts, Fits attempt.call attempt.position
  investments : Accounted Investment.walletId start.investments s.investmentReferences
  candidates :
    Accounted FinancialEventCandidate.investmentId start.candidates s.candidateReferences
  calls : ∀ attempt ∈ s.attempts, Returns s attempt.workflowId attempt.call
  positions : ∀ workflowId, Returns s workflowId (s.workflows workflowId).position

section Invariant

variable {policy : BackgroundJobPolicy} {start s s' final : State}

theorem Step.fits (h : Step policy s s')
    (hfits : ∀ attempt ∈ s.attempts, Fits attempt.call attempt.position) :
    ∀ attempt ∈ s'.attempts, Fits attempt.call attempt.position := by
  intro attempt hattempt
  rcases h.attempt_origin hattempt with hold | ⟨-, hbegin⟩ | ⟨_, _, _, hold, hstep, -⟩
  · exact hfits attempt hold
  · exact fits_of_activity hbegin
  · exact hstep.fits (hfits _ (List.mem_of_getElem? hold))

theorem Step.stored_of_owns (h : Step policy s s') (hs : Stored s)
    (hstored : ∀ workflowId id, Owns s workflowId id → s.wallets id ≠ none) :
    ∀ workflowId id, Owns s' workflowId id → s'.wallets id ≠ none := by
  intro workflowId id howns
  rcases h.owns_origin howns with hold | ⟨investorId, hwallets⟩
  · exact (h.walletChange hs).rows_ne_none (hstored workflowId id hold)
  · rw [hwallets, save_self]
    simp

theorem Step.rowProgress (h : Step policy s s') (hunwrapped : final.Unwrapped)
    (hwithin : s'.Within final) (hs : RowProgress start final s) : RowProgress start final s' where
  identified := h.identified hunwrapped hs.identified hwithin
  wallets := h.walletProgress hs.identified hs.wallets
  created := hs.created.change
    (candidateId_injOn.mono (Set.Ioc_subset_Ioc_right hunwrapped.candidates))
    (h.createdCandidateChange hs.identified.stored) hwithin.candidates
  stored := h.stored_of_owns hs.identified.stored hs.stored
  jobs := h.jobRows hs.identified hs.jobs hs.fits
  fits := h.fits hs.fits
  investments := hs.investments.change (h.investmentReferring hs.identified hs.jobs)
  candidates := hs.candidates.change (h.candidateReferring hs.identified hs.jobs hs.fits)
  calls attempt hattempt := by
    refine Returns.step ?_ h
    rcases h.call_origin hattempt with ⟨old, hold, hworkflow, hcall⟩ | hposition
    · exact hworkflow ▸ hcall ▸ hs.calls old hold
    · exact hposition ▸ hs.positions attempt.workflowId
  positions workflowId := by
    refine Returns.step ?_ h
    rcases h.workflow_origin workflowId with ⟨hsame, -⟩ | hstep
    · rw [hsame]
      exact hs.positions workflowId
    · exact hstep.returns (hs.positions workflowId)

/-- No id has been created twice. -/
theorem RowProgress.createdIds_nodup (hs : RowProgress start final s) (kind : RowKind) :
    (s.attempts.flatMap fun attempt => attempt.position.createdIds kind).Nodup := by
  cases kind with
  | wallet => exact hs.identified.wallets.nodup
  | investment => exact hs.identified.investments.nodup
  | candidate => exact hs.created.nodup

end Invariant

end SampleWallet
