import JavaExamples.SampleWallet.Steps

/-!
# Identifiers in the workflow

Who has which id in hands, and that no step gives an id to a second one or saves a new row over a
stored one, as long as the counters do not wrap around.

* `State.walletNumbers` and its siblings: each table as a `Numbered` one.
* `Step.walletChange` and its siblings: every step changes it like one.
* `Identified`: the invariant.
-/

namespace SampleWallet

/-! ## Ids in hands -/

namespace ActivityPosition

/-- The wallet an attempt has created. -/
def walletIds : ActivityPosition → List Text
  | saveWallet id => [id]
  | walletCreated id => [id]
  | _ => []

def unsavedWalletIds : ActivityPosition → List Text
  | saveWallet id => [id]
  | _ => []

/-- The investments an attempt has created. -/
def createdInvestmentIds : ActivityPosition → List Text
  | nextInvestment _ _ ids => ids
  | saveInvestment _ id _ _ ids => id :: ids
  | scheduleInvestments _ ids => ids
  | investmentsCreated ids => ids
  | _ => []

def unsavedInvestmentIds : ActivityPosition → List Text
  | saveInvestment _ id _ _ _ => [id]
  | _ => []

/-- The candidates an attempt has created and not yet scheduled. -/
def unscheduledCandidateIds : ActivityPosition → List Text
  | nextCandidate _ ids => ids
  | saveCandidate id _ _ ids => id :: ids
  | scheduleCandidates remaining _ => remaining
  | _ => []

def unsavedCandidateIds : ActivityPosition → List Text
  | saveCandidate id _ _ _ => [id]
  | _ => []

end ActivityPosition

/-- The wallet whose row an attempt is about to replace. -/
def replacedWallet : Position → ActivityPosition → Option Text
  | .finishing walletId _ _, .saveReady _ => some walletId
  | .aborting walletId, .saveAborted _ => some walletId
  | _, _ => none

namespace State

def walletNumbers (s : State) : Numbered Text Wallet :=
  { sequence := s.walletSequence
    rows := s.wallets
    held := s.attempts.flatMap fun attempt => attempt.position.walletIds
    unsaved := s.attempts.flatMap fun attempt => attempt.position.unsavedWalletIds }

def investmentNumbers (s : State) : Numbered Text Investment :=
  { sequence := s.investmentSequence
    rows := s.investments
    held := s.attempts.flatMap fun attempt => attempt.position.createdInvestmentIds
    unsaved := s.attempts.flatMap fun attempt => attempt.position.unsavedInvestmentIds }

def candidateNumbers (s : State) : Numbered Text FinancialEventCandidate :=
  { sequence := s.candidateSequence
    rows := s.candidates
    held := s.attempts.flatMap (fun attempt => attempt.position.unscheduledCandidateIds) ++
      s.candidateJobs.map CandidateJob.candidateId
    unsaved := s.attempts.flatMap fun attempt => attempt.position.unsavedCandidateIds }

end State

section Changes

open Numbered

variable {workflowId : Text} {s s' : State} {call : Position}
  {position position' : ActivityPosition}

/-- What a step of an attempt does to the wallets. -/
theorem ActivityStep.walletChange (h : ActivityStep workflowId s call position position' s')
    (hreplaced : ∀ id ∈ replacedWallet call position, s.wallets id ≠ none) :
    Change walletId
      ⟨s.walletSequence, s.wallets, position.walletIds, position.unsavedWalletIds⟩
      ⟨s'.walletSequence, s'.wallets, position'.walletIds, position'.unsavedWalletIds⟩ := by
  cases h with
  | createWallet => exact .next rfl rfl .rfl .rfl
  | saveWallet investorId id => exact .save id (newWallet investorId) rfl rfl .rfl .rfl
  | saveReady walletId _ _ wallet =>
    exact .replace walletId _ (hreplaced walletId rfl) rfl rfl .rfl .rfl
  | saveAborted walletId wallet =>
    exact .replace walletId _ (hreplaced walletId rfl) rfl rfl .rfl .rfl
  | _ => exact .keep rfl rfl .rfl .rfl

/-- What it does to the investments. -/
theorem ActivityStep.investmentChange (h : ActivityStep workflowId s call position position' s') :
    Change investmentId
      ⟨s.investmentSequence, s.investments, position.createdInvestmentIds,
        position.unsavedInvestmentIds⟩
      ⟨s'.investmentSequence, s'.investments, position'.createdInvestmentIds,
        position'.unsavedInvestmentIds⟩ := by
  cases h with
  | nextInvestment => exact .next rfl rfl .rfl .rfl
  | saveInvestment investorId walletId profile id base bases ids =>
    exact .save id (newInvestment walletId investorId profile base) rfl rfl
      (List.perm_append_singleton id ids) .rfl
  | _ => exact .keep rfl rfl .rfl .rfl

/-- What it does to the candidates. -/
theorem ActivityStep.candidateChange (h : ActivityStep workflowId s call position position' s') :
    Change candidateId
      ⟨s.candidateSequence, s.candidates,
        position.unscheduledCandidateIds ++ s.candidateJobs.map CandidateJob.candidateId,
        position.unsavedCandidateIds⟩
      ⟨s'.candidateSequence, s'.candidates,
        position'.unscheduledCandidateIds ++ s'.candidateJobs.map CandidateJob.candidateId,
        position'.unsavedCandidateIds⟩ := by
  cases h with
  | nextCandidate => exact .next rfl rfl .rfl .rfl
  | saveCandidate walletId all id investmentId investmentIds ids =>
    exact .save id (newCandidate investmentId) rfl rfl
      ((List.perm_append_singleton id ids).append_right _) .rfl
  | scheduleCandidate walletId all id remaining ids =>
    -- the id goes from the attempt to its job
    refine .keep rfl rfl ?_ .rfl
    rw [List.map_append, ← List.append_assoc]
    exact List.perm_append_singleton id _
  | _ => exact .keep rfl rfl .rfl .rfl

end Changes

/-! ## Rows that are about to be replaced -/

def CandidateJobPosition.replaces : CandidateJobPosition → Bool
  | saveFailing _ _ => true
  | saveMatched _ _ => true
  | saveRejected _ => true
  | _ => false

/-- What is about to be replaced is stored. -/
structure Stored (s : State) : Prop where
  wallets : ∀ attempt ∈ s.attempts, ∀ id ∈ replacedWallet attempt.call attempt.position,
    s.wallets id ≠ none
  investments : ∀ job ∈ s.investmentJobs, ∀ persisted, job.position = .save persisted →
    s.investments job.investmentId ≠ none
  candidates : ∀ job ∈ s.candidateJobs, job.position.replaces = true →
    s.candidates job.candidateId ≠ none

section Steps

open Numbered

variable {policy : BackgroundJobPolicy} {s s' : State}

/-- An attempt begins with empty hands. -/
theorem ids_of_activity {call : Position} {position : ActivityPosition}
    (h : call.activity = some position) :
    position.walletIds = [] ∧ position.unsavedWalletIds = [] ∧
      position.createdInvestmentIds = [] ∧ position.unsavedInvestmentIds = [] ∧
      position.unscheduledCandidateIds = [] ∧ position.unsavedCandidateIds = [] ∧
      replacedWallet call position = none := by
  cases call with
  -- these wait for no activity
  | notStarted => cases h
  | awaiting => cases h
  | closed => cases h
  | _ =>
    obtain rfl := Option.some.inj h
    exact ⟨rfl, rfl, rfl, rfl, rfl, rfl, rfl⟩

theorem map_candidateId_set {jobs : List CandidateJob} {i : ℕ} {job : CandidateJob}
    (h : jobs[i]? = some job) (position : CandidateJobPosition) :
    (jobs.set i { job with position }).map CandidateJob.candidateId =
      jobs.map CandidateJob.candidateId := by
  obtain ⟨hi, rfl⟩ := List.getElem?_eq_some_iff.mp h
  rw [List.map_set]
  exact (congrArg _ (List.getElem_map CandidateJob.candidateId).symm).trans
    (List.set_getElem_self (by simpa using hi))

theorem InvestmentJobStep.change {id : Text} {position position' : InvestmentJobPosition}
    (h : InvestmentJobStep s id position position' s')
    (hstored : ∀ persisted, position = .save persisted → s.investments id ≠ none)
    (held unsaved : List Text) :
    Change investmentId ⟨s.investmentSequence, s.investments, held, unsaved⟩
      ⟨s'.investmentSequence, s'.investments, held, unsaved⟩ := by
  cases h with
  | find => exact .keep rfl rfl .rfl .rfl
  | save persisted => exact .replace id _ (hstored persisted rfl) rfl rfl .rfl .rfl

theorem CandidateJobStep.change {workflowId id : Text} {position position' : CandidateJobPosition}
    (h : CandidateJobStep policy s workflowId id position position' s')
    (hstored : position.replaces = true → s.candidates id ≠ none) (held unsaved : List Text) :
    Change candidateId ⟨s.candidateSequence, s.candidates, held, unsaved⟩
      ⟨s'.candidateSequence, s'.candidates, held, unsaved⟩ := by
  cases h with
  | saveFailing => exact .replace id _ (hstored rfl) rfl rfl .rfl .rfl
  | saveMatched => exact .replace id _ (hstored rfl) rfl rfl .rfl .rfl
  | saveRejected => exact .replace id _ (hstored rfl) rfl rfl .rfl .rfl
  | _ => exact .keep rfl rfl .rfl .rfl

theorem Step.walletChange (h : Step policy s s') (hs : Stored s) :
    Change walletId s.walletNumbers s'.walletNumbers := by
  cases h with
  | workflow => exact .keep rfl rfl .rfl .rfl
  | begin workflowId position hposition =>
    obtain ⟨hheld, hunsaved, -⟩ := ids_of_activity hposition
    refine .keep rfl rfl ?_ ?_ <;> simp [State.walletNumbers, hheld, hunsaved]
  | attempt i attempt position s₁ hattempt hstep =>
    have hchange := hstep.walletChange
      (hs.wallets attempt (List.mem_of_getElem? hattempt))
    -- what the attempt has in hands changes, the other attempts frame it
    obtain ⟨held, hheld, hheld'⟩ := exists_flatMap_set_perm hattempt
      fun attempt => attempt.position.walletIds
    obtain ⟨unsaved, hunsaved, hunsaved'⟩ := exists_flatMap_set_perm hattempt
      fun attempt => attempt.position.unsavedWalletIds
    exact hchange.frame rfl rfl rfl rfl hheld (hheld' _) hunsaved (hunsaved' _)
  | investmentJob i job position s₁ hjob hstep =>
    refine .keep hstep.outside.walletSequence hstep.outside.wallets ?_ ?_ <;>
      simp [State.walletNumbers, hstep.outside.attempts]
  | candidateJob i job position s₁ hjob hstep =>
    refine .keep hstep.outside.walletSequence hstep.outside.wallets ?_ ?_ <;>
      simp [State.walletNumbers, hstep.outside.attempts]

theorem Step.investmentChange (h : Step policy s s') (hs : Stored s) :
    Change investmentId s.investmentNumbers s'.investmentNumbers := by
  cases h with
  | workflow => exact .keep rfl rfl .rfl .rfl
  | begin workflowId position hposition =>
    obtain ⟨-, -, hheld, hunsaved, -⟩ := ids_of_activity hposition
    refine .keep rfl rfl ?_ ?_ <;> simp [State.investmentNumbers, hheld, hunsaved]
  | attempt i attempt position s₁ hattempt hstep =>
    obtain ⟨held, hheld, hheld'⟩ := exists_flatMap_set_perm hattempt
      fun attempt => attempt.position.createdInvestmentIds
    obtain ⟨unsaved, hunsaved, hunsaved'⟩ := exists_flatMap_set_perm hattempt
      fun attempt => attempt.position.unsavedInvestmentIds
    exact hstep.investmentChange.frame rfl rfl rfl rfl hheld (hheld' _) hunsaved (hunsaved' _)
  | investmentJob i job position s₁ hjob hstep =>
    -- the job replaces a row, and nobody's ids change hands
    have hchange := hstep.change (hs.investments job (List.mem_of_getElem? hjob))
      s.investmentNumbers.held s.investmentNumbers.unsaved
    simpa only [State.investmentNumbers, hstep.outside.attempts] using hchange
  | candidateJob i job position s₁ hjob hstep =>
    refine .keep hstep.outside.investmentSequence hstep.outside.investments ?_ ?_ <;>
      simp [State.investmentNumbers, hstep.outside.attempts]

theorem Step.candidateChange (h : Step policy s s') (hs : Stored s) :
    Change candidateId s.candidateNumbers s'.candidateNumbers := by
  cases h with
  | workflow => exact .keep rfl rfl .rfl .rfl
  | begin workflowId position hposition =>
    obtain ⟨-, -, -, -, hheld, hunsaved, -⟩ := ids_of_activity hposition
    refine .keep rfl rfl ?_ ?_ <;>
      simp [State.candidateNumbers, State.setWorkflow, hheld, hunsaved]
  | attempt i attempt position s₁ hattempt hstep =>
    obtain ⟨held, hheld, hheld'⟩ := exists_flatMap_set_perm hattempt
      fun attempt => attempt.position.unscheduledCandidateIds
    obtain ⟨unsaved, hunsaved, hunsaved'⟩ := exists_flatMap_set_perm hattempt
      fun attempt => attempt.position.unsavedCandidateIds
    -- the jobs come before the other attempts
    have hswap : ∀ xs ys zs : List Text, ((xs ++ ys) ++ zs).Perm ((xs ++ zs) ++ ys) := by
      intro xs ys zs
      rw [List.append_assoc, List.append_assoc]
      exact List.perm_append_comm.append_left xs
    exact hstep.candidateChange.frame rfl rfl rfl rfl
      ((hheld.append_right _).trans (hswap _ _ _)) (((hheld' _).append_right _).trans (hswap _ _ _))
      hunsaved (hunsaved' _)
  | investmentJob i job position s₁ hjob hstep =>
    refine .keep hstep.outside.candidateSequence hstep.outside.candidates ?_ ?_ <;>
      simp [State.candidateNumbers, hstep.outside.attempts, hstep.outside.candidateJobs]
  | candidateJob i job position s₁ hjob hstep =>
    -- the job replaces a row, and keeps its candidate
    have hchange := hstep.change (hs.candidates job (List.mem_of_getElem? hjob))
      s.candidateNumbers.held s.candidateNumbers.unsaved
    simpa only [State.candidateNumbers, hstep.outside.attempts,
      map_candidateId_set hjob] using hchange

/-- What an attempt is about to replace after a step was stored before it. -/
theorem ActivityStep.stored {workflowId : Text} {call : Position}
    {position position' : ActivityPosition}
    (h : ActivityStep workflowId s call position position' s') :
    ∀ id ∈ replacedWallet call position', s.wallets id ≠ none := by
  intro id hid
  cases h with
  | findToFinish _ _ _ wallet hwallet | findToAbort _ wallet hwallet =>
    obtain rfl := Option.some.inj hid
    rw [hwallet]
    simp
  | _ => cases hid

theorem InvestmentJobStep.stored {id : Text} {position position' : InvestmentJobPosition}
    (h : InvestmentJobStep s id position position' s') {persisted : Investment}
    (hposition : position' = .save persisted) : s.investments id ≠ none := by
  cases h with
  | find _ hpersisted =>
    rw [hpersisted]
    simp
  | save => cases hposition

theorem CandidateJobStep.stored {workflowId id : Text} {position position' : CandidateJobPosition}
    (h : CandidateJobStep policy s workflowId id position position' s')
    (hreplaces : position'.replaces = true) : s.candidates id ≠ none := by
  cases h with
  | findFailing _ _ hcandidate | findMatched _ _ hcandidate | findRejected _ hcandidate =>
    rw [hcandidate]
    simp
  | _ => cases hreplaces

theorem Step.stored (h : Step policy s s') (hs : Stored s) : Stored s' := by
  have hwallets : ∀ {id}, s.wallets id ≠ none → s'.wallets id ≠ none :=
    (h.walletChange hs).rows_ne_none
  have hinvestments : ∀ {id}, s.investments id ≠ none → s'.investments id ≠ none :=
    (h.investmentChange hs).rows_ne_none
  have hcandidates : ∀ {id}, s.candidates id ≠ none → s'.candidates id ≠ none :=
    (h.candidateChange hs).rows_ne_none
  refine ⟨fun attempt hattempt id hid => hwallets ?_, fun job hjob persisted hp => hinvestments ?_,
    fun job hjob hreplaces => hcandidates ?_⟩
  -- what was stored stays so; it remains that who replaces a row has found it before
  · rcases h.attempt_origin hattempt with hattempt | ⟨-, hbegin⟩ | ⟨_, _, _, -, hstep, -⟩
    · exact hs.wallets attempt hattempt id hid
    · obtain ⟨-, -, -, -, -, -, hnone⟩ := ids_of_activity hbegin
      rw [hnone] at hid
      cases hid
    · exact hstep.stored id hid
  · rcases h.investmentJob_origin hjob with hjob | hfind | ⟨_, _, _, -, hstep, -⟩
    · exact hs.investments job hjob persisted hp
    · rw [hfind] at hp
      cases hp
    · exact hstep.stored hp
  · rcases h.candidateJob_origin hjob with hjob | hloop | ⟨_, _, _, -, hstep, -⟩
    · exact hs.candidates job hjob hreplaces
    · rw [hloop] at hreplaces
      cases hreplaces
    · exact hstep.stored hreplaces

end Steps

/-! ## The invariant -/

/-- The counters have not gone further than in another state. -/
structure State.Within (s final : State) : Prop where
  wallets : s.walletSequence ≤ final.walletSequence
  investments : s.investmentSequence ≤ final.investmentSequence
  candidates : s.candidateSequence ≤ final.candidateSequence

/-- No counter has wrapped around. -/
structure State.Unwrapped (final : State) : Prop where
  wallets : final.walletSequence ≤ 2 ^ 32
  investments : final.investmentSequence ≤ 2 ^ 32
  candidates : final.candidateSequence ≤ 2 ^ 32

/-- Every table is well numbered, as far as the counters go until `final`. -/
structure Identified (final s : State) : Prop where
  wallets : s.walletNumbers.WellNumbered walletId final.walletSequence
  investments : s.investmentNumbers.WellNumbered investmentId final.investmentSequence
  candidates : s.candidateNumbers.WellNumbered candidateId final.candidateSequence
  stored : Stored s

section Invariant

open Numbered

variable {policy : BackgroundJobPolicy} {s s' final : State}

theorem Step.within (h : Step policy s s') (hs : Stored s) : s.Within s' :=
  ⟨(h.walletChange hs).sequence_le, (h.investmentChange hs).sequence_le,
    (h.candidateChange hs).sequence_le⟩

theorem Step.identified (h : Step policy s s') (hfinal : final.Unwrapped) (hs : Identified final s)
    (hwithin : s'.Within final) : Identified final s' where
  wallets := hs.wallets.change (walletId_injOn.mono (Set.Ioc_subset_Ioc_right hfinal.wallets))
    (h.walletChange hs.stored) hwithin.wallets
  investments :=
    hs.investments.change (investmentId_injOn.mono (Set.Ioc_subset_Ioc_right hfinal.investments))
      (h.investmentChange hs.stored) hwithin.investments
  candidates :=
    hs.candidates.change (candidateId_injOn.mono (Set.Ioc_subset_Ioc_right hfinal.candidates))
      (h.candidateChange hs.stored) hwithin.candidates
  stored := h.stored hs.stored

end Invariant

end SampleWallet
