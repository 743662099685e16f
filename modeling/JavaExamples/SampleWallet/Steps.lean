import JavaExamples.SampleWallet.Workflow

/-!
# What the parties of the workflow do

The steps of the model, one constructor for each, with what is known when it is taken. Later proofs
split on these and do not unfold the step functions.

* `ActivityStep`, `InvestmentJobStep`, `CandidateJobStep`, `WorkflowStep`: the steps of each party.
* `step_fired`, `step_cases`: every step of the system is one of these, and which event takes it.
-/

namespace SampleWallet

/-- The steps of `activityStep`. -/
inductive ActivityStep (workflowId : Text) (s : State) :
    Position → ActivityPosition → ActivityPosition → State → Prop where
  | createWallet (investorId : Text) :
      ActivityStep workflowId s (.creatingWallet investorId) .createWallet
        (.saveWallet (walletId (s.walletSequence + 1)))
        { s with walletSequence := s.walletSequence + 1 }
  | saveWallet (investorId id : Text) :
      ActivityStep workflowId s (.creatingWallet investorId) (.saveWallet id) (.walletCreated id)
        { s with wallets := save id (newWallet investorId) s.wallets }
  | createInvestments (investorId walletId : Text) (profile : InvestorProfile) :
      ActivityStep workflowId s (.creatingInvestments investorId walletId) .createInvestments
        (.nextInvestment profile (BASE_INVESTMENTS_BY_PROFILE profile) []) s
  | nextInvestment (investorId walletId : Text) (profile : InvestorProfile) (base : Text)
      (bases ids : List Text) :
      ActivityStep workflowId s (.creatingInvestments investorId walletId)
        (.nextInvestment profile (base :: bases) ids)
        (.saveInvestment profile (investmentId (s.investmentSequence + 1)) base bases ids)
        { s with investmentSequence := s.investmentSequence + 1 }
  | saveInvestment (investorId walletId : Text) (profile : InvestorProfile) (id base : Text)
      (bases ids : List Text) :
      ActivityStep workflowId s (.creatingInvestments investorId walletId)
        (.saveInvestment profile id base bases ids) (.nextInvestment profile bases (ids ++ [id]))
        { s with
          investments := save id (newInvestment walletId investorId profile base) s.investments }
  | investmentsSaved (investorId walletId : Text) (profile : InvestorProfile) (ids : List Text) :
      ActivityStep workflowId s (.creatingInvestments investorId walletId)
        (.nextInvestment profile [] ids) (.scheduleInvestments ids ids) s
  | scheduleInvestment (investorId walletId id : Text) (remaining ids : List Text) :
      ActivityStep workflowId s (.creatingInvestments investorId walletId)
        (.scheduleInvestments (id :: remaining) ids) (.scheduleInvestments remaining ids)
        { s with investmentJobs := s.investmentJobs ++ [⟨id, .find⟩] }
  | investmentsScheduled (investorId walletId : Text) (ids : List Text) :
      ActivityStep workflowId s (.creatingInvestments investorId walletId)
        (.scheduleInvestments [] ids) (.investmentsCreated ids) s
  | nextCandidate (walletId : Text) (all : List Text) (investmentId : Text)
      (investmentIds ids : List Text) :
      ActivityStep workflowId s (.creatingCandidates walletId all)
        (.nextCandidate (investmentId :: investmentIds) ids)
        (.saveCandidate (candidateId (s.candidateSequence + 1)) investmentId investmentIds ids)
        { s with candidateSequence := s.candidateSequence + 1 }
  | saveCandidate (walletId : Text) (all : List Text) (id investmentId : Text)
      (investmentIds ids : List Text) :
      ActivityStep workflowId s (.creatingCandidates walletId all)
        (.saveCandidate id investmentId investmentIds ids)
        (.nextCandidate investmentIds (ids ++ [id]))
        { s with candidates := save id (newCandidate investmentId) s.candidates }
  | candidatesSaved (walletId : Text) (all ids : List Text) :
      ActivityStep workflowId s (.creatingCandidates walletId all) (.nextCandidate [] ids)
        (.scheduleCandidates ids ids) s
  | scheduleCandidate (walletId : Text) (all : List Text) (id : Text) (remaining ids : List Text) :
      ActivityStep workflowId s (.creatingCandidates walletId all)
        (.scheduleCandidates (id :: remaining) ids) (.scheduleCandidates remaining ids)
        { s with candidateJobs := s.candidateJobs ++ [⟨workflowId, id, .loop 1⟩] }
  | candidatesScheduled (walletId : Text) (all ids : List Text) :
      ActivityStep workflowId s (.creatingCandidates walletId all) (.scheduleCandidates [] ids)
        (.candidatesCreated ids) s
  | fanOut (walletId : Text) (investmentIds candidateIds : List Text) :
      ActivityStep workflowId s (.fanningOut walletId investmentIds candidateIds) .fanOutCandidates
        .fannedOut s
  | findToFinish (walletId : Text) (investmentIds candidateIds : List Text) (wallet : Wallet)
      (hwallet : s.wallets walletId = some wallet) :
      ActivityStep workflowId s (.finishing walletId investmentIds candidateIds) .findWallet
        (.saveReady wallet) s
  | saveReady (walletId : Text) (investmentIds candidateIds : List Text) (wallet : Wallet) :
      ActivityStep workflowId s (.finishing walletId investmentIds candidateIds) (.saveReady wallet)
        .finished { s with wallets := save walletId { wallet with status := .READY } s.wallets }
  | nothingToAbort (walletId : Text) :
      ActivityStep workflowId s (.aborting walletId) .findWallet .aborted s
  | findToAbort (walletId : Text) (wallet : Wallet) (hwallet : s.wallets walletId = some wallet) :
      ActivityStep workflowId s (.aborting walletId) .findWallet (.saveAborted wallet) s
  | saveAborted (walletId : Text) (wallet : Wallet) :
      ActivityStep workflowId s (.aborting walletId) (.saveAborted wallet) .aborted
        { s with wallets := save walletId { wallet with status := .ABORTED } s.wallets }

theorem activityStep_cases {found : Option InvestorProfile} {workflowId : Text} {s s' : State}
    {call : Position} {position position' : ActivityPosition}
    (h : activityStep found workflowId s call position = some (position', s')) :
    ActivityStep workflowId s call position position' s' := by
  unfold activityStep at h
  split at h
  -- the activities that look for a row, and all others
  case h_17 =>
    split at h
    · obtain ⟨rfl, rfl⟩ := Prod.mk.inj (Option.some.inj h)
      exact .nothingToAbort _
    · next wallet hwallet =>
      split_ifs at h
      · obtain ⟨rfl, rfl⟩ := Prod.mk.inj (Option.some.inj h)
        exact .nothingToAbort _
      · obtain ⟨rfl, rfl⟩ := Prod.mk.inj (Option.some.inj h)
        exact .findToAbort _ wallet hwallet
  all_goals simp only [Option.some.injEq, Prod.mk.injEq, Option.map_eq_some_iff, reduceCtorEq] at h
  case h_3 =>
    obtain ⟨profile, -, rfl, rfl⟩ := h
    exact .createInvestments _ _ profile
  case h_15 =>
    obtain ⟨wallet, hwallet, rfl, rfl⟩ := h
    exact .findToFinish _ _ _ wallet hwallet
  all_goals
    obtain ⟨rfl, rfl⟩ := h
    constructor

/-- The steps of an investment job. -/
inductive InvestmentJobStep (s : State) (id : Text) :
    InvestmentJobPosition → InvestmentJobPosition → State → Prop where
  | find (persisted : Investment) (hpersisted : s.investments id = some persisted) :
      InvestmentJobStep s id .find (.save persisted) s
  | save (persisted : Investment) :
      InvestmentJobStep s id (.save persisted) .done
        { s with
          investments := SampleWallet.save id { persisted with created := true } s.investments }

theorem investmentJobStep_cases {s s' : State} {id : Text}
    {position position' : InvestmentJobPosition}
    (h : investmentJobStep s id position = some (position', s')) :
    InvestmentJobStep s id position position' s' := by
  cases position with
  | find =>
    obtain ⟨persisted, hpersisted, hstep⟩ := Option.map_eq_some_iff.mp h
    obtain ⟨rfl, rfl⟩ := Prod.mk.inj hstep
    exact .find persisted hpersisted
  | save persisted =>
    obtain ⟨rfl, rfl⟩ := Prod.mk.inj (Option.some.inj h)
    exact .save persisted
  | done => cases h

/-- The steps of a candidate job. -/
inductive CandidateJobStep (policy : BackgroundJobPolicy) (s : State) (workflowId id : Text) :
    CandidateJobPosition → CandidateJobPosition → State → Prop where
  | again (attempts : ℤ) (hattempts : attempts ≤ policy.maxCandidateAttempts) :
      CandidateJobStep policy s workflowId id (.loop attempts) (.findCandidate attempts) s
  | enough (attempts : ℤ) (hattempts : policy.maxCandidateAttempts < attempts) :
      CandidateJobStep policy s workflowId id (.loop attempts) .findRejected s
  | findCandidate (attempts : ℤ) (candidate : FinancialEventCandidate)
      (hcandidate : s.candidates id = some candidate) :
      CandidateJobStep policy s workflowId id (.findCandidate attempts)
        (.findInvestment attempts candidate.investmentId) s
  | notCreated (attempts : ℤ) (investmentId : Text) :
      CandidateJobStep policy s workflowId id (.findInvestment attempts investmentId)
        (.findCandidate attempts) s
  | created (attempts : ℤ) (investmentId : Text) (investment : Investment)
      (hinvestment : s.investments investmentId = some investment)
      (hcreated : investment.created = true) :
      CandidateJobStep policy s workflowId id (.findInvestment attempts investmentId)
        (.process attempts) s
  | slow (attempts : ℤ) :
      CandidateJobStep policy s workflowId id (.process attempts) (nextAttempt attempts) s
  | failing (attempts : ℤ) :
      CandidateJobStep policy s workflowId id (.process attempts) (.findFailing attempts)
        { s with failedOnceCandidateIds := insert id s.failedOnceCandidateIds }
  | matching (attempts : ℤ) :
      CandidateJobStep policy s workflowId id (.process attempts) (.findMatched attempts) s
  | findFailing (attempts : ℤ) (candidate : FinancialEventCandidate)
      (hcandidate : s.candidates id = some candidate) :
      CandidateJobStep policy s workflowId id (.findFailing attempts)
        (.saveFailing attempts candidate) s
  | saveFailing (attempts : ℤ) (candidate : FinancialEventCandidate) :
      CandidateJobStep policy s workflowId id (.saveFailing attempts candidate)
        (nextAttempt attempts)
        { s with candidates := save id { candidate with attempts } s.candidates }
  | findMatched (attempts : ℤ) (candidate : FinancialEventCandidate)
      (hcandidate : s.candidates id = some candidate) :
      CandidateJobStep policy s workflowId id (.findMatched attempts)
        (.saveMatched attempts candidate) s
  | saveMatched (attempts : ℤ) (candidate : FinancialEventCandidate) :
      CandidateJobStep policy s workflowId id (.saveMatched attempts candidate)
        (.signalProcessed (processedCandidate attempts candidate))
        { s with candidates := save id (processedCandidate attempts candidate) s.candidates }
  | findRejected (candidate : FinancialEventCandidate)
      (hcandidate : s.candidates id = some candidate) :
      CandidateJobStep policy s workflowId id .findRejected (.saveRejected candidate) s
  | saveRejected (candidate : FinancialEventCandidate) :
      CandidateJobStep policy s workflowId id (.saveRejected candidate)
        (.signalProcessed (rejectedCandidate policy candidate))
        { s with candidates := save id (rejectedCandidate policy candidate) s.candidates }
  | signalProcessed (candidate : FinancialEventCandidate) :
      CandidateJobStep policy s workflowId id (.signalProcessed candidate) .done
        { s with signals := s.signals ++ [⟨workflowId, id, candidate.status, candidate.processed⟩] }

theorem candidateJobStep_cases {policy : BackgroundJobPolicy} {s s' : State} {workflowId id : Text}
    {position position' : CandidateJobPosition}
    (h : candidateJobStep policy s workflowId id position = some (position', s')) :
    CandidateJobStep policy s workflowId id position position' s' := by
  cases position with
  -- the position decides the step, but for the tests on rows and on the policy
  | loop attempts =>
    obtain ⟨rfl, rfl⟩ := Prod.mk.inj (Option.some.inj h)
    split_ifs with hattempts
    · exact .again attempts hattempts
    · exact .enough attempts (not_le.mp hattempts)
  | findCandidate attempts =>
    obtain ⟨candidate, hcandidate, hstep⟩ := Option.map_eq_some_iff.mp h
    obtain ⟨rfl, rfl⟩ := Prod.mk.inj hstep
    exact .findCandidate attempts candidate hcandidate
  | findInvestment attempts investmentId =>
    obtain ⟨investment, hinvestment, hstep⟩ := Option.map_eq_some_iff.mp h
    obtain ⟨rfl, rfl⟩ := Prod.mk.inj hstep
    split_ifs with hcreated
    · exact .created attempts investmentId investment hinvestment hcreated
    · exact .notCreated attempts investmentId
  | process attempts =>
    rw [candidateJobStep] at h
    split_ifs at h
    · obtain ⟨rfl, rfl⟩ := Prod.mk.inj (Option.some.inj h)
      exact .slow attempts
    · obtain ⟨rfl, rfl⟩ := Prod.mk.inj (Option.some.inj h)
      exact .failing attempts
    · obtain ⟨rfl, rfl⟩ := Prod.mk.inj (Option.some.inj h)
      exact .matching attempts
  | findFailing attempts =>
    obtain ⟨candidate, hcandidate, hstep⟩ := Option.map_eq_some_iff.mp h
    obtain ⟨rfl, rfl⟩ := Prod.mk.inj hstep
    exact .findFailing attempts candidate hcandidate
  | saveFailing attempts candidate =>
    obtain ⟨rfl, rfl⟩ := Prod.mk.inj (Option.some.inj h)
    exact .saveFailing attempts candidate
  | findMatched attempts =>
    obtain ⟨candidate, hcandidate, hstep⟩ := Option.map_eq_some_iff.mp h
    obtain ⟨rfl, rfl⟩ := Prod.mk.inj hstep
    exact .findMatched attempts candidate hcandidate
  | saveMatched attempts candidate =>
    obtain ⟨rfl, rfl⟩ := Prod.mk.inj (Option.some.inj h)
    exact .saveMatched attempts candidate
  | findRejected =>
    obtain ⟨candidate, hcandidate, hstep⟩ := Option.map_eq_some_iff.mp h
    obtain ⟨rfl, rfl⟩ := Prod.mk.inj hstep
    exact .findRejected candidate hcandidate
  | saveRejected candidate =>
    obtain ⟨rfl, rfl⟩ := Prod.mk.inj (Option.some.inj h)
    exact .saveRejected candidate
  | signalProcessed candidate =>
    obtain ⟨rfl, rfl⟩ := Prod.mk.inj (Option.some.inj h)
    exact .signalProcessed candidate
  | done => cases h

/-- The steps of `returned`. -/
inductive Returned : Position → ActivityPosition → Position → Prop where
  | walletCreated (investorId walletId : Text) :
      Returned (.creatingWallet investorId) (.walletCreated walletId)
        (.creatingInvestments investorId walletId)
  | investmentsCreated (investorId walletId : Text) (investmentIds : List Text) :
      Returned (.creatingInvestments investorId walletId) (.investmentsCreated investmentIds)
        (.creatingCandidates walletId investmentIds)
  | candidatesCreated (walletId : Text) (investmentIds candidateIds : List Text) :
      Returned (.creatingCandidates walletId investmentIds) (.candidatesCreated candidateIds)
        (.fanningOut walletId investmentIds candidateIds)
  | fannedOut (walletId : Text) (investmentIds candidateIds : List Text) :
      Returned (.fanningOut walletId investmentIds candidateIds) .fannedOut
        (.awaiting walletId investmentIds candidateIds)
  | finished (walletId : Text) (investmentIds candidateIds : List Text) :
      Returned (.finishing walletId investmentIds candidateIds) .finished .closed
  | aborted (walletId : Text) : Returned (.aborting walletId) .aborted .closed

theorem returned_cases {call position' : Position} {position : ActivityPosition}
    (h : returned call position = some position') : Returned call position position' := by
  unfold returned at h
  split at h
  case h_7 => cases h
  all_goals
    obtain rfl := Option.some.inj h
    constructor

/-- The steps of a workflow: on to another position, or only the signals it has seen. -/
inductive WorkflowStep (s : State) (workflowId : Text) : Workflow → Prop where
  | start (investorId : Text) (hposition : (s.workflows workflowId).position = .notStarted) :
      WorkflowStep s workflowId
        { s.workflows workflowId with position := .creatingWallet investorId, attempts := 0 }
  | complete (attempt : Attempt) (hattempt : attempt ∈ s.attempts)
      (hworkflow : attempt.workflowId = workflowId) (position : Position)
      (hreturned : Returned attempt.call attempt.position position)
      (hposition : (s.workflows workflowId).position = attempt.call) :
      WorkflowStep s workflowId { s.workflows workflowId with position, attempts := 0 }
  | unblock (walletId : Text) (investmentIds candidateIds : List Text)
      (hposition : (s.workflows workflowId).position =
        .awaiting walletId investmentIds candidateIds)
      (hprocessed : ∀ id ∈ candidateIds,
        (s.workflows workflowId).processedCandidates id = some true) :
      WorkflowStep s workflowId
        { s.workflows workflowId with
          position := .finishing walletId investmentIds candidateIds, attempts := 0 }
  | timeOut (walletId : Text) (investmentIds candidateIds : List Text)
      (hposition : (s.workflows workflowId).position =
        .awaiting walletId investmentIds candidateIds) :
      WorkflowStep s workflowId
        { s.workflows workflowId with position := .aborting walletId, attempts := 0 }
  | fail (hposition : (s.workflows workflowId).position ≠ .notStarted) :
      WorkflowStep s workflowId { s.workflows workflowId with position := .closed, attempts := 0 }
  | deliver (signal : Signal) (hsignal : signal ∈ s.signals)
      (hworkflow : signal.workflowId = workflowId) :
      WorkflowStep s workflowId
        (candidateProcessed signal.candidateId signal.status signal.processed
          (s.workflows workflowId))

/-- The steps of the system. -/
inductive Step (policy : BackgroundJobPolicy) (s : State) : State → Prop where
  | workflow (workflowId : Text) (workflow : Workflow)
    (hstep : WorkflowStep s workflowId workflow) :
      Step policy s (s.setWorkflow workflowId workflow)
  | begin (workflowId : Text) (position : ActivityPosition)
      (hposition : (s.workflows workflowId).position.activity = some position) :
      Step policy s
        { s.setWorkflow workflowId
            { s.workflows workflowId with attempts := (s.workflows workflowId).attempts + 1 } with
          attempts := s.attempts ++ [⟨workflowId, (s.workflows workflowId).position, position⟩] }
  | attempt (i : ℕ) (attempt : Attempt) (position : ActivityPosition) (s' : State)
      (hattempt : s.attempts[i]? = some attempt)
      (hstep : ActivityStep attempt.workflowId s attempt.call attempt.position position s') :
      Step policy s { s' with attempts := s.attempts.set i { attempt with position } }
  | investmentJob (i : ℕ) (job : InvestmentJob) (position : InvestmentJobPosition) (s' : State)
      (hjob : s.investmentJobs[i]? = some job)
      (hstep : InvestmentJobStep s job.investmentId job.position position s') :
      Step policy s { s' with investmentJobs := s.investmentJobs.set i { job with position } }
  | candidateJob (i : ℕ) (job : CandidateJob) (position : CandidateJobPosition) (s' : State)
      (hjob : s.candidateJobs[i]? = some job)
      (hstep : CandidateJobStep policy s job.workflowId job.candidateId job.position position s') :
      Step policy s { s' with candidateJobs := s.candidateJobs.set i { job with position } }

/-- What an event does, where it matters which one it is: only its start starts a workflow, and only
its own event takes a step of an attempt. -/
inductive Fired (policy : BackgroundJobPolicy) (s : State) : Event → State → Prop where
  | workflow (event : Event) (workflowId : Text) (workflow : Workflow)
      (hstep : WorkflowStep s workflowId workflow)
      (hevent : ∀ i found, event ≠ .attempt i found)
      (hstart : (s.workflows workflowId).position = .notStarted →
        workflow.position = .notStarted ∨ ∃ investorId, event = .start workflowId investorId) :
      Fired policy s event (s.setWorkflow workflowId workflow)
  | begin (workflowId : Text) (position : ActivityPosition)
      (hposition : (s.workflows workflowId).position.activity = some position) :
      Fired policy s (.begin workflowId)
        { s.setWorkflow workflowId
            { s.workflows workflowId with attempts := (s.workflows workflowId).attempts + 1 } with
          attempts := s.attempts ++ [⟨workflowId, (s.workflows workflowId).position, position⟩] }
  | attempt (i : ℕ) (found : Option InvestorProfile) (attempt : Attempt)
      (position : ActivityPosition) (s' : State) (hattempt : s.attempts[i]? = some attempt)
      (hstep : ActivityStep attempt.workflowId s attempt.call attempt.position position s') :
      Fired policy s (.attempt i found)
        { s' with attempts := s.attempts.set i { attempt with position } }
  | investmentJob (i : ℕ) (job : InvestmentJob) (position : InvestmentJobPosition) (s' : State)
      (hjob : s.investmentJobs[i]? = some job)
      (hstep : InvestmentJobStep s job.investmentId job.position position s') :
      Fired policy s (.investmentJob i)
        { s' with investmentJobs := s.investmentJobs.set i { job with position } }
  | candidateJob (i : ℕ) (job : CandidateJob) (position : CandidateJobPosition) (s' : State)
      (hjob : s.candidateJobs[i]? = some job)
      (hstep : CandidateJobStep policy s job.workflowId job.candidateId job.position position s') :
      Fired policy s (.candidateJob i)
        { s' with candidateJobs := s.candidateJobs.set i { job with position } }

theorem step_fired {policy : BackgroundJobPolicy} {s s' : State} {event : Event}
    (h : step policy s event = some s') : Fired policy s event s' := by
  -- a workflow that waits for something was started before
  have hwaits : ∀ {workflowId : Text} {position position' : Position},
      (s.workflows workflowId).position = position → position ≠ .notStarted →
      (s.workflows workflowId).position = .notStarted →
        position' = .notStarted ∨ ∃ investorId, event = .start workflowId investorId :=
    fun hposition hne hnot => absurd (hposition.symm.trans hnot) hne
  cases event with
  | start workflowId investorId =>
    rw [step] at h
    split_ifs at h with hposition
    obtain rfl := Option.some.inj h
    exact .workflow _ workflowId _ (.start investorId hposition) nofun
      fun _ => .inr ⟨investorId, rfl⟩
  | begin workflowId =>
    rw [step] at h
    split_ifs at h
    obtain ⟨position, hposition, rfl⟩ := Option.map_eq_some_iff.mp h
    exact .begin workflowId position hposition
  -- an attempt or a job takes its own step and is put back into its list
  | attempt i found =>
    obtain ⟨attempt, hattempt, h⟩ := Option.bind_eq_some_iff.mp h
    obtain ⟨⟨position, s₁⟩, hstep, h⟩ := Option.bind_eq_some_iff.mp h
    obtain rfl := Option.some.inj h
    exact .attempt i found attempt position s₁ hattempt (activityStep_cases hstep)
  -- the result counts only where the workflow still waits for it
  | complete i =>
    obtain ⟨attempt, hattempt, h⟩ := Option.bind_eq_some_iff.mp h
    obtain ⟨position, hreturned, h⟩ := Option.bind_eq_some_iff.mp h
    split_ifs at h with hposition
    obtain rfl := Option.some.inj h
    refine .workflow _ attempt.workflowId _
      (.complete attempt (List.mem_of_getElem? hattempt) rfl position (returned_cases hreturned)
        hposition) nofun (hwaits hposition fun hcall => ?_)
    -- nothing is returned to a workflow that was not started
    rw [hcall] at hreturned
    cases hreturned
  | unblock workflowId =>
    rw [step] at h
    split at h
    · next walletId investmentIds candidateIds hposition =>
      split_ifs at h with hprocessed
      obtain rfl := Option.some.inj h
      exact .workflow _ workflowId _
        (.unblock walletId investmentIds candidateIds hposition hprocessed) nofun
        (hwaits hposition nofun)
    · cases h
  | timeOut workflowId =>
    rw [step] at h
    split at h
    · next walletId investmentIds candidateIds hposition =>
      obtain rfl := Option.some.inj h
      exact .workflow _ workflowId _ (.timeOut walletId investmentIds candidateIds hposition) nofun
        (hwaits hposition nofun)
    · cases h
  | fail workflowId =>
    rw [step] at h
    split_ifs at h with hposition
    obtain rfl := Option.some.inj h
    exact .workflow _ workflowId _ (.fail hposition) nofun (hwaits rfl hposition)
  | investmentJob i =>
    obtain ⟨job, hjob, h⟩ := Option.bind_eq_some_iff.mp h
    obtain ⟨⟨position, s₁⟩, hstep, h⟩ := Option.bind_eq_some_iff.mp h
    obtain rfl := Option.some.inj h
    exact .investmentJob i job position s₁ hjob (investmentJobStep_cases hstep)
  | candidateJob i =>
    obtain ⟨job, hjob, h⟩ := Option.bind_eq_some_iff.mp h
    obtain ⟨⟨position, s₁⟩, hstep, h⟩ := Option.bind_eq_some_iff.mp h
    obtain rfl := Option.some.inj h
    exact .candidateJob i job position s₁ hjob (candidateJobStep_cases hstep)
  -- a signal moves no workflow
  | deliver i =>
    obtain ⟨signal, hsignal, h⟩ := Option.bind_eq_some_iff.mp h
    obtain rfl := Option.some.inj h
    exact .workflow _ signal.workflowId _ (.deliver signal (List.mem_of_getElem? hsignal) rfl) nofun
      fun hposition => .inl hposition

theorem step_cases {policy : BackgroundJobPolicy} {s s' : State} {event : Event}
    (h : step policy s event = some s') : Step policy s s' := by
  cases step_fired h with
  | workflow _ workflowId workflow hstep => exact .workflow workflowId workflow hstep
  | begin workflowId position hposition => exact .begin workflowId position hposition
  | attempt i _ attempt position s₁ hattempt hstep =>
    exact .attempt i attempt position s₁ hattempt hstep
  | investmentJob i job position s₁ hjob hstep => exact .investmentJob i job position s₁ hjob hstep
  | candidateJob i job position s₁ hjob hstep => exact .candidateJob i job position s₁ hjob hstep

/-! ## Where attempts, jobs and signals come from -/

section Origins

variable {policy : BackgroundJobPolicy} {s s' : State}

/-- What a step of an attempt leaves alone. -/
structure OutsideActivity (s s' : State) : Prop where
  workflows : s'.workflows = s.workflows
  attempts : s'.attempts = s.attempts
  signals : s'.signals = s.signals

/-- What a step of an investment job leaves alone. -/
structure OutsideInvestmentJob (s s' : State) : Prop where
  walletSequence : s'.walletSequence = s.walletSequence
  candidateSequence : s'.candidateSequence = s.candidateSequence
  wallets : s'.wallets = s.wallets
  candidates : s'.candidates = s.candidates
  workflows : s'.workflows = s.workflows
  attempts : s'.attempts = s.attempts
  candidateJobs : s'.candidateJobs = s.candidateJobs
  signals : s'.signals = s.signals

/-- What a step of a candidate job leaves alone. -/
structure OutsideCandidateJob (s s' : State) : Prop where
  walletSequence : s'.walletSequence = s.walletSequence
  investmentSequence : s'.investmentSequence = s.investmentSequence
  wallets : s'.wallets = s.wallets
  investments : s'.investments = s.investments
  workflows : s'.workflows = s.workflows
  attempts : s'.attempts = s.attempts
  investmentJobs : s'.investmentJobs = s.investmentJobs

theorem ActivityStep.outside {workflowId : Text} {call : Position}
    {position position' : ActivityPosition}
    (h : ActivityStep workflowId s call position position' s') : OutsideActivity s s' := by
  cases h <;> exact ⟨rfl, rfl, rfl⟩

theorem InvestmentJobStep.outside {id : Text} {position position' : InvestmentJobPosition}
    (h : InvestmentJobStep s id position position' s') : OutsideInvestmentJob s s' := by
  cases h <;> exact ⟨rfl, rfl, rfl, rfl, rfl, rfl, rfl, rfl⟩

theorem CandidateJobStep.outside {workflowId id : Text} {position position' : CandidateJobPosition}
    (h : CandidateJobStep policy s workflowId id position position' s') :
    OutsideCandidateJob s s' := by
  cases h <;> exact ⟨rfl, rfl, rfl, rfl, rfl, rfl, rfl⟩

/-- An attempt was there, has just begun, or has just taken a step. -/
theorem Step.attempt_origin (h : Step policy s s') {attempt : Attempt}
    (ha : attempt ∈ s'.attempts) :
    attempt ∈ s.attempts ∨
      (s.workflows attempt.workflowId).position = attempt.call ∧
        attempt.call.activity = some attempt.position ∨
      ∃ position i s₁, s.attempts[i]? = some { attempt with position } ∧
        ActivityStep attempt.workflowId s attempt.call position attempt.position s₁ ∧
        s' = { s₁ with attempts := s.attempts.set i attempt } := by
  cases h with
  | workflow => exact .inl ha
  | begin workflowId position hposition =>
    rcases List.mem_append.mp ha with ha | ha
    · exact .inl ha
    · obtain rfl := List.mem_singleton.mp ha
      exact .inr (.inl ⟨rfl, hposition⟩)
  -- of the list only the place of the attempt that takes the step has changed
  | attempt i old position s₁ hold hstep =>
    rcases List.mem_or_eq_of_mem_set ha with ha | rfl
    · exact .inl ha
    · exact .inr (.inr ⟨old.position, i, s₁, hold, hstep, rfl⟩)
  | investmentJob i job position s₁ hjob hstep =>
    exact .inl (hstep.outside.attempts ▸ ha)
  | candidateJob i job position s₁ hjob hstep =>
    exact .inl (hstep.outside.attempts ▸ ha)

/-- An investment job was there, has just been scheduled, or has just taken a step. -/
theorem Step.investmentJob_origin (h : Step policy s s') {job : InvestmentJob}
    (hjob : job ∈ s'.investmentJobs) :
    job ∈ s.investmentJobs ∨ job.position = .find ∨
      ∃ position i s₁, s.investmentJobs[i]? = some { job with position } ∧
        InvestmentJobStep s job.investmentId position job.position s₁ ∧
        s' = { s₁ with investmentJobs := s.investmentJobs.set i job } := by
  cases h with
  | workflow => exact .inl hjob
  | begin => exact .inl hjob
  | attempt i attempt position s₁ hattempt hstep =>
    -- jobs are scheduled by one kind of step only
    obtain ⟨workflowId, call, old⟩ := attempt
    cases hstep with
    | scheduleInvestment investorId walletId id remaining ids =>
      rcases List.mem_append.mp hjob with hjob | hjob
      · exact .inl hjob
      · obtain rfl := List.mem_singleton.mp hjob
        exact .inr (.inl rfl)
    | _ => exact .inl hjob
  | investmentJob i old position s₁ hold hstep =>
    rcases List.mem_or_eq_of_mem_set hjob with hjob | rfl
    · exact .inl hjob
    · exact .inr (.inr ⟨old.position, i, s₁, hold, hstep, rfl⟩)
  | candidateJob i old position s₁ hold hstep =>
    exact .inl (hstep.outside.investmentJobs ▸ hjob)

/-- A candidate job was there, has just been scheduled, or has just taken a step. -/
theorem Step.candidateJob_origin (h : Step policy s s') {job : CandidateJob}
    (hjob : job ∈ s'.candidateJobs) :
    job ∈ s.candidateJobs ∨ job.position = .loop 1 ∨
      ∃ position i s₁, s.candidateJobs[i]? = some { job with position } ∧
        CandidateJobStep policy s job.workflowId job.candidateId position job.position s₁ ∧
        s' = { s₁ with candidateJobs := s.candidateJobs.set i job } := by
  cases h with
  | workflow => exact .inl hjob
  | begin => exact .inl hjob
  | attempt i attempt position s₁ hattempt hstep =>
    -- jobs are scheduled by one kind of step only
    obtain ⟨workflowId, call, old⟩ := attempt
    cases hstep with
    | scheduleCandidate walletId all id remaining ids =>
      rcases List.mem_append.mp hjob with hjob | hjob
      · exact .inl hjob
      · obtain rfl := List.mem_singleton.mp hjob
        exact .inr (.inl rfl)
    | _ => exact .inl hjob
  | investmentJob i old position s₁ hold hstep =>
    exact .inl (hstep.outside.candidateJobs ▸ hjob)
  | candidateJob i old position s₁ hold hstep =>
    rcases List.mem_or_eq_of_mem_set hjob with hjob | rfl
    · exact .inl hjob
    · exact .inr (.inr ⟨old.position, i, s₁, hold, hstep, rfl⟩)

@[simp]
theorem State.setWorkflow_self (s : State) (workflowId : Text) (workflow : Workflow) :
    (s.setWorkflow workflowId workflow).workflows workflowId = workflow :=
  Function.update_self ..

theorem State.setWorkflow_of_ne {workflowId id : Text} (hid : workflowId ≠ id) (s : State)
    (workflow : Workflow) :
    (s.setWorkflow id workflow).workflows workflowId = s.workflows workflowId :=
  Function.update_of_ne hid ..

/-- A workflow stays where it is, or takes a step. -/
theorem Step.workflow_origin (h : Step policy s s') (workflowId : Text) :
    (s'.workflows workflowId).position = (s.workflows workflowId).position ∧
        (s'.workflows workflowId).processedCandidates =
          (s.workflows workflowId).processedCandidates ∨
      WorkflowStep s workflowId (s'.workflows workflowId) := by
  cases h with
  | workflow id workflow hstep =>
    by_cases hid : workflowId = id
    · subst hid
      rw [State.setWorkflow_self]
      exact .inr hstep
    · rw [State.setWorkflow_of_ne hid]
      exact .inl ⟨rfl, rfl⟩
  -- a new attempt is counted, which moves no workflow
  | begin id position hposition =>
    refine .inl ?_
    by_cases hid : workflowId = id
    · subst hid
      simp only [State.setWorkflow_self, and_self]
    · simp only [State.setWorkflow_of_ne hid, and_self]
  | attempt i attempt position s₁ hattempt hstep =>
    rw [hstep.outside.workflows]
    exact .inl ⟨rfl, rfl⟩
  | investmentJob i job position s₁ hjob hstep =>
    rw [hstep.outside.workflows]
    exact .inl ⟨rfl, rfl⟩
  | candidateJob i job position s₁ hjob hstep =>
    rw [hstep.outside.workflows]
    exact .inl ⟨rfl, rfl⟩

/-- After one place of a list was set, the elements of the others are still there. -/
theorem mem_set_of_mem {α : Type} {l : List α} {i : ℕ} {a b old : α} (hold : l[i]? = some old)
    (hb : b ∈ l) : b = old ∨ b ∈ l.set i a := by
  obtain ⟨j, hj⟩ := List.mem_iff_getElem?.mp hb
  by_cases hij : i = j
  · subst hij
    exact .inl (Option.some.inj (hj.symm.trans hold))
  · refine .inr (List.mem_iff_getElem?.mpr ⟨j, ?_⟩)
    rw [List.getElem?_set_ne hij]
    exact hj

/-- An attempt stays, and may take a step. -/
theorem Step.attempt_remains (h : Step policy s s') {attempt : Attempt}
    (ha : attempt ∈ s.attempts) :
    attempt ∈ s'.attempts ∨
      ∃ position s₁, ActivityStep attempt.workflowId s attempt.call attempt.position position s₁ ∧
        { attempt with position } ∈ s'.attempts := by
  cases h with
  | workflow => exact .inl ha
  | begin => exact .inl (List.mem_append_left _ ha)
  | attempt i old position s₁ hold hstep =>
    rcases mem_set_of_mem hold ha with rfl | ha
    · obtain ⟨hi, -⟩ := List.getElem?_eq_some_iff.mp hold
      exact .inr ⟨position, s₁, hstep, List.mem_set hi _⟩
    · exact .inl ha
  | investmentJob i job position s₁ hjob hstep =>
    exact .inl (hstep.outside.attempts ▸ ha)
  | candidateJob i job position s₁ hjob hstep =>
    exact .inl (hstep.outside.attempts ▸ ha)

/-- A candidate job stays, and may take a step. -/
theorem Step.candidateJob_remains (h : Step policy s s') {job : CandidateJob}
    (hjob : job ∈ s.candidateJobs) :
    job ∈ s'.candidateJobs ∨
      ∃ position s₁,
        CandidateJobStep policy s job.workflowId job.candidateId job.position position s₁ ∧
        { job with position } ∈ s'.candidateJobs := by
  cases h with
  | workflow => exact .inl hjob
  | begin => exact .inl hjob
  | attempt i attempt position s₁ hattempt hstep =>
    obtain ⟨workflowId, call, old⟩ := attempt
    cases hstep with
    | scheduleCandidate => exact .inl (List.mem_append_left _ hjob)
    | _ => exact .inl hjob
  | investmentJob i old position s₁ hold hstep =>
    exact .inl (hstep.outside.candidateJobs ▸ hjob)
  | candidateJob i old position s₁ hold hstep =>
    rcases mem_set_of_mem hold hjob with rfl | hjob
    · obtain ⟨hi, -⟩ := List.getElem?_eq_some_iff.mp hold
      exact .inr ⟨position, s₁, hstep, List.mem_set hi _⟩
    · exact .inl hjob

end Origins

end SampleWallet
