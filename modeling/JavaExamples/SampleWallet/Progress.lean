import JavaExamples.SampleWallet.Identifiers

/-!
# Progress of the candidates

What the tables say about a candidate and its investment, by the places its job has passed, and who
knows about it: the signals, the workflows, the attempts to finish.

* `JobProgress`: what holds of the candidate of a job.
* `Progress`: the invariant.
* `Step.progress`: every step keeps it.
* `Progress.allDone`: who is about to save READY has all candidates and investments done.
-/

namespace SampleWallet

/-! ## Rows -/

/-- The candidate is stored and belongs to the investment. -/
def CandidateOf (candidates : Table FinancialEventCandidate) (candidateId investmentId : Text) :
    Prop :=
  ∃ row, candidates candidateId = some row ∧ row.investmentId = investmentId

def Created (investments : Table Investment) (investmentId : Text) : Prop :=
  ∃ row, investments investmentId = some row ∧ row.created = true

def Processed (candidates : Table FinancialEventCandidate) (candidateId : Text) : Prop :=
  ∃ row, candidates candidateId = some row ∧ row.processed = true ∧
    (row.status = .MATCHED ∨ row.status = .REJECTED)

section Rows

variable {id : Text}

theorem CandidateOf.unique {candidates : Table FinancialEventCandidate} {candidateId i j : Text}
    (hi : CandidateOf candidates candidateId i) (hj : CandidateOf candidates candidateId j) :
    i = j := by
  obtain ⟨row, hrow, rfl⟩ := hi
  obtain ⟨row', hrow', rfl⟩ := hj
  rw [hrow] at hrow'
  rw [Option.some.inj hrow']

theorem CandidateOf.ne_of_none {candidates : Table FinancialEventCandidate} {candidateId i : Text}
    (h : CandidateOf candidates candidateId i) (hnone : candidates id = none) :
    candidateId ≠ id := by
  obtain ⟨row, hrow, -⟩ := h
  exact ne_of_stored hrow hnone

theorem Processed.ne_of_none {candidates : Table FinancialEventCandidate} {candidateId : Text}
    (h : Processed candidates candidateId) (hnone : candidates id = none) : candidateId ≠ id := by
  obtain ⟨row, hrow, -⟩ := h
  exact ne_of_stored hrow hnone

theorem Created.ne_of_none {investments : Table Investment} {investmentId : Text}
    (h : Created investments investmentId) (hnone : investments id = none) : investmentId ≠ id := by
  obtain ⟨row, hrow, -⟩ := h
  exact ne_of_stored hrow hnone

theorem CandidateOf.save {candidates : Table FinancialEventCandidate} {candidateId i : Text}
    {row : FinancialEventCandidate} (h : CandidateOf candidates candidateId i)
    (hrow : candidateId = id → row.investmentId = i) :
    CandidateOf (save id row candidates) candidateId i := by
  by_cases hid : candidateId = id
  · subst hid
    exact ⟨row, save_self, hrow rfl⟩
  · obtain ⟨old, hold, hi⟩ := h
    exact ⟨old, (save_of_ne hid).trans hold, hi⟩

theorem Processed.save {candidates : Table FinancialEventCandidate} {candidateId : Text}
    {row : FinancialEventCandidate} (h : Processed candidates candidateId)
    (hid : candidateId ≠ id) : Processed (save id row candidates) candidateId := by
  obtain ⟨old, hold, hprocessed⟩ := h
  exact ⟨old, (save_of_ne hid).trans hold, hprocessed⟩

theorem Created.save {investments : Table Investment} {investmentId : Text} {row : Investment}
    (h : Created investments investmentId) (hrow : investmentId = id → row.created = true) :
    Created (save id row investments) investmentId := by
  by_cases hid : investmentId = id
  · subst hid
    exact ⟨row, save_self, hrow rfl⟩
  · obtain ⟨old, hold, hcreated⟩ := h
    exact ⟨old, (save_of_ne hid).trans hold, hcreated⟩

end Rows

/-! ## Jobs -/

/-- The job has seen that the candidate's investment is created. -/
def Waited (s : State) (candidateId : Text) : Prop :=
  ∃ investmentId, CandidateOf s.candidates candidateId investmentId ∧
    Created s.investments investmentId

/-- The candidate has been saved as processed. -/
def CandidateJobPosition.finished : CandidateJobPosition → Bool
  | signalProcessed _ => true
  | done => true
  | _ => false

/-- What holds of the candidate of a job. -/
def JobProgress (s : State) (id : Text) : CandidateJobPosition → Prop
  | .loop attempts => attempts = 1 ∨ Waited s id
  | .findCandidate _ => True
  | .findInvestment _ investmentId => CandidateOf s.candidates id investmentId
  | .process _ => Waited s id
  | .findFailing _ => Waited s id
  | .findMatched _ => Waited s id
  | .findRejected => Waited s id
  | .saveFailing _ candidate => Waited s id ∧ CandidateOf s.candidates id candidate.investmentId
  | .saveMatched _ candidate => Waited s id ∧ CandidateOf s.candidates id candidate.investmentId
  | .saveRejected candidate => Waited s id ∧ CandidateOf s.candidates id candidate.investmentId
  | .signalProcessed _ => Waited s id ∧ Processed s.candidates id
  | .done => Waited s id ∧ Processed s.candidates id

def Finished (s : State) (candidateId : Text) : Prop :=
  ∃ job ∈ s.candidateJobs, job.candidateId = candidateId ∧ job.position.finished = true

section Jobs

variable {policy : BackgroundJobPolicy} {s s' : State} {workflowId id : Text}
  {position position' : CandidateJobPosition}

theorem Waited.mono {candidateId : Text} (h : Waited s candidateId)
    (hof : ∀ i, CandidateOf s.candidates candidateId i → CandidateOf s'.candidates candidateId i)
    (hcreated : ∀ i, Created s.investments i → Created s'.investments i) :
    Waited s' candidateId := by
  obtain ⟨i, hi, hc⟩ := h
  exact ⟨i, hof i hi, hcreated i hc⟩

theorem JobProgress.mono (h : JobProgress s id position)
    (hof : ∀ i, CandidateOf s.candidates id i → CandidateOf s'.candidates id i)
    (hcreated : ∀ i, Created s.investments i → Created s'.investments i)
    (hprocessed : Processed s.candidates id → Processed s'.candidates id) :
    JobProgress s' id position := by
  cases position with
  | loop attempts => exact h.imp_right fun h => h.mono hof hcreated
  | findCandidate => trivial
  | findInvestment attempts investmentId => exact hof _ h
  | process | findFailing | findMatched | findRejected => exact Waited.mono h hof hcreated
  | saveFailing | saveMatched | saveRejected => exact ⟨h.1.mono hof hcreated, hof _ h.2⟩
  | signalProcessed | done => exact ⟨h.1.mono hof hcreated, hprocessed h.2⟩

/-- A finished job has a processed candidate of a created investment. -/
theorem JobProgress.of_finished (h : JobProgress s id position)
    (hfinished : position.finished = true) :
    Waited s id ∧ Processed s.candidates id := by
  cases position with
  | signalProcessed | done => exact h
  | _ => cases hfinished

theorem CandidateJobStep.finished
    (h : CandidateJobStep policy s workflowId id position position' s')
    (hfinished : position.finished = true) : position'.finished = true := by
  cases h with
  | signalProcessed => rfl
  | _ => cases hfinished

/-- A job writes to the row of its own candidate only. -/
theorem CandidateJobStep.frame (h : CandidateJobStep policy s workflowId id position position' s')
    {candidateId : Text} (hne : candidateId ≠ id) :
    s'.candidates candidateId = s.candidates candidateId := by
  cases h with
  | saveFailing | saveMatched | saveRejected => exact save_of_ne hne
  | _ => rfl

/-- A job does not move its candidate to another investment. -/
theorem CandidateJobStep.candidateOf
    (h : CandidateJobStep policy s workflowId id position position' s')
    (hprogress : JobProgress s id position) {candidateId i : Text}
    (hi : CandidateOf s.candidates candidateId i) : CandidateOf s'.candidates candidateId i := by
  cases h with
  | saveFailing _ candidate | saveMatched _ candidate | saveRejected candidate =>
    -- the row written back was read from the same candidate
    refine hi.save fun hid => ?_
    subst hid
    exact hprogress.2.unique hi
  | _ => exact hi

theorem CandidateJobStep.progress
    (h : CandidateJobStep policy s workflowId id position position' s')
    (hmax : 1 ≤ policy.maxCandidateAttempts) (hprogress : JobProgress s id position) :
    JobProgress s' id position' := by
  have hof : ∀ i, CandidateOf s.candidates id i → CandidateOf s'.candidates id i :=
    fun i => h.candidateOf hprogress
  have hkept : ∀ i, Created s.investments i → Created s'.investments i := by
    rw [h.outside.investments]
    exact fun i hi => hi
  cases h with
  | again => trivial
  | enough attempts hattempts =>
    -- the first attempt is allowed, so this is a later one
    exact hprogress.resolve_left (by omega)
  | findCandidate attempts candidate hcandidate => exact ⟨candidate, hcandidate, rfl⟩
  | notCreated => trivial
  | created attempts investmentId investment hinvestment hcreated =>
    exact ⟨investmentId, hprogress, investment, hinvestment, hcreated⟩
  | slow => exact .inr hprogress
  | failing => exact hprogress
  | matching => exact hprogress
  | findFailing attempts candidate hcandidate => exact ⟨hprogress, candidate, hcandidate, rfl⟩
  | saveFailing => exact .inr (hprogress.1.mono hof hkept)
  | findMatched attempts candidate hcandidate => exact ⟨hprogress, candidate, hcandidate, rfl⟩
  | saveMatched attempts candidate =>
    exact ⟨hprogress.1.mono hof hkept, _, save_self, rfl, .inl rfl⟩
  | findRejected candidate hcandidate => exact ⟨hprogress, candidate, hcandidate, rfl⟩
  | saveRejected candidate =>
    exact ⟨hprogress.1.mono hof hkept, _, save_self, rfl, .inr rfl⟩
  | signalProcessed => exact hprogress

end Jobs

/-! ## Everybody who knows -/

namespace ActivityPosition

/-- The investments for which an attempt has not stored a candidate yet. -/
def pendingInvestmentIds : ActivityPosition → List Text
  | nextCandidate investmentIds _ => investmentIds
  | saveCandidate _ investmentId investmentIds _ => investmentId :: investmentIds
  | _ => []

/-- The candidates that an attempt has stored. -/
def storedCandidateIds : ActivityPosition → List Text
  | nextCandidate _ ids => ids
  | saveCandidate _ _ _ ids => ids
  | scheduleCandidates _ ids => ids
  | candidatesCreated ids => ids
  | _ => []

end ActivityPosition

/-- Every investment has a candidate, or is still to get one. -/
def Covered (s : State) (investmentIds pending candidateIds : List Text) : Prop :=
  ∀ i ∈ investmentIds, i ∈ pending ∨ ∃ c ∈ candidateIds, CandidateOf s.candidates c i

/-- What holds where a workflow is, or was when it began an attempt. -/
def PositionProgress (s : State) : Position → Prop
  | .fanningOut _ investmentIds candidateIds => Covered s investmentIds [] candidateIds
  | .awaiting _ investmentIds candidateIds => Covered s investmentIds [] candidateIds
  | .finishing _ investmentIds candidateIds =>
    Covered s investmentIds [] candidateIds ∧ ∀ c ∈ candidateIds, Finished s c
  | _ => True

/-- What holds where an attempt is. -/
def ActivityProgress (s : State) (call : Position) (position : ActivityPosition) : Prop :=
  ∀ walletId investmentIds, call = .creatingCandidates walletId investmentIds →
    Covered s investmentIds position.pendingInvestmentIds position.storedCandidateIds

structure Progress (s : State) : Prop where
  jobs : ∀ job ∈ s.candidateJobs, JobProgress s job.candidateId job.position
  signals : ∀ signal ∈ s.signals, Finished s signal.candidateId
  processed : ∀ workflowId c b, (s.workflows workflowId).processedCandidates c = some b →
    Finished s c
  attempts : ∀ attempt ∈ s.attempts, ActivityProgress s attempt.call attempt.position
  calls : ∀ attempt ∈ s.attempts, PositionProgress s attempt.call
  positions : ∀ workflowId, PositionProgress s (s.workflows workflowId).position

/-- What the rows have gained. -/
structure Grows (s s' : State) : Prop where
  candidateOf : ∀ c i, CandidateOf s.candidates c i → CandidateOf s'.candidates c i
  created : ∀ i, Created s.investments i → Created s'.investments i
  finished : ∀ c, Finished s c → Finished s' c

section Growth

variable {policy : BackgroundJobPolicy} {s s' final : State}

theorem Covered.mono {investmentIds pending candidateIds : List Text}
    (h : Covered s investmentIds pending candidateIds) (hgrows : Grows s s') :
    Covered s' investmentIds pending candidateIds := by
  intro i hi
  refine (h i hi).imp_right ?_
  rintro ⟨c, hc, hof⟩
  exact ⟨c, hc, hgrows.candidateOf c i hof⟩

theorem PositionProgress.mono {position : Position} (h : PositionProgress s position)
    (hgrows : Grows s s') : PositionProgress s' position := by
  cases position with
  | fanningOut | awaiting => exact Covered.mono h hgrows
  | finishing => exact ⟨h.1.mono hgrows, fun c hc => hgrows.finished c (h.2 c hc)⟩
  | _ => trivial

theorem ActivityProgress.mono {call : Position} {position : ActivityPosition}
    (h : ActivityProgress s call position) (hgrows : Grows s s') :
    ActivityProgress s' call position :=
  fun walletId investmentIds hcall => (h walletId investmentIds hcall).mono hgrows

theorem Identified.candidate_none (hs : Identified final s) {workflowId id investmentId : Text}
    {call : Position} {investmentIds ids : List Text}
    (h : ⟨workflowId, call, .saveCandidate id investmentId investmentIds ids⟩ ∈ s.attempts) :
    s.candidates id = none :=
  hs.candidates.unsaved_none id (List.mem_flatMap.mpr ⟨_, h, List.mem_singleton_self id⟩)

theorem Identified.investment_none (hs : Identified final s) {workflowId id base : Text}
    {call : Position} {profile : InvestorProfile} {bases ids : List Text}
    (h : ⟨workflowId, call, .saveInvestment profile id base bases ids⟩ ∈ s.attempts) :
    s.investments id = none :=
  hs.investments.unsaved_none id (List.mem_flatMap.mpr ⟨_, h, List.mem_singleton_self id⟩)

/-- A candidate keeps its investment. -/
theorem Step.keeps_candidateOf (h : Step policy s s') (hs : Identified final s)
    (hprogress : Progress s) {c i : Text} (hi : CandidateOf s.candidates c i) :
    CandidateOf s'.candidates c i := by
  cases h with
  | workflow => exact hi
  | begin => exact hi
  | attempt n attempt position s₁ hattempt hstep =>
    obtain ⟨workflowId, call, old⟩ := attempt
    cases hstep with
    | saveCandidate walletId all id investmentId investmentIds ids =>
      -- a new candidate is saved under an id that no row has, so it replaces none
      have hnone := hs.candidate_none (List.mem_of_getElem? hattempt)
      exact hi.save fun hid => absurd hid (hi.ne_of_none hnone)
    | _ => exact hi
  | investmentJob n job position s₁ hjob hstep =>
    exact hstep.outside.candidates ▸ hi
  | candidateJob n job position s₁ hjob hstep =>
    exact hstep.candidateOf (hprogress.jobs job (List.mem_of_getElem? hjob)) hi

/-- A created investment stays so: a row is written again only to set that it is created. -/
theorem Step.keeps_created (h : Step policy s s') (hs : Identified final s) {i : Text}
    (hi : Created s.investments i) : Created s'.investments i := by
  cases h with
  | workflow => exact hi
  | begin => exact hi
  | attempt n attempt position s₁ hattempt hstep =>
    obtain ⟨workflowId, call, old⟩ := attempt
    cases hstep with
    | saveInvestment investorId walletId profile id base bases ids =>
      have hnone := hs.investment_none (List.mem_of_getElem? hattempt)
      exact hi.save fun hid => absurd hid (hi.ne_of_none hnone)
    | _ => exact hi
  | investmentJob n job position s₁ hjob hstep =>
    obtain ⟨id, old⟩ := job
    cases hstep with
    | find => exact hi
    | save persisted => exact hi.save fun _ => rfl
  | candidateJob n job position s₁ hjob hstep =>
    exact hstep.outside.investments ▸ hi

/-- A finished job may only go on to its signal. -/
theorem Step.keeps_finished (h : Step policy s s') {c : Text} (hc : Finished s c) :
    Finished s' c := by
  obtain ⟨job, hjob, rfl, hfinished⟩ := hc
  rcases h.candidateJob_remains hjob with hjob | ⟨position, s₁, hstep, hjob⟩
  · exact ⟨job, hjob, rfl, hfinished⟩
  · exact ⟨_, hjob, rfl, hstep.finished hfinished⟩

/-- Nothing that is known about the rows is lost. -/
theorem Step.grows (h : Step policy s s') (hs : Identified final s) (hprogress : Progress s) :
    Grows s s' where
  candidateOf _ _ hi := h.keeps_candidateOf hs hprogress hi
  created _ hi := h.keeps_created hs hi
  finished _ hc := h.keeps_finished hc

end Growth

/-! ## The invariant is kept -/

section Preserved

variable {policy : BackgroundJobPolicy} {s s' final : State}

theorem Identified.candidateId_injective (hs : Identified final s) {job job' : CandidateJob}
    (hjob : job ∈ s.candidateJobs) (hjob' : job' ∈ s.candidateJobs)
    (h : job.candidateId = job'.candidateId) : job = job' :=
  List.inj_on_of_nodup_map hs.candidates.nodup.of_append_right hjob hjob' h

theorem Step.jobs (h : Step policy s s') (hmax : 1 ≤ policy.maxCandidateAttempts)
    (hs : Identified final s) (hs' : Identified final s') (hprogress : Progress s) :
    ∀ job ∈ s'.candidateJobs, JobProgress s' job.candidateId job.position := by
  intro job hjob
  have hgrows := h.grows hs hprogress
  -- for all other jobs the rows have only gained
  have hkept : job ∈ s.candidateJobs →
      (Processed s.candidates job.candidateId → Processed s'.candidates job.candidateId) →
      JobProgress s' job.candidateId job.position := fun hold hprocessed =>
    (hprogress.jobs job hold).mono (hgrows.candidateOf _) hgrows.created hprocessed
  cases h with
  | workflow => exact hkept hjob fun h => h
  | begin => exact hkept hjob fun h => h
  | attempt i attempt position s₁ hattempt hstep =>
    obtain ⟨workflowId, call, old⟩ := attempt
    cases hstep with
    | saveCandidate walletId all id investmentId investmentIds ids =>
      have hnone := hs.candidate_none (List.mem_of_getElem? hattempt)
      exact hkept hjob fun h => h.save (h.ne_of_none hnone)
    | scheduleCandidate walletId all id remaining ids =>
      rcases List.mem_append.mp hjob with hjob | hjob
      · exact hkept hjob fun h => h
      · obtain rfl := List.mem_singleton.mp hjob
        exact .inl rfl
    | _ => exact hkept hjob fun h => h
  | investmentJob i old position s₁ hold hstep =>
    exact hkept (hstep.outside.candidateJobs ▸ hjob) fun h => hstep.outside.candidates ▸ h
  | candidateJob i old position s₁ hold hstep =>
    obtain ⟨hi, -⟩ := List.getElem?_eq_some_iff.mp hold
    by_cases hid : job.candidateId = old.candidateId
    · -- no other job has its candidate
      obtain rfl : job = { old with position } :=
        hs'.candidateId_injective hjob (List.mem_set hi _) hid
      exact (hstep.progress hmax (hprogress.jobs old (List.mem_of_getElem? hold))).mono
        (fun _ h => h) (fun _ h => h) fun h => h
    · rcases List.mem_or_eq_of_mem_set hjob with hjob | rfl
      · refine hkept hjob ?_
        rintro ⟨row, hrow, hprocessed⟩
        exact ⟨row, (hstep.frame hid).trans hrow, hprocessed⟩
      · exact absurd rfl hid

theorem Step.signals (h : Step policy s s') (hs : Identified final s) (hprogress : Progress s) :
    ∀ signal ∈ s'.signals, Finished s' signal.candidateId := by
  intro signal hsignal
  have hkept : signal ∈ s.signals → Finished s' signal.candidateId := fun hold =>
    (h.grows hs hprogress).finished _ (hprogress.signals signal hold)
  cases h with
  | workflow => exact hkept hsignal
  | begin => exact hkept hsignal
  | attempt i attempt position s₁ hattempt hstep =>
    exact hkept (hstep.outside.signals ▸ hsignal)
  | investmentJob i job position s₁ hjob hstep =>
    exact hkept (hstep.outside.signals ▸ hsignal)
  | candidateJob i job position s₁ hjob hstep =>
    obtain ⟨hi, -⟩ := List.getElem?_eq_some_iff.mp hjob
    obtain ⟨workflowId, id, old⟩ := job
    cases hstep with
    -- the job that sends the signal is finished
    | signalProcessed candidate =>
      rcases List.mem_append.mp hsignal with hsignal | hsignal
      · exact hkept hsignal
      · obtain rfl := List.mem_singleton.mp hsignal
        exact ⟨_, List.mem_set hi _, rfl, rfl⟩
    | _ => exact hkept hsignal

/-- What a workflow knows it knew before, or a signal has told it. -/
theorem WorkflowStep.processed {workflowId : Text} {workflow : Workflow}
    (h : WorkflowStep s workflowId workflow) {c : Text} {b : Bool}
    (hc : workflow.processedCandidates c = some b) :
    (s.workflows workflowId).processedCandidates c = some b ∨
      ∃ signal ∈ s.signals, signal.candidateId = c := by
  cases h with
  | deliver signal hsignal hworkflow =>
    by_cases hid : c = signal.candidateId
    · exact .inr ⟨signal, hsignal, hid.symm⟩
    · exact .inl ((Function.update_of_ne hid ..).symm.trans hc)
  | _ => exact .inl hc

theorem Step.processed (h : Step policy s s') (hs : Identified final s) (hprogress : Progress s) :
    ∀ workflowId c b, (s'.workflows workflowId).processedCandidates c = some b → Finished s' c := by
  intro workflowId c b hc
  refine (h.grows hs hprogress).finished c ?_
  rcases h.workflow_origin workflowId with ⟨-, hsame⟩ | hstep
  · exact hprogress.processed workflowId c b (hsame ▸ hc)
  · rcases hstep.processed hc with hold | ⟨signal, hsignal, rfl⟩
    · exact hprogress.processed workflowId c b hold
    · exact hprogress.signals signal hsignal

/-- A workflow goes on with what its attempts have returned and its signals have told. -/
theorem WorkflowStep.progress {workflowId : Text} {workflow : Workflow}
    (h : WorkflowStep s workflowId workflow) (hprogress : Progress s) :
    PositionProgress s workflow.position := by
  have hposition := hprogress.positions workflowId
  cases h with
  | start => trivial
  | complete attempt hattempt hworkflow position hreturned hat =>
    -- the attempt is at its end, so that nothing is pending
    have hactivity := hprogress.attempts attempt hattempt
    rw [hat] at hposition
    obtain ⟨id, call, old⟩ := attempt
    cases hreturned with
    | candidatesCreated walletId investmentIds candidateIds =>
      exact hactivity walletId investmentIds rfl
    | fannedOut => exact hposition
    | _ => trivial
  | unblock walletId investmentIds candidateIds hat hprocessed =>
    rw [hat] at hposition
    -- every candidate is known as processed, by a signal of its finished job
    exact ⟨hposition, fun c hc => hprogress.processed workflowId c true (hprocessed c hc)⟩
  | timeOut => trivial
  | fail => trivial
  | deliver => exact hposition

theorem Step.positions (h : Step policy s s') (hs : Identified final s) (hprogress : Progress s) :
    ∀ workflowId, PositionProgress s' (s'.workflows workflowId).position := by
  intro workflowId
  refine PositionProgress.mono ?_ (h.grows hs hprogress)
  rcases h.workflow_origin workflowId with ⟨hsame, -⟩ | hstep
  · rw [hsame]
    exact hprogress.positions workflowId
  · exact hstep.progress hprogress

theorem Step.calls (h : Step policy s s') (hs : Identified final s) (hprogress : Progress s) :
    ∀ attempt ∈ s'.attempts, PositionProgress s' attempt.call := by
  intro attempt hattempt
  refine PositionProgress.mono ?_ (h.grows hs hprogress)
  rcases h.attempt_origin hattempt with hold | ⟨hposition, -⟩ | ⟨_, i, _, hold, -⟩
  · exact hprogress.calls attempt hold
  · exact hposition ▸ hprogress.positions attempt.workflowId
  · have hcall := hprogress.calls _ (List.mem_of_getElem? hold)
    exact hcall

/-- An attempt at the candidates stores one for each investment. -/
theorem ActivityStep.progress {workflowId : Text} {call : Position}
    {position position' : ActivityPosition}
    (h : ActivityStep workflowId s call position position' s')
    (hgrows : ∀ c i, CandidateOf s.candidates c i → CandidateOf s'.candidates c i)
    (hactivity : ActivityProgress s call position) : ActivityProgress s' call position' := by
  intro walletId investmentIds hcall i hi
  have hold := hactivity walletId investmentIds hcall i hi
  have hkept : ∀ {ids : List Text}, (∃ c ∈ ids, CandidateOf s.candidates c i) →
      ∃ c ∈ ids, CandidateOf s'.candidates c i := by
    rintro ids ⟨c, hc, hof⟩
    exact ⟨c, hc, hgrows c i hof⟩
  cases h with
  | nextCandidate => exact hold.imp_right hkept
  | saveCandidate walletId all id investmentId rest ids =>
    -- the investment at hand gets its candidate, the others keep theirs or go on to wait
    rcases hold with hpending | hstored
    · rcases List.mem_cons.mp hpending with rfl | hpending
      · exact .inr ⟨id, List.mem_append_right _ (List.mem_singleton_self id), _, save_self, rfl⟩
      · exact .inl hpending
    · obtain ⟨c, hc, hof⟩ := hkept hstored
      exact .inr ⟨c, List.mem_append_left _ hc, hof⟩
  | candidatesSaved => exact hold.imp_right hkept
  | scheduleCandidate => exact hold.imp_right hkept
  | candidatesScheduled => exact hold.imp_right hkept
  | _ => cases hcall

theorem Step.activities (h : Step policy s s') (hs : Identified final s) (hprogress : Progress s) :
    ∀ attempt ∈ s'.attempts, ActivityProgress s' attempt.call attempt.position := by
  intro attempt hattempt
  have hgrows := h.grows hs hprogress
  rcases h.attempt_origin hattempt with hold | ⟨-, hbegin⟩ | ⟨_, i, s₁, hold, hstep, rfl⟩
  · exact (hprogress.attempts attempt hold).mono hgrows
  -- a new attempt at the candidates has all investments before it
  · intro walletId investmentIds hcall
    rw [hcall] at hbegin
    obtain hposition := Option.some.inj hbegin
    intro i hi
    rw [← hposition]
    exact .inl hi
  · exact hstep.progress hgrows.candidateOf (hprogress.attempts _ (List.mem_of_getElem? hold))

theorem Step.progress (h : Step policy s s') (hmax : 1 ≤ policy.maxCandidateAttempts)
    (hs : Identified final s) (hs' : Identified final s') (hprogress : Progress s) :
    Progress s' where
  jobs := h.jobs hmax hs hs' hprogress
  signals := h.signals hs hprogress
  processed := h.processed hs hprogress
  attempts := h.activities hs hprogress
  calls := h.calls hs hprogress
  positions := h.positions hs hprogress

end Preserved

/-! ## Done -/

/-- Every candidate is processed and every investment created. -/
structure AllDone (s : State) (investmentIds candidateIds : List Text) : Prop where
  candidates : ∀ c ∈ candidateIds, Processed s.candidates c
  investments : ∀ i ∈ investmentIds, Created s.investments i

theorem Progress.allDone {s : State} (h : Progress s) {walletId : Text}
    {investmentIds candidateIds : List Text}
    (hfinishing : PositionProgress s (.finishing walletId investmentIds candidateIds)) :
    AllDone s investmentIds candidateIds := by
  obtain ⟨hcovered, hfinished⟩ := hfinishing
  have hjob : ∀ c ∈ candidateIds, Waited s c ∧ Processed s.candidates c := by
    intro c hc
    obtain ⟨job, hjob, rfl, hend⟩ := hfinished c hc
    exact (h.jobs job hjob).of_finished hend
  refine ⟨fun c hc => (hjob c hc).2, fun i hi => ?_⟩
  obtain ⟨c, hc, hof⟩ := (hcovered i hi).resolve_left (List.not_mem_nil)
  -- the investment the job has waited for is this one
  obtain ⟨⟨i', hof', hcreated⟩, -⟩ := hjob c hc
  exact hof.unique hof' ▸ hcreated

theorem Progress.initial (wallets : Table Wallet) (investments : Table Investment)
    (candidates : Table FinancialEventCandidate) :
    Progress (.initial wallets investments candidates) where
  jobs := by simp [State.initial]
  signals := by simp [State.initial]
  processed := by simp [State.initial]
  attempts := by simp [State.initial]
  calls := by simp [State.initial]
  positions := fun _ => trivial

end SampleWallet
