import Mathlib.Data.Finset.Insert
import JavaExamples.Common.Transition
import JavaExamples.SampleWallet.Domain

/-!
# The wallet creation workflow

`SampleWalletCreationWorkflowImpl`, its activities and the background jobs they schedule, in one
process. All of them take their steps in any order: a step of an activity or of a job is one access
to a counter, a table, the executor or the workflow client.

* `activityStep`: the steps of an attempt at an activity. An attempt that fails takes no further
  step; one that has timed out may go on while the next attempt runs.
* `candidateJobStep`: the steps of `processCandidate`.
* `step`: one step of any party.
-/

namespace SampleWallet

/-- The policy of the background jobs, but for its delays. -/
structure BackgroundJobPolicy where
  failFirstAttemptCandidateIds : Finset Text
  alwaysSlowCandidateIds : Finset Text
  maxCandidateAttempts : ℤ

/-- Where `create` of a workflow is: the activity it waits for with its arguments, or the
signals. -/
inductive Position where
  | notStarted
  | creatingWallet (investorId : Text)
  | creatingInvestments (investorId walletId : Text)
  | creatingCandidates (walletId : Text) (investmentIds : List Text)
  | fanningOut (walletId : Text) (investmentIds candidateIds : List Text)
  | awaiting (walletId : Text) (investmentIds candidateIds : List Text)
  | aborting (walletId : Text)
  | finishing (walletId : Text) (investmentIds candidateIds : List Text)
  /-- Completed or failed. -/
  | closed
  deriving DecidableEq

/-- A workflow execution; `attempts` counts those at the activity it waits for. -/
structure Workflow where
  position : Position
  attempts : ℕ
  candidateStatuses : Text → Option CandidateStatus
  processedCandidates : Text → Option Bool

/-- Where an attempt at an activity is, with its local variables. -/
inductive ActivityPosition where
  | createWallet
  | saveWallet (walletId : Text)
  | walletCreated (walletId : Text)
  | createInvestments
  | nextInvestment (profile : InvestorProfile) (baseInvestmentIds investmentIds : List Text)
  | saveInvestment (profile : InvestorProfile) (investmentId baseInvestmentId : Text)
      (baseInvestmentIds investmentIds : List Text)
  | scheduleInvestments (remaining investmentIds : List Text)
  | investmentsCreated (investmentIds : List Text)
  | nextCandidate (investmentIds candidateIds : List Text)
  | saveCandidate (candidateId investmentId : Text) (investmentIds candidateIds : List Text)
  | scheduleCandidates (remaining candidateIds : List Text)
  | candidatesCreated (candidateIds : List Text)
  | fanOutCandidates
  | fannedOut
  | findWallet
  | saveReady (wallet : Wallet)
  | finished
  | saveAborted (wallet : Wallet)
  | aborted

/-- An attempt at the activity that the workflow waits for in `call`. -/
structure Attempt where
  workflowId : Text
  call : Position
  position : ActivityPosition

/-- Where the job of `scheduleInvestmentCreation` is. -/
inductive InvestmentJobPosition where
  | find
  | save (investment : Investment)
  | done

structure InvestmentJob where
  investmentId : Text
  position : InvestmentJobPosition

/-- Where `processCandidate` is; `attempts` is the variable of its loop. -/
inductive CandidateJobPosition where
  | loop (attempts : ℤ)
  | findCandidate (attempts : ℤ)
  | findInvestment (attempts : ℤ) (investmentId : Text)
  | process (attempts : ℤ)
  | findFailing (attempts : ℤ)
  | saveFailing (attempts : ℤ) (candidate : FinancialEventCandidate)
  | findMatched (attempts : ℤ)
  | saveMatched (attempts : ℤ) (candidate : FinancialEventCandidate)
  | findRejected
  | saveRejected (candidate : FinancialEventCandidate)
  | signalProcessed (candidate : FinancialEventCandidate)
  | done

structure CandidateJob where
  workflowId : Text
  candidateId : Text
  position : CandidateJobPosition

/-- The signal `candidateProcessed` to a workflow. -/
structure Signal where
  workflowId : Text
  candidateId : Text
  status : CandidateStatus
  processed : Bool

/-- The counters by their numbers of increments, the tables, the workflows, all attempts and jobs so
far, and the signals sent. -/
structure State where
  walletSequence : ℕ
  investmentSequence : ℕ
  candidateSequence : ℕ
  wallets : Table Wallet
  investments : Table Investment
  candidates : Table FinancialEventCandidate
  workflows : Text → Workflow
  attempts : List Attempt
  investmentJobs : List InvestmentJob
  candidateJobs : List CandidateJob
  failedOnceCandidateIds : Finset Text
  signals : List Signal

/-- A process that starts on tables. -/
def State.initial (wallets : Table Wallet) (investments : Table Investment)
    (candidates : Table FinancialEventCandidate) : State :=
  { walletSequence := 0, investmentSequence := 0, candidateSequence := 0
    wallets, investments, candidates
    workflows := fun _ => ⟨.notStarted, 0, fun _ => none, fun _ => none⟩
    attempts := [], investmentJobs := [], candidateJobs := []
    failedOnceCandidateIds := ∅, signals := [] }

/-! ## Activities -/

/-- `setMaximumAttempts`. -/
def maximumAttempts : ℕ := 3

/-- Where an attempt at the activity of a position begins. -/
def Position.activity : Position → Option ActivityPosition
  | .creatingWallet _ => some .createWallet
  | .creatingInvestments _ _ => some .createInvestments
  | .creatingCandidates _ investmentIds => some (.nextCandidate investmentIds [])
  | .fanningOut _ _ _ => some .fanOutCandidates
  | .aborting _ => some .findWallet
  | .finishing _ _ _ => some .findWallet
  | _ => none

/-- The next step of an attempt. `found` is the profile of the investor that `requireInvestor`
finds; an attempt that throws has no next step. -/
def activityStep (found : Option InvestorProfile) (workflowId : Text) (s : State) :
    Position → ActivityPosition → Option (ActivityPosition × State)
  | .creatingWallet _, .createWallet =>
    some (.saveWallet (walletId (s.walletSequence + 1)),
      { s with walletSequence := s.walletSequence + 1 })
  | .creatingWallet investorId, .saveWallet id =>
    some (.walletCreated id, { s with wallets := save id (newWallet investorId) s.wallets })
  -- `requireInvestor` throws where nobody is found
  | .creatingInvestments _ _, .createInvestments =>
    found.map fun profile => (.nextInvestment profile (BASE_INVESTMENTS_BY_PROFILE profile) [], s)
  | .creatingInvestments _ _, .nextInvestment profile (base :: bases) ids =>
    some (.saveInvestment profile (investmentId (s.investmentSequence + 1)) base bases ids,
      { s with investmentSequence := s.investmentSequence + 1 })
  | .creatingInvestments investorId walletId, .saveInvestment profile id base bases ids =>
    some (.nextInvestment profile bases (ids ++ [id]),
      { s with
        investments := save id (newInvestment walletId investorId profile base) s.investments })
  | .creatingInvestments _ _, .nextInvestment _ [] ids => some (.scheduleInvestments ids ids, s)
  -- jobs are scheduled only after all rows of the call have been saved
  | .creatingInvestments _ _, .scheduleInvestments (id :: remaining) ids =>
    some (.scheduleInvestments remaining ids,
      { s with investmentJobs := s.investmentJobs ++ [⟨id, .find⟩] })
  | .creatingInvestments _ _, .scheduleInvestments [] ids => some (.investmentsCreated ids, s)
  | .creatingCandidates _ _, .nextCandidate (investmentId :: investmentIds) ids =>
    some (.saveCandidate (candidateId (s.candidateSequence + 1)) investmentId investmentIds ids,
      { s with candidateSequence := s.candidateSequence + 1 })
  | .creatingCandidates _ _, .saveCandidate id investmentId investmentIds ids =>
    some (.nextCandidate investmentIds (ids ++ [id]),
      { s with candidates := save id (newCandidate investmentId) s.candidates })
  | .creatingCandidates _ _, .nextCandidate [] ids => some (.scheduleCandidates ids ids, s)
  | .creatingCandidates _ _, .scheduleCandidates (id :: remaining) ids =>
    some (.scheduleCandidates remaining ids,
      { s with candidateJobs := s.candidateJobs ++ [⟨workflowId, id, .loop 1⟩] })
  | .creatingCandidates _ _, .scheduleCandidates [] ids => some (.candidatesCreated ids, s)
  | .fanningOut _ _ _, .fanOutCandidates => some (.fannedOut, s)
  | .finishing walletId _ _, .findWallet =>
    (s.wallets walletId).map fun wallet => (.saveReady wallet, s)
  -- the row found before is written back with the status, whatever it has become since
  | .finishing walletId _ _, .saveReady wallet =>
    some (.finished, { s with wallets := save walletId { wallet with status := .READY } s.wallets })
  -- a wallet that is missing or READY is left as it is
  | .aborting walletId, .findWallet =>
    match s.wallets walletId with
    | none => some (.aborted, s)
    | some wallet =>
      if wallet.status = .READY then some (.aborted, s) else some (.saveAborted wallet, s)
  | .aborting walletId, .saveAborted wallet =>
    some (.aborted,
      { s with wallets := save walletId { wallet with status := .ABORTED } s.wallets })
  | _, _ => none

/-- Where the workflow goes on when an attempt has returned. -/
def returned : Position → ActivityPosition → Option Position
  | .creatingWallet investorId, .walletCreated walletId =>
    some (.creatingInvestments investorId walletId)
  | .creatingInvestments _ walletId, .investmentsCreated investmentIds =>
    some (.creatingCandidates walletId investmentIds)
  | .creatingCandidates walletId investmentIds, .candidatesCreated candidateIds =>
    some (.fanningOut walletId investmentIds candidateIds)
  | .fanningOut walletId investmentIds candidateIds, .fannedOut =>
    some (.awaiting walletId investmentIds candidateIds)
  | .finishing _ _ _, .finished => some .closed
  | .aborting _, .aborted => some .closed
  | _, _ => none

/-! ## Background jobs -/

def investmentJobStep (s : State) (id : Text) :
    InvestmentJobPosition → Option (InvestmentJobPosition × State)
  | .find => (s.investments id).map fun persisted => (.save persisted, s)
  | .save persisted =>
    some (.done,
      { s with
        investments := SampleWallet.save id { persisted with created := true } s.investments })
  | .done => none

/-- `attempts++` -/
def nextAttempt (attempts : ℤ) : CandidateJobPosition := .loop ((attempts + 1).bmod (2 ^ 32))

def processedCandidate (attempts : ℤ) (candidate : FinancialEventCandidate) :
    FinancialEventCandidate :=
  { candidate with status := .MATCHED, processed := true, attempts }

def rejectedCandidate (policy : BackgroundJobPolicy) (candidate : FinancialEventCandidate) :
    FinancialEventCandidate :=
  { candidate with status := .REJECTED, processed := true, attempts := policy.maxCandidateAttempts }

/-- The next step of `processCandidate`; a row that is not found throws. -/
def candidateJobStep (policy : BackgroundJobPolicy) (s : State) (workflowId id : Text) :
    CandidateJobPosition → Option (CandidateJobPosition × State)
  | .loop attempts =>
    some (if attempts ≤ policy.maxCandidateAttempts then .findCandidate attempts
      else .findRejected, s)
  | .findCandidate attempts =>
    (s.candidates id).map fun candidate => (.findInvestment attempts candidate.investmentId, s)
  | .findInvestment attempts investmentId =>
    (s.investments investmentId).map fun investment =>
      -- while the investment is not created the job waits and asks again, in the same attempt
      (if investment.created then .process attempts else .findCandidate attempts, s)
  | .process attempts =>
    if id ∈ policy.alwaysSlowCandidateIds then some (nextAttempt attempts, s)
    -- `failedOnceCandidateIds.add` tells whether this is the first failure
    else if id ∈ policy.failFirstAttemptCandidateIds ∧ id ∉ s.failedOnceCandidateIds then
      some (.findFailing attempts,
        { s with failedOnceCandidateIds := insert id s.failedOnceCandidateIds })
    else some (.findMatched attempts, s)
  | .findFailing attempts =>
    (s.candidates id).map fun candidate => (.saveFailing attempts candidate, s)
  | .saveFailing attempts candidate =>
    some (nextAttempt attempts,
      { s with candidates := save id { candidate with attempts } s.candidates })
  | .findMatched attempts =>
    (s.candidates id).map fun candidate => (.saveMatched attempts candidate, s)
  | .saveMatched attempts candidate =>
    some (.signalProcessed (processedCandidate attempts candidate),
      { s with candidates := save id (processedCandidate attempts candidate) s.candidates })
  | .findRejected => (s.candidates id).map fun candidate => (.saveRejected candidate, s)
  | .saveRejected candidate =>
    some (.signalProcessed (rejectedCandidate policy candidate),
      { s with candidates := save id (rejectedCandidate policy candidate) s.candidates })
  | .signalProcessed candidate =>
    some (.done,
      { s with signals := s.signals ++ [⟨workflowId, id, candidate.status, candidate.processed⟩] })
  | .done => none

/-! ## Workflows -/

def State.setWorkflow (s : State) (workflowId : Text) (workflow : Workflow) : State :=
  { s with workflows := Function.update s.workflows workflowId workflow }

/-- The workflow goes on to a position. -/
def State.enter (s : State) (workflowId : Text) (position : Position) : State :=
  s.setWorkflow workflowId { s.workflows workflowId with position, attempts := 0 }

/-- The signal handler. -/
def candidateProcessed (candidateId : Text) (status : CandidateStatus) (processed : Bool)
    (workflow : Workflow) : Workflow :=
  { workflow with
    candidateStatuses := Function.update workflow.candidateStatuses candidateId (some status)
    processedCandidates := Function.update workflow.processedCandidates candidateId
      (some processed) }

/-- The steps of the system. Attempts, jobs and signals are given by their places in the lists. -/
inductive Event where
  /-- A workflow is started for an investor. -/
  | start (workflowId investorId : Text)
  /-- A worker begins an attempt at the activity the workflow waits for. -/
  | begin (workflowId : Text)
  | attempt (attempt : ℕ) (found : Option InvestorProfile)
  /-- The result of an attempt reaches its workflow. -/
  | complete (attempt : ℕ)
  /-- All candidates are processed. -/
  | unblock (workflowId : Text)
  | timeOut (workflowId : Text)
  /-- All attempts have failed, or the execution has timed out. -/
  | fail (workflowId : Text)
  | investmentJob (job : ℕ)
  | candidateJob (job : ℕ)
  /-- A signal reaches its workflow. -/
  | deliver (signal : ℕ)

def step (policy : BackgroundJobPolicy) (s : State) : Event → Option State
  | .start workflowId investorId =>
    if (s.workflows workflowId).position = .notStarted then
      some (s.enter workflowId (.creatingWallet investorId))
    else none
  | .begin workflowId =>
    let workflow := s.workflows workflowId
    if workflow.attempts < maximumAttempts then
      workflow.position.activity.map fun position =>
        { s.setWorkflow workflowId { workflow with attempts := workflow.attempts + 1 } with
          attempts := s.attempts ++ [⟨workflowId, workflow.position, position⟩] }
    else none
  | .attempt i found => do
    let attempt ← s.attempts[i]?
    let (position, s') ← activityStep found attempt.workflowId s attempt.call attempt.position
    return { s' with attempts := s.attempts.set i { attempt with position } }
  | .complete i => do
    let attempt ← s.attempts[i]?
    let position ← returned attempt.call attempt.position
    -- a result that the workflow does not wait for any more is dropped
    if (s.workflows attempt.workflowId).position = attempt.call then
      return s.enter attempt.workflowId position
    else none
  | .unblock workflowId =>
    match (s.workflows workflowId).position with
    | .awaiting walletId investmentIds candidateIds =>
      if ∀ id ∈ candidateIds, (s.workflows workflowId).processedCandidates id = some true then
        some (s.enter workflowId (.finishing walletId investmentIds candidateIds))
      else none
    | _ => none
  | .timeOut workflowId =>
    match (s.workflows workflowId).position with
    | .awaiting walletId _ _ => some (s.enter workflowId (.aborting walletId))
    | _ => none
  | .fail workflowId =>
    if (s.workflows workflowId).position = .notStarted then none
    else some (s.enter workflowId .closed)
  | .investmentJob i => do
    let job ← s.investmentJobs[i]?
    let (position, s') ← investmentJobStep s job.investmentId job.position
    return { s' with investmentJobs := s.investmentJobs.set i { job with position } }
  | .candidateJob i => do
    let job ← s.candidateJobs[i]?
    let (position, s') ← candidateJobStep policy s job.workflowId job.candidateId job.position
    return { s' with candidateJobs := s.candidateJobs.set i { job with position } }
  | .deliver i => do
    let signal ← s.signals[i]?
    return s.setWorkflow signal.workflowId
      (candidateProcessed signal.candidateId signal.status signal.processed
        (s.workflows signal.workflowId))

end SampleWallet
