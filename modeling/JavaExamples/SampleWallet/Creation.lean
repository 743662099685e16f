import JavaExamples.Common.Renumbering
import JavaExamples.SampleWallet.Identifiers

/-!
# Creating rows over process lifetimes

`TemporalWorkerLifecycle.onStart` makes new counters, the tables stay. In between, `createWallet`,
`createInvestments` and `createFinancialEventCandidates` are called one after another; a call that
throws, or whose process ends, stops at any of its steps.

* `workerStep`: the steps of the activities, and the starts of processes.
* `freshIds_iff`: the ids given to new rows are those of no stored row, exactly if their numbers are
  new.
* `not_freshIds_restarted`: the first number of a second process is not.
-/

namespace SampleWallet

open Transition

/-- The process, the call it is at or has thrown out of, and the numbers of the rows that this
process and all before it have saved. -/
structure Worker where
  process : State
  activity : Option Attempt
  savedWallets : List ℕ
  savedInvestments : List ℕ
  savedCandidates : List ℕ

def Worker.initial (wallets : Table Wallet) (investments : Table Investment)
    (candidates : Table FinancialEventCandidate) : Worker :=
  { process := .initial wallets investments candidates, activity := none
    savedWallets := [], savedInvestments := [], savedCandidates := [] }

inductive WorkerEvent where
  /-- A new process on the same tables. -/
  | onStart
  | createWallet (investorId : Text)
  | createInvestments (investorId walletId : Text)
  | createFinancialEventCandidates (workflowId walletId : Text) (investmentIds : List Text)
  /-- The next step of the call. -/
  | perform (found : Option InvestorProfile)

/-- The numbers after a step of a call: when it saves a row, then with the number that the counter
has given out last. -/
def savedNumbers (unsaved : List Text) (sequence : ℕ) (saved : List ℕ) : List ℕ :=
  if unsaved = [] then saved else sequence :: saved

def workerStep (w : Worker) : WorkerEvent → Option Worker
  | .onStart =>
    some { w with
      process := .initial w.process.wallets w.process.investments w.process.candidates
      activity := none }
  | .createWallet investorId =>
    some { w with activity := some ⟨[], .creatingWallet investorId, .createWallet⟩ }
  | .createInvestments investorId walletId =>
    some { w with
      activity := some ⟨[], .creatingInvestments investorId walletId, .createInvestments⟩ }
  | .createFinancialEventCandidates workflowId walletId investmentIds =>
    some { w with
      activity := some
        ⟨workflowId, .creatingCandidates walletId investmentIds, .nextCandidate investmentIds []⟩ }
  | .perform found => do
    let attempt ← w.activity
    let (position, process) ←
      activityStep found attempt.workflowId w.process attempt.call attempt.position
    return {
      process, activity := some { attempt with position }
      savedWallets :=
        savedNumbers attempt.position.unsavedWalletIds w.process.walletSequence w.savedWallets
      savedInvestments :=
        savedNumbers attempt.position.unsavedInvestmentIds w.process.investmentSequence
          w.savedInvestments
      savedCandidates :=
        savedNumbers attempt.position.unsavedCandidateIds w.process.candidateSequence
          w.savedCandidates }

/-! ## Numbers and ids -/

/-- The id given to the row that is being created is not that of a stored row. -/
def FreshIds (w : Worker) : Prop :=
  ∀ attempt ∈ w.activity,
    (∀ id ∈ attempt.position.unsavedWalletIds, w.process.wallets id = none) ∧
      (∀ id ∈ attempt.position.unsavedInvestmentIds, w.process.investments id = none) ∧
      ∀ id ∈ attempt.position.unsavedCandidateIds, w.process.candidates id = none

/-- No row has been saved under the number, up to multiples of `2 ^ 32`, and none was stored under
its id at first. -/
def IsNew {ρ : Type} (id : ℕ → Text) (initial : Table ρ) (saved : List ℕ) (n : ℕ) : Prop :=
  initial (id n) = none ∧ ∀ m ∈ saved, m % 2 ^ 32 ≠ n % 2 ^ 32

/-- When the step gives out a number, then it is new. -/
def GivesNewNumber (wallets : Table Wallet) (investments : Table Investment)
    (candidates : Table FinancialEventCandidate) (w : Worker) : WorkerEvent → Prop
  | .perform _ =>
    match w.activity with
    | some ⟨_, .creatingWallet _, .createWallet⟩ =>
      IsNew walletId wallets w.savedWallets (w.process.walletSequence + 1)
    | some ⟨_, .creatingInvestments _ _, .nextInvestment _ (_ :: _) _⟩ =>
      IsNew investmentId investments w.savedInvestments (w.process.investmentSequence + 1)
    | some ⟨_, .creatingCandidates _ _, .nextCandidate (_ :: _) _⟩ =>
      IsNew candidateId candidates w.savedCandidates (w.process.candidateSequence + 1)
    | _ => True
  | _ => True

/-- An activity that creates rows. -/
def Position.creates : Position → Bool
  | creatingWallet _ => true
  | creatingInvestments _ _ => true
  | creatingCandidates _ _ => true
  | _ => false

namespace Worker

def unsaved (w : Worker) (ids : ActivityPosition → List Text) : List Text :=
  (w.activity.map fun attempt => ids attempt.position).getD []

def walletNumbers (w : Worker) : Renumbered Text Wallet :=
  { sequence := w.process.walletSequence, rows := w.process.wallets
    unsaved := w.unsaved ActivityPosition.unsavedWalletIds, saved := w.savedWallets }

def investmentNumbers (w : Worker) : Renumbered Text Investment :=
  { sequence := w.process.investmentSequence, rows := w.process.investments
    unsaved := w.unsaved ActivityPosition.unsavedInvestmentIds, saved := w.savedInvestments }

def candidateNumbers (w : Worker) : Renumbered Text FinancialEventCandidate :=
  { sequence := w.process.candidateSequence, rows := w.process.candidates
    unsaved := w.unsaved ActivityPosition.unsavedCandidateIds, saved := w.savedCandidates }

/-- Rows are created only, and each table is traced by the numbers. -/
structure Traced (wallets : Table Wallet) (investments : Table Investment)
    (candidates : Table FinancialEventCandidate) (w : Worker) : Prop where
  creates : ∀ attempt ∈ w.activity, attempt.call.creates = true
  wallets : w.walletNumbers.Traced walletId wallets
  investments : w.investmentNumbers.Traced investmentId investments
  candidates : w.candidateNumbers.Traced candidateId candidates

end Worker

theorem freshIds_iff_freshHeld {w : Worker} :
    FreshIds w ↔ w.walletNumbers.FreshHeld ∧ w.investmentNumbers.FreshHeld ∧
      w.candidateNumbers.FreshHeld := by
  obtain ⟨process, activity, savedWallets, savedInvestments, savedCandidates⟩ := w
  cases activity with
  | none => exact iff_of_true nofun ⟨nofun, nofun, nofun⟩
  | some attempt => exact ⟨fun h => h attempt rfl, fun h _ ha => Option.some.inj ha ▸ h⟩

section Steps

open Renumbered

variable {workflowId : Text} {s s' : State} {call : Position}
  {position position' : ActivityPosition}

theorem ActivityStep.walletRenumbered (h : ActivityStep workflowId s call position position' s')
    (hcreates : call.creates = true) (saved : List ℕ) :
    Change walletId ⟨s.walletSequence, s.wallets, position.unsavedWalletIds, saved⟩
      ⟨s'.walletSequence, s'.wallets, position'.unsavedWalletIds,
        savedNumbers position.unsavedWalletIds s.walletSequence saved⟩ := by
  cases h with
  | createWallet => exact .next rfl rfl rfl rfl
  | saveWallet investorId id =>
    exact .save id (newWallet investorId) (List.mem_singleton_self id) rfl rfl rfl rfl
  | saveReady => cases hcreates
  | saveAborted => cases hcreates
  | _ => exact .keep rfl rfl (fun _ h => h) rfl

theorem ActivityStep.investmentRenumbered (h : ActivityStep workflowId s call position position' s')
    (saved : List ℕ) :
    Change investmentId ⟨s.investmentSequence, s.investments, position.unsavedInvestmentIds, saved⟩
      ⟨s'.investmentSequence, s'.investments, position'.unsavedInvestmentIds,
        savedNumbers position.unsavedInvestmentIds s.investmentSequence saved⟩ := by
  cases h with
  | nextInvestment => exact .next rfl rfl rfl rfl
  | saveInvestment investorId walletId profile id base =>
    exact .save id (newInvestment walletId investorId profile base) (List.mem_singleton_self id)
      rfl rfl rfl rfl
  | _ => exact .keep rfl rfl (fun _ h => h) rfl

theorem ActivityStep.candidateRenumbered (h : ActivityStep workflowId s call position position' s')
    (saved : List ℕ) :
    Change candidateId ⟨s.candidateSequence, s.candidates, position.unsavedCandidateIds, saved⟩
      ⟨s'.candidateSequence, s'.candidates, position'.unsavedCandidateIds,
        savedNumbers position.unsavedCandidateIds s.candidateSequence saved⟩ := by
  cases h with
  | nextCandidate => exact .next rfl rfl rfl rfl
  | saveCandidate walletId all id investmentId =>
    exact .save id (newCandidate investmentId) (List.mem_singleton_self id) rfl rfl rfl rfl
  | _ => exact .keep rfl rfl (fun _ h => h) rfl

variable {wallets : Table Wallet} {investments : Table Investment}
  {candidates : Table FinancialEventCandidate} {w w' : Worker} {event : WorkerEvent}

/-- What a step of the worker does to each table. -/
theorem workerStep_changes (h : workerStep w event = some w')
    (hcreates : ∀ attempt ∈ w.activity, attempt.call.creates = true) :
    (∀ attempt ∈ w'.activity, attempt.call.creates = true) ∧
      Change walletId w.walletNumbers w'.walletNumbers ∧
      Change investmentId w.investmentNumbers w'.investmentNumbers ∧
      Change candidateId w.candidateNumbers w'.candidateNumbers := by
  cases event with
  -- the tables stay, the counters and the call in progress do not
  | onStart =>
    obtain rfl := Option.some.inj h
    exact ⟨nofun, .restart rfl rfl rfl rfl, .restart rfl rfl rfl rfl, .restart rfl rfl rfl rfl⟩
  -- a new call has no id in hand yet
  | createWallet | createInvestments | createFinancialEventCandidates =>
    obtain rfl := Option.some.inj h
    refine ⟨fun attempt ha => Option.some.inj ha ▸ rfl, .keep rfl rfl nofun rfl,
      .keep rfl rfl nofun rfl, .keep rfl rfl nofun rfl⟩
  | perform found =>
    obtain ⟨attempt, hattempt, h⟩ := Option.bind_eq_some_iff.mp h
    obtain ⟨⟨position, process⟩, hstep, h⟩ := Option.bind_eq_some_iff.mp h
    obtain rfl := Option.some.inj h
    -- the step of the call is one of `activityStep`, seen by each table
    have hcall := hcreates attempt hattempt
    have hstep := activityStep_cases hstep
    refine ⟨fun _ ha => Option.some.inj ha ▸ hcall, ?_, ?_, ?_⟩
    · rw [Worker.walletNumbers, Worker.unsaved, hattempt]
      exact hstep.walletRenumbered hcall w.savedWallets
    · rw [Worker.investmentNumbers, Worker.unsaved, hattempt]
      exact hstep.investmentRenumbered w.savedInvestments
    · rw [Worker.candidateNumbers, Worker.unsaved, hattempt]
      exact hstep.candidateRenumbered w.savedCandidates

theorem workerStep_traced (h : workerStep w event = some w')
    (hw : w.Traced wallets investments candidates) : w'.Traced wallets investments candidates := by
  obtain ⟨hcreates, hwallets, hinvestments, hcandidates⟩ := workerStep_changes h hw.creates
  exact ⟨hcreates, hw.wallets.change hwallets, hw.investments.change hinvestments,
    hw.candidates.change hcandidates⟩

theorem newNumber_iff {ρ : Type} {id : ℕ → Text} {initial : Table ρ} {s : Renumbered Text ρ}
    (hid : ∀ m n, id m = id n ↔ m % 2 ^ 32 = n % 2 ^ 32) :
    NewNumber id initial s ↔ IsNew id initial s.saved (s.sequence + 1) :=
  and_congr_right fun _ => forall₂_congr fun m _ => not_congr (hid m _)

/-- A step gives out a number of one table at most, and where it is known which. -/
theorem givesNewNumber_iff (h : workerStep w event = some w') :
    GivesNewNumber wallets investments candidates w event ↔
      (w'.process.walletSequence = w.process.walletSequence + 1 →
        IsNew walletId wallets w.savedWallets (w.process.walletSequence + 1)) ∧
      (w'.process.investmentSequence = w.process.investmentSequence + 1 →
        IsNew investmentId investments w.savedInvestments (w.process.investmentSequence + 1)) ∧
      (w'.process.candidateSequence = w.process.candidateSequence + 1 →
        IsNew candidateId candidates w.savedCandidates (w.process.candidateSequence + 1)) := by
  cases event with
  | onStart | createWallet | createInvestments | createFinancialEventCandidates =>
    obtain rfl := Option.some.inj h
    simp [GivesNewNumber, State.initial]
  | perform found =>
    obtain ⟨⟨workflowId, call, position⟩, hattempt, h⟩ := Option.bind_eq_some_iff.mp h
    obtain ⟨⟨position', process⟩, hstep, h⟩ := Option.bind_eq_some_iff.mp h
    obtain rfl := Option.some.inj h
    have hstep := activityStep_cases hstep
    dsimp only at hstep
    unfold GivesNewNumber
    rw [hattempt]
    cases hstep <;> simp

/-- The next id is not that of a stored row, exactly if its number is new. -/
theorem freshIds_step_iff (h : workerStep w event = some w')
    (hw : w.Traced wallets investments candidates) (hfresh : FreshIds w) :
    FreshIds w' ↔ GivesNewNumber wallets investments candidates w event := by
  obtain ⟨-, hwallets, hinvestments, hcandidates⟩ := workerStep_changes h hw.creates
  obtain ⟨hfreshWallets, hfreshInvestments, hfreshCandidates⟩ := freshIds_iff_freshHeld.mp hfresh
  rw [freshIds_iff_freshHeld, givesNewNumber_iff h, hwallets.freshHeld_iff hw.wallets hfreshWallets,
    hinvestments.freshHeld_iff hw.investments hfreshInvestments,
    hcandidates.freshHeld_iff hw.candidates hfreshCandidates,
    newNumber_iff fun _ _ => walletId_eq_iff, newNumber_iff fun _ _ => investmentId_eq_iff,
    newNumber_iff fun _ _ => candidateId_eq_iff]
  rfl

end Steps

/-- Over all lifetimes, the ids given to new rows are not those of stored rows, exactly if all
numbers given out are new. -/
theorem freshIds_iff (wallets : Table Wallet) (investments : Table Investment)
    (candidates : Table FinancialEventCandidate) (events : List WorkerEvent) :
    Throughout workerStep FreshIds (.initial wallets investments candidates) events ↔
      Along workerStep (GivesNewNumber wallets investments candidates)
        (.initial wallets investments candidates) events :=
  throughout_iff_along (J := Worker.Traced wallets investments candidates)
    (fun _ _ _ hw h => workerStep_traced h hw)
    (fun _ _ _ hw hfresh h => freshIds_step_iff h hw hfresh)
    ⟨nofun, .start wallets, .start investments, .start candidates⟩ nofun

/-- A wallet in a first process, and one in a second process up to its id. -/
def restartedEvents : List WorkerEvent :=
  [.createWallet "investor-1".toList, .perform none, .perform none, .onStart,
    .createWallet "investor-2".toList, .perform none]

/-- The second process gives the id of the first one's wallet to its own, and saves it over that. -/
theorem not_freshIds_restarted :
    ¬ Throughout workerStep FreshIds (.initial (fun _ => none) (fun _ => none) fun _ => none)
        restartedEvents ∧
      ((run workerStep (.initial (fun _ => none) (fun _ => none) fun _ => none)
        (restartedEvents ++ [.perform none])).bind fun w =>
          (w.process.wallets (walletId 1)).map Wallet.investorId) = some "investor-2".toList := by
  constructor
  -- before the second save its id is in hand, and the first wallet is stored under it
  · intro hthroughout
    have hfacts : (run workerStep (.initial (fun _ => none) (fun _ => none) fun _ => none)
        restartedEvents).map (fun w =>
          (w.activity.map fun attempt => attempt.position.unsavedWalletIds,
            (w.process.wallets (walletId 1)).isSome)) = some (some [walletId 1], true) := by
      decide +kernel
    obtain ⟨w, hrun, hfacts⟩ := Option.map_eq_some_iff.mp hfacts
    obtain ⟨hactivity, hstored⟩ := Prod.mk.inj hfacts
    obtain ⟨attempt, hattempt, hunsaved⟩ := Option.map_eq_some_iff.mp hactivity
    obtain ⟨hfresh, -⟩ := throughout_iff_initial.mp hthroughout restartedEvents w
      (List.prefix_refl _) hrun attempt hattempt
    rw [hfresh (walletId 1) (hunsaved ▸ List.mem_singleton_self _)] at hstored
    cases hstored
  · decide +kernel

end SampleWallet
