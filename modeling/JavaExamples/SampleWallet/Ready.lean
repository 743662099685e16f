import JavaExamples.SampleWallet.Statuses

/-!
# READY means done

Whole runs of the workflows, from the start of a process on.

* `DoneWhenReady`: where a run saves a wallet as READY, its candidates and investments are done.
* `doneWhenReady_of_fresh`: it holds as long as the counters give out no id twice and none that was
  stored before the process started.
* `not_doneWhenReady_repeated`: it does not when they do.
-/

namespace SampleWallet

open Transition

/-- The step saves the wallet as READY, for these investments and candidates. -/
def SavesReady (s : State) (event : Event) (walletId : Text)
    (investmentIds candidateIds : List Text) :
    Prop :=
  ∃ i found attempt wallet, event = .attempt i found ∧ s.attempts[i]? = some attempt ∧
    attempt.call = .finishing walletId investmentIds candidateIds ∧
    attempt.position = .saveReady wallet

/-- Along a run a status moves on from CREATING only; and when a wallet is saved as READY, then its
candidates and investments are done, and still are at the end. -/
def DoneWhenReady (policy : BackgroundJobPolicy) (start : State) (events : List Event)
    (final : State) :
    Prop :=
  ∀ before event after s t, events = before ++ event :: after →
    run (step policy) start before = some s → step policy s event = some t →
    StatusesMove s.wallets t.wallets ∧
      ∀ walletId investmentIds candidateIds,
        SavesReady s event walletId investmentIds candidateIds →
          AllDone t investmentIds candidateIds ∧ AllDone final investmentIds candidateIds

/-- No id that the counters give out until `final` is stored. -/
structure State.Fresh (start final : State) : Prop where
  wallets : ∀ k ∈ Set.Ioc 0 final.walletSequence, start.wallets (walletId k) = none
  investments : ∀ k ∈ Set.Ioc 0 final.investmentSequence, start.investments (investmentId k) = none
  candidates : ∀ k ∈ Set.Ioc 0 final.candidateSequence, start.candidates (candidateId k) = none

structure Invariant (final s : State) : Prop where
  identified : Identified final s
  progress : Progress s
  wallets : WalletProgress s

section Runs

variable {policy : BackgroundJobPolicy} {s t final : State} {events : List Event}

theorem Stored.initial (wallets : Table Wallet) (investments : Table Investment)
    (candidates : Table FinancialEventCandidate) :
    Stored (.initial wallets investments candidates) where
  wallets := by simp [State.initial]
  investments := by simp [State.initial]
  candidates := by simp [State.initial]

theorem Invariant.initial {wallets : Table Wallet} {investments : Table Investment}
    {candidates : Table FinancialEventCandidate}
    (hfresh : (State.initial wallets investments candidates).Fresh final) :
    Invariant final (.initial wallets investments candidates) where
  identified :=
    { wallets := .empty hfresh.wallets
      investments := .empty hfresh.investments
      candidates := .empty hfresh.candidates
      stored := .initial wallets investments candidates }
  progress := .initial wallets investments candidates
  wallets := .initial wallets investments candidates

theorem Step.invariant (h : Step policy s t) (hmax : 1 ≤ policy.maxCandidateAttempts)
    (hunwrapped : final.Unwrapped) (hwithin : t.Within final) (hs : Invariant final s) :
    Invariant final t := by
  have ht := h.identified hunwrapped hs.identified hwithin
  exact ⟨ht, h.progress hmax hs.identified ht hs.progress,
    h.walletProgress hs.identified hs.wallets⟩

theorem State.Within.trans {u : State} (h : s.Within t) (h' : t.Within u) : s.Within u :=
  ⟨h.wallets.trans h'.wallets, h.investments.trans h'.investments, h.candidates.trans h'.candidates⟩

/-- The counters only go on. -/
theorem within_of_run (hs : Stored s) (hrun : run (step policy) s events = some t) :
    Stored t ∧ s.Within t := by
  -- that counters never go back needs the stored rows, and these need no bound
  refine run_invariant (step policy) (I := fun t => Stored t ∧ s.Within t) ?_
    ⟨hs, le_rfl, le_rfl, le_rfl⟩ hrun
  rintro t event u ⟨ht, hwithin⟩ hstep
  have hstep := step_cases hstep
  exact ⟨hstep.stored ht, hwithin.trans (hstep.within ht)⟩

/-- What the steps keep as long as no counter goes further than in `final`, a run keeps. -/
theorem run_invariant_within {I : State → Prop}
    (hstep : ∀ t u, Step policy t u → u.Within final → I t → I u) (hstored : Stored s) (hs : I s)
    (hrun : run (step policy) s events = some t) (hwithin : t.Within final) : I t := by
  -- the bound is on the last state of the run, so that it is carried back through the steps
  refine (run_invariant (step policy) (I := fun t => Stored t ∧ (t.Within final → I t)) ?_
    ⟨hstored, fun _ => hs⟩ hrun).2 hwithin
  rintro t event u ⟨hstored, ht⟩ hevent
  have hevent := step_cases hevent
  exact ⟨hevent.stored hstored, fun hwithin =>
    hstep t u hevent hwithin (ht ((hevent.within hstored).trans hwithin))⟩

/-- A run keeps the invariant, and what holds of a position goes on to hold. -/
theorem invariant_of_run (hmax : 1 ≤ policy.maxCandidateAttempts) (hunwrapped : final.Unwrapped)
    (hs : Invariant final s) (hrun : run (step policy) s events = some t)
    (hwithin : t.Within final) :
    Invariant final t ∧ ∀ position, PositionProgress s position → PositionProgress t position := by
  refine run_invariant_within (I := fun t => Invariant final t ∧
    ∀ position, PositionProgress s position → PositionProgress t position) ?_
    hs.identified.stored ⟨hs, fun _ h => h⟩ hrun hwithin
  rintro t u hstep hwithin ⟨ht, hkept⟩
  refine ⟨hstep.invariant hmax hunwrapped hwithin ht, fun position hposition => ?_⟩
  exact (hkept position hposition).mono (hstep.grows ht.identified ht.progress)

end Runs

/-- As long as the counters give out every id once, and none that was stored before, statuses move
on from CREATING only, and what is READY is done. -/
theorem doneWhenReady_of_fresh {policy : BackgroundJobPolicy} {wallets : Table Wallet}
    {investments : Table Investment} {candidates : Table FinancialEventCandidate}
    {events : List Event} {final : State} (hmax : 1 ≤ policy.maxCandidateAttempts)
    (hrun : run (step policy) (.initial wallets investments candidates) events = some final)
    (hunwrapped : final.Unwrapped)
    (hfresh : (State.initial wallets investments candidates).Fresh final) :
    DoneWhenReady policy (.initial wallets investments candidates) events final := by
  rintro before event after s t rfl hbefore hstep
  -- the run goes to `s`, takes the step to `t`, and goes on to its end
  obtain ⟨s', hbefore', hrest⟩ := (run_append_eq_some (step policy)).mp hrun
  obtain rfl := Option.some.inj (hbefore.symm.trans hbefore')
  obtain ⟨t', hstep', hafter⟩ := (run_cons_eq_some (step policy)).mp hrest
  obtain rfl := Option.some.inj (hstep.symm.trans hstep')
  have hevent := step_cases hstep
  obtain ⟨hstored, -⟩ := within_of_run (.initial wallets investments candidates) hbefore
  obtain ⟨-, hwithin⟩ := within_of_run (hevent.stored hstored) hafter
  obtain ⟨hs, -⟩ := invariant_of_run hmax hunwrapped (.initial hfresh) hbefore
    ((hevent.within hstored).trans hwithin)
  have ht := hevent.invariant hmax hunwrapped hwithin hs
  obtain ⟨hfinal, hkept⟩ := invariant_of_run hmax hunwrapped ht hafter ⟨le_rfl, le_rfl, le_rfl⟩
  refine ⟨hevent.statusesMove hs.identified hs.wallets, ?_⟩
  rintro walletId investmentIds candidateIds ⟨i, found, attempt, wallet, -, hattempt, hcall, -⟩
  -- who saves READY is behind the wait for all candidates
  have hposition : PositionProgress t (.finishing walletId investmentIds candidateIds) :=
    (hcall ▸ hs.progress.calls attempt (List.mem_of_getElem? hattempt)).mono
      (hevent.grows hs.identified hs.progress)
  exact ⟨ht.progress.allDone hposition, hfinal.progress.allDone (hkept _ hposition)⟩

def workflowName (k : ℕ) : Text := "sample-wallet-creation-".toList ++ Text.ofInt k

theorem workflowName_injective : Function.Injective workflowName := by
  intro j k h
  exact_mod_cast Text.ofInt_injective (List.append_cancel_left h)

def matchingPolicy : BackgroundJobPolicy :=
  { failFirstAttemptCandidateIds := ∅, alwaysSlowCandidateIds := ∅, maxCandidateAttempts := 3 }

/-- Tables with the wallets alone. -/
def State.withWallets (wallets : Table Wallet) : State :=
  .initial wallets (fun _ => none) (fun _ => none)

/-- A workflow that comes to its end without a retry. -/
def readyEvents : List Event :=
  List.flatten
    [[.start (workflowName 0) "investor".toList, .begin (workflowName 0)],
      List.replicate 2 (.attempt 0 none), [.complete 0, .begin (workflowName 0)],
      List.replicate 12 (.attempt 1 (some .ARROJADO)), [.complete 1, .begin (workflowName 0)],
      List.replicate 11 (.attempt 2 none), [.complete 2, .begin (workflowName 0)],
      [.attempt 3 none, .complete 3],
      [.investmentJob 0, .investmentJob 0, .investmentJob 1, .investmentJob 1, .investmentJob 2,
        .investmentJob 2],
      List.replicate 7 (.candidateJob 0), List.replicate 7 (.candidateJob 1),
      List.replicate 7 (.candidateJob 2), [.deliver 0, .deliver 1, .deliver 2],
      [.unblock (workflowName 0), .begin (workflowName 0), .attempt 4 none, .attempt 4 none]]

theorem run_readyEvents :
    ∃ s, run (step matchingPolicy) (.withWallets fun _ => none) readyEvents = some s ∧
      (s.walletSequence, s.investmentSequence, s.candidateSequence) = (1, 3, 3) ∧
      (s.wallets (walletId 1)).map Wallet.status = some .READY := by
  have hfacts : (run (step matchingPolicy) (.withWallets fun _ => none) readyEvents).map (fun s =>
      ((s.walletSequence, s.investmentSequence, s.candidateSequence),
        (s.wallets (walletId 1)).map Wallet.status)) = some ((1, 3, 3), some .READY) := by
    decide +kernel
  obtain ⟨s, hrun, hfacts⟩ := Option.map_eq_some_iff.mp hfacts
  obtain ⟨hsequences, hstatus⟩ := Prod.mk.inj hfacts
  exact ⟨s, hrun, hsequences, hstatus⟩

theorem doneWhenReady_of_fresh_readyEvents :
    ∃ final, run (step matchingPolicy) (.withWallets fun _ => none) readyEvents = some final ∧
      (final.wallets (walletId 1)).map Wallet.status = some .READY ∧
      DoneWhenReady matchingPolicy (.withWallets fun _ => none) readyEvents final := by
  obtain ⟨final, hrun, hsequences, hstatus⟩ := run_readyEvents
  simp only [Prod.mk.injEq] at hsequences
  obtain ⟨hwallets, hinvestments, hcandidates⟩ := hsequences
  refine ⟨final, hrun, hstatus, doneWhenReady_of_fresh (by decide) hrun ?_ ?_⟩
  · exact ⟨by omega, by omega, by omega⟩
  · exact ⟨fun _ _ => rfl, fun _ _ => rfl, fun _ _ => rfl⟩

/-! ## Ids given out twice -/

section Repeated

variable {policy : BackgroundJobPolicy} {s t : State} {events : List Event}

/-- Nobody but its start starts a workflow. -/
theorem step_notStarted {workflowId : Text} {event : Event} (h : step policy s event = some t)
    (hevent : ∀ investorId, event ≠ .start workflowId investorId)
    (hs : (s.workflows workflowId).position = .notStarted) :
    (t.workflows workflowId).position = .notStarted := by
  cases step_fired h with
  | workflow _ id workflow hstep _ hstart =>
    by_cases hid : workflowId = id
    · subst hid
      rw [State.setWorkflow_self]
      refine (hstart hs).resolve_right ?_
      rintro ⟨investorId, rfl⟩
      exact hevent investorId rfl
    · rwa [State.setWorkflow_of_ne hid]
  | begin id position hposition =>
    by_cases hid : workflowId = id
    · subst hid
      simpa only [State.setWorkflow_self] using hs
    · simpa only [State.setWorkflow_of_ne hid] using hs
  | attempt i found attempt position s₁ hattempt hstep =>
    exact hstep.outside.workflows ▸ hs
  | investmentJob i job position s₁ hjob hstep =>
    exact hstep.outside.workflows ▸ hs
  | candidateJob i job position s₁ hjob hstep =>
    exact hstep.outside.workflows ▸ hs

theorem run_notStarted {workflowId : Text} (hrun : run (step policy) s events = some t)
    (hevents : ∀ investorId, .start workflowId investorId ∉ events)
    (hs : (s.workflows workflowId).position = .notStarted) :
    (t.workflows workflowId).position = .notStarted := by
  induction events generalizing s with
  | nil =>
    obtain rfl := Option.some.inj hrun
    exact hs
  | cons event events ih =>
    obtain ⟨u, hstep, hrest⟩ := (run_cons_eq_some (step policy)).mp hrun
    refine ih hrest (fun investorId hmem => hevents investorId (List.mem_cons_of_mem _ hmem)) ?_
    refine step_notStarted hstep (fun investorId heq => hevents investorId ?_) hs
    exact heq ▸ List.mem_cons_self

theorem step_begin {workflowId : Text} {position : ActivityPosition}
    (hactivity : (s.workflows workflowId).position.activity = some position)
    (hattempts : (s.workflows workflowId).attempts < maximumAttempts) :
    step policy s (.begin workflowId) = some
      { s.setWorkflow workflowId
          { s.workflows workflowId with attempts := (s.workflows workflowId).attempts + 1 } with
        attempts :=
          s.attempts ++ [⟨workflowId, (s.workflows workflowId).position, position⟩] } := by
  simp only [step, if_pos hattempts, hactivity, Option.map_some]

theorem step_attempt {i : ℕ} {attempt : Attempt} {found : Option InvestorProfile}
    {position : ActivityPosition} {s' : State} (hattempt : s.attempts[i]? = some attempt)
    (hstep : activityStep found attempt.workflowId s attempt.call attempt.position =
      some (position, s')) :
    step policy s (.attempt i found) =
      some { s' with attempts := s.attempts.set i { attempt with position } } := by
  simp only [step, hattempt, hstep, Option.bind_eq_bind, Option.bind_some, Option.pure_def]

/-- A new workflow, up to the id of its wallet. -/
def numberWallet (workflowId : Text) (attempt : ℕ) : List Event :=
  [.start workflowId "investor".toList, .begin workflowId, .attempt attempt none]

variable (policy) in
theorem run_numberWallet {workflowId : Text}
    (hs : (s.workflows workflowId).position = .notStarted) :
    ∃ t, run (step policy) s (numberWallet workflowId s.attempts.length) = some t ∧
      t.walletSequence = s.walletSequence + 1 ∧ t.wallets = s.wallets ∧
      t.attempts = s.attempts ++ [⟨workflowId, .creatingWallet "investor".toList,
        .saveWallet (walletId (s.walletSequence + 1))⟩] := by
  unfold numberWallet
  generalize "investor".toList = investor
  -- `start`, `begin` and the first step of the attempt, one after the other
  have hstart : step policy s (.start workflowId investor) =
      some (s.enter workflowId (.creatingWallet investor)) := if_pos hs
  generalize hu : s.enter workflowId (.creatingWallet investor) = u at hstart
  have hworkflow : u.workflows workflowId =
      { s.workflows workflowId with position := .creatingWallet investor, attempts := 0 } :=
    hu ▸ State.setWorkflow_self ..
  have hposition : (u.workflows workflowId).position = .creatingWallet investor := by rw [hworkflow]
  have hattempts : (u.workflows workflowId).attempts < maximumAttempts := by
    rw [hworkflow]
    show 0 < maximumAttempts
    decide
  have hbegin : step policy u (.begin workflowId) = _ :=
    step_begin (congrArg Position.activity hposition) hattempts
  have hattempt : (u.attempts ++ [⟨workflowId, (u.workflows workflowId).position, .createWallet⟩])[
      s.attempts.length]? = some ⟨workflowId, .creatingWallet investor, .createWallet⟩ := by
    rw [hposition, ← hu]
    exact List.getElem?_concat_length
  rw [run_cons, hstart, Option.bind_some, run_cons, hbegin, Option.bind_some, run_cons,
    step_attempt hattempt rfl, Option.bind_some]
  refine ⟨_, rfl, ?_, ?_, ?_⟩
  · rw [← hu]; rfl
  · rw [← hu]; rfl
  · rw [← hu]
    simp [State.enter, State.setWorkflow]

/-- The workflows from 1 to `n`, up to the ids of their wallets; `attempts` is the number of
attempts before. -/
def numberWallets (attempts : ℕ) : ℕ → List Event
  | 0 => []
  | n + 1 => numberWallets attempts n ++ numberWallet (workflowName (n + 1)) (attempts + n)

variable (policy) in
theorem run_numberWallets (n : ℕ)
    (hs : ∀ k, 0 < k → (s.workflows (workflowName k)).position = .notStarted) :
    ∃ t, run (step policy) s (numberWallets s.attempts.length n) = some t ∧
      t.walletSequence = s.walletSequence + n ∧ t.wallets = s.wallets ∧
      t.attempts.length = s.attempts.length + n ∧
      ∀ k, n < k → (t.workflows (workflowName k)).position = .notStarted := by
  induction n with
  | zero => exact ⟨s, rfl, rfl, rfl, rfl, hs⟩
  | succ n ih =>
    obtain ⟨t, hrun, hsequence, hwallets, hlength, hnotStarted⟩ := ih
    obtain ⟨u, hrun', hsequence', hwallets', hattempts'⟩ :=
      run_numberWallet policy (hnotStarted (n + 1) (Nat.lt_succ_self n))
    refine ⟨u, ?_, by omega, hwallets'.trans hwallets, ?_, fun k hk => ?_⟩
    · rw [numberWallets, run_append, hrun, Option.bind_some, ← hlength]
      exact hrun'
    · rw [hattempts', List.length_append, hlength]
      rfl
    -- the workflows behind this one are still to be started
    · refine run_notStarted hrun' (fun investorId hmem => ?_) (hnotStarted k (by omega))
      have hname : workflowName k ≠ workflowName (n + 1) := fun h => by
        have hsame := workflowName_injective h
        omega
      simp [numberWallet, hname] at hmem

/-- A new row that is saved over one that is READY. -/
theorem not_doneWhenReady_of_saveWallet {workflowId investorId id : Text} {row : Wallet} {i : ℕ}
    {start : State} (hrun : run (step policy) start events = some s)
    (hattempt : s.attempts[i]? = some ⟨workflowId, .creatingWallet investorId, .saveWallet id⟩)
    (hrow : s.wallets id = some row) (hready : row.status = .READY) :
    ∃ t, run (step policy) start (events ++ [.attempt i none]) = some t ∧
      ¬ DoneWhenReady policy start (events ++ [.attempt i none]) t := by
  have hstep : step policy s (.attempt i none) = _ := step_attempt hattempt rfl
  refine ⟨_, (run_snoc_eq_some (step policy)).mpr ⟨s, hrun, hstep⟩, fun hdone => ?_⟩
  obtain ⟨hmoves, -⟩ := hdone events (.attempt i none) [] s _ rfl hrun hstep
  -- READY would have to stay READY, but the row is a new one
  obtain ⟨row', hrow', hstatus⟩ := hmoves.moved id row hrow
  have hnew : row' = newWallet investorId :=
    Option.some.inj (hrow'.symm.trans save_self)
  rw [hready, hnew] at hstatus
  simp [newWallet] at hstatus

/-- The number after the last one is the first one again. -/
theorem walletId_repeated {n : ℕ} (hn : n = 2 ^ 32 + 1) : walletId n = walletId 1 := by
  have hmod : n % 2 ^ 32 = 1 % 2 ^ 32 := by omega
  unfold walletId
  rw [AtomicInteger.value_eq_iff.mpr hmod]

end Repeated

/-- After wallet 1 has become READY, the counter goes around and its id is given out once more. -/
theorem exists_not_doneWhenReady_of_wrap :
    ∃ events final, run (step matchingPolicy) (.withWallets fun _ => none) events = some final ∧
      ¬ DoneWhenReady matchingPolicy (.withWallets fun _ => none) events final := by
  obtain ⟨s, hrun, hsequences, hstatus⟩ := run_readyEvents
  have hsequence : s.walletSequence = 1 := congrArg Prod.fst hsequences
  obtain ⟨row, hrow, hready⟩ := Option.map_eq_some_iff.mp hstatus
  -- the first workflow has the number 0, all later ones have their own
  have hnotStarted : ∀ k, 0 < k → (s.workflows (workflowName k)).position = .notStarted := by
    intro k hk
    have hname : workflowName k ≠ workflowName 0 := fun h => by
      have hsame := workflowName_injective h
      omega
    refine run_notStarted hrun (fun investorId hmem => ?_) rfl
    simp [readyEvents, hname] at hmem
  -- the counter goes around, and one workflow more begins
  obtain ⟨t, hrun', hsequence', hwallets', -, hnotStarted'⟩ :=
    run_numberWallets matchingPolicy (2 ^ 32 - 1) hnotStarted
  obtain ⟨u, hrun'', -, hwallets'', hattempts⟩ :=
    run_numberWallet matchingPolicy (hnotStarted' (2 ^ 32) (by omega))
  have hid : walletId (t.walletSequence + 1) = walletId 1 := walletId_repeated (by omega)
  rw [hid] at hattempts
  obtain ⟨final, hfinal, hnot⟩ := not_doneWhenReady_of_saveWallet
    ((run_append_eq_some (step matchingPolicy)).mpr
      ⟨t, (run_append_eq_some (step matchingPolicy)).mpr ⟨s, hrun, hrun'⟩, hrun''⟩)
    (hattempts ▸ List.getElem?_concat_length) (hwallets''.trans hwallets' ▸ hrow) hready
  exact ⟨_, final, hfinal, hnot⟩

/-- The tables that a process with one wallet leaves. -/
def readyWallets : Table Wallet := save (walletId 1) ⟨"investor".toList, .READY⟩ fun _ => none

/-- A second process gives the id of the wallet to its first one. -/
theorem exists_not_doneWhenReady_of_restart :
    ∃ events final, run (step matchingPolicy) (.withWallets readyWallets) events = some final ∧
      ¬ DoneWhenReady matchingPolicy (.withWallets readyWallets) events final := by
  generalize hstart : State.withWallets readyWallets = start
  have hnotStarted : (start.workflows (workflowName 0)).position = .notStarted := by
    rw [← hstart]
    rfl
  obtain ⟨s, hrun, -, hwallets, hattempts⟩ := run_numberWallet matchingPolicy hnotStarted
  have hsequence : start.walletSequence = 0 := by
    rw [← hstart]
    rfl
  have hrow : s.wallets (walletId 1) = some ⟨"investor".toList, .READY⟩ := by
    rw [hwallets, ← hstart]
    show readyWallets (walletId 1) = _
    exact save_self
  rw [hsequence] at hattempts
  obtain ⟨final, hfinal, hnot⟩ := not_doneWhenReady_of_saveWallet hrun
    (hattempts ▸ List.getElem?_concat_length) hrow rfl
  exact ⟨_, final, hfinal, hnot⟩

/-- In a process that starts on empty tables, `2 ^ 32` wallets after wallet 1 its id is given out
once more; in one that starts on the tables of an earlier process, with the first wallet. -/
theorem not_doneWhenReady_repeated :
    (∃ events final, run (step matchingPolicy) (.withWallets fun _ => none) events = some final ∧
      ¬ DoneWhenReady matchingPolicy (.withWallets fun _ => none) events final) ∧
    ∃ events final, run (step matchingPolicy) (.withWallets readyWallets) events = some final ∧
      ¬ DoneWhenReady matchingPolicy (.withWallets readyWallets) events final :=
  ⟨exists_not_doneWhenReady_of_wrap, exists_not_doneWhenReady_of_restart⟩

end SampleWallet
