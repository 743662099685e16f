import Mathlib.Algebra.Ring.Int.Defs
import JavaExamples.SampleWallet.Progress

/-!
# The candidate job

`processCandidate` on its own, from any state in which the investment of its candidate is created.
The variable of its loop is an `int` that wraps around, and the test `attempts <= max` holds of
every `int` if `max` is the largest one.

* `run_candidateJob`: its steps are those of a job of the system.
* `reaches_nextAttempt_of_slow` and its siblings: what one pass of the loop comes to.
* `endsRight_iff`: when it ends, with one signal and the right verdict.
-/

namespace SampleWallet

/-- One step of `processCandidate`. -/
def jobStep (policy : BackgroundJobPolicy) (workflowId id : Text) :
    CandidateJobPosition × State → Unit → Option (CandidateJobPosition × State)
  | (position, s), () => candidateJobStep policy s workflowId id position

/-- The job gets from one position and state to another in `n` steps. -/
def Reaches (policy : BackgroundJobPolicy) (workflowId id : Text)
    (c : CandidateJobPosition × State) (n : ℕ) (c' : CandidateJobPosition × State) : Prop :=
  Transition.run (jobStep policy workflowId id) c (List.replicate n ()) = some c'

/-- `processCandidate` called in `s` comes to a position and a state in `n` steps. -/
def processCandidate (policy : BackgroundJobPolicy) (workflowId id : Text) (s : State) (n : ℕ)
    (position : CandidateJobPosition) (t : State) : Prop :=
  Reaches policy workflowId id (.loop 1, s) n (position, t)

/-! ## The verdict -/

/-- Attempt `k` of the job is neither slow nor the first failure of the candidate. A candidate is
slow in all attempts or in none, so only the first one can be its first failure. -/
def Succeeds (policy : BackgroundJobPolicy) (failedOnceCandidateIds : Finset Text) (id : Text)
    (k : ℤ) : Prop :=
  id ∉ policy.alwaysSlowCandidateIds ∧
    ¬(k = 1 ∧ id ∈ policy.failFirstAttemptCandidateIds ∧ id ∉ failedOnceCandidateIds)

/-- The status and the attempts that the candidate ends with. -/
inductive Verdict (policy : BackgroundJobPolicy) (failedOnceCandidateIds : Finset Text)
    (id : Text) : CandidateStatus → ℤ → Prop where
  | matched (k : ℤ) (hk : 1 ≤ k) (hmax : k ≤ policy.maxCandidateAttempts)
      (hsucceeds : Succeeds policy failedOnceCandidateIds id k)
      (hfirst : ∀ j, 1 ≤ j → j < k → ¬Succeeds policy failedOnceCandidateIds id j) :
      Verdict policy failedOnceCandidateIds id .MATCHED k
  | rejected (hnone : ∀ k, 1 ≤ k → k ≤ policy.maxCandidateAttempts →
      ¬Succeeds policy failedOnceCandidateIds id k) :
      Verdict policy failedOnceCandidateIds id .REJECTED policy.maxCandidateAttempts

/-- The row is stored as processed, and one signal about it has been sent since `s`. -/
def Announced (workflowId id : Text) (s t : State) (row : FinancialEventCandidate) : Prop :=
  t.candidates id = some row ∧ row.processed = true ∧
    t.signals = s.signals ++ [⟨workflowId, id, row.status, true⟩]

/-- The job returns, and has announced its candidate with the verdict. -/
def ReturnsVerdict (policy : BackgroundJobPolicy) (workflowId id : Text) (s : State) : Prop :=
  ∃ n t row, processCandidate policy workflowId id s n .done t ∧
    Announced workflowId id s t row ∧
    Verdict policy s.failedOnceCandidateIds id row.status row.attempts

/-- The job ends after its only signal, every signal is about a row saved before, and it stores no
more attempts than there may be. -/
structure EndsRight (policy : BackgroundJobPolicy) (workflowId id : Text) (s : State) : Prop where
  returns : ReturnsVerdict policy workflowId id s
  sent : ∀ n position t position' t', processCandidate policy workflowId id s n position t →
    candidateJobStep policy t workflowId id position = some (position', t') →
    t'.signals = t.signals ∨
      ∃ row, t.candidates id = some row ∧ row.processed = true ∧
        t' = { t with signals := t.signals ++ [⟨workflowId, id, row.status, true⟩] }
  attempts : ∀ n position t, processCandidate policy workflowId id s n position t →
    t.candidates id = s.candidates id ∨
      ∃ row, t.candidates id = some row ∧ row.attempts ≤ policy.maxCandidateAttempts

section Reaches

variable {policy : BackgroundJobPolicy} {workflowId id : Text} {s t : State}
  {c c' c'' : CandidateJobPosition × State} {m n : ℕ}

theorem Reaches.refl : Reaches policy workflowId id c 0 c := rfl

theorem Reaches.trans (h : Reaches policy workflowId id c m c')
    (h' : Reaches policy workflowId id c' n c'') : Reaches policy workflowId id c (m + n) c'' := by
  rw [Reaches, List.replicate_add]
  exact (Transition.run_append_eq_some _).mpr ⟨c', h, h'⟩

/-- One step more. -/
theorem Reaches.step {position position' : CandidateJobPosition} {t t' : State}
    (h : Reaches policy workflowId id c n (position, t))
    (hstep : candidateJobStep policy t workflowId id position = some (position', t')) :
    Reaches policy workflowId id c (n + 1) (position', t') := by
  have hone : Reaches policy workflowId id (position, t) 1 (position', t') := by
    rw [Reaches, List.replicate_one, Transition.run_cons]
    show (candidateJobStep policy t workflowId id position).bind _ = _
    rw [hstep]
    rfl
  exact h.trans hone

end Reaches

/-! ## The job among the others -/

section System

variable {policy : BackgroundJobPolicy} {workflowId id : Text} {s t : State}
  {position : CandidateJobPosition}

/-- A job does not look at the list of jobs. -/
theorem candidateJobStep_withJobs (jobs : List CandidateJob) :
    candidateJobStep policy { t with candidateJobs := jobs } workflowId id position =
      (candidateJobStep policy t workflowId id position).map fun c =>
        (c.1, { c.2 with candidateJobs := jobs }) := by
  cases position with
  | findCandidate | findFailing | findMatched | findRejected =>
    show (t.candidates id).map _ = ((t.candidates id).map _).map _
    rw [Option.map_map]
    rfl
  | findInvestment attempts investmentId =>
    show (t.investments investmentId).map _ = ((t.investments investmentId).map _).map _
    rw [Option.map_map]
    rfl
  | process attempts =>
    simp only [candidateJobStep]
    split_ifs
    · rfl
    · rfl
    · rfl
  | _ => rfl

/-- The steps of `processCandidate` are those of the system in which one job runs on its own. -/
theorem run_candidateJob {i n : ℕ}
    (hjob : s.candidateJobs[i]? = some ⟨workflowId, id, .loop 1⟩)
    (h : processCandidate policy workflowId id s n position t) :
    Transition.run (step policy) s (List.replicate n (.candidateJob i)) =
      some { t with candidateJobs := s.candidateJobs.set i ⟨workflowId, id, position⟩ } := by
  obtain ⟨hi, hjob'⟩ := List.getElem?_eq_some_iff.mp hjob
  induction n generalizing position t with
  | zero =>
    obtain ⟨rfl, rfl⟩ := Prod.mk.inj (Option.some.inj h)
    rw [← hjob', List.set_getElem_self]
    rfl
  | succ n ih =>
    rw [processCandidate, Reaches, List.replicate_succ'] at h
    obtain ⟨⟨position', t'⟩, hreached, hstep⟩ := (Transition.run_snoc_eq_some _).mp h
    rw [List.replicate_succ']
    refine (Transition.run_snoc_eq_some _).mpr ⟨_, ih hreached, ?_⟩
    -- the job has been put where it came to, and takes its next step from there
    have hset : (s.candidateJobs.set i ⟨workflowId, id, position'⟩)[i]? =
        some ⟨workflowId, id, position'⟩ := List.getElem?_set_self hi
    have hnext : candidateJobStep policy t' workflowId id position' = some (position, t) := hstep
    simp only [step, hset, bind, Option.bind_some, candidateJobStep_withJobs, hnext,
      Option.map_some, pure, List.set_set]

end System

/-! ## One pass of the loop -/

section Passes

variable {policy : BackgroundJobPolicy} (workflowId : Text) {id : Text} {t : State} {attempts : ℤ}

/-- The investment is created, so the job waits no longer. -/
theorem reaches_process (h : Waited t id) (hattempts : attempts ≤ policy.maxCandidateAttempts) :
    Reaches policy workflowId id (.loop attempts, t) 3 (.process attempts, t) := by
  obtain ⟨-, ⟨row, hrow, rfl⟩, investment, hinvestment, hcreated⟩ := h
  -- the test of the loop, then the two rows that the wait asks for
  have hloop : candidateJobStep policy t workflowId id (.loop attempts) =
      some (.findCandidate attempts, t) := by
    rw [candidateJobStep, if_pos hattempts]
  have hcandidate : candidateJobStep policy t workflowId id (.findCandidate attempts) =
      some (.findInvestment attempts row.investmentId, t) := by
    rw [candidateJobStep, hrow, Option.map_some]
  have hprocess : candidateJobStep policy t workflowId id
      (.findInvestment attempts row.investmentId) = some (.process attempts, t) := by
    rw [candidateJobStep, hinvestment, Option.map_some, if_pos hcreated]
  exact ((Reaches.refl.step hloop).step hcandidate).step hprocess

/-- A slow attempt changes nothing. -/
theorem reaches_nextAttempt_of_slow (h : Waited t id)
    (hattempts : attempts ≤ policy.maxCandidateAttempts)
    (hslow : id ∈ policy.alwaysSlowCandidateIds) :
    Reaches policy workflowId id (.loop attempts, t) 4 (nextAttempt attempts, t) := by
  refine (reaches_process workflowId h hattempts).step ?_
  rw [candidateJobStep, if_pos hslow]

/-- The first failure is recorded and the attempts are stored. -/
theorem reaches_nextAttempt_of_failing (h : Waited t id)
    (hattempts : attempts ≤ policy.maxCandidateAttempts)
    (hslow : id ∉ policy.alwaysSlowCandidateIds)
    (hfails : id ∈ policy.failFirstAttemptCandidateIds) (hfirst : id ∉ t.failedOnceCandidateIds) :
    ∃ t', Reaches policy workflowId id (.loop attempts, t) 6 (nextAttempt attempts, t') ∧
      Waited t' id ∧ id ∈ t'.failedOnceCandidateIds ∧ t'.signals = t.signals := by
  have hprocess : Reaches policy workflowId id (.loop attempts, t) 3 (.process attempts, t) :=
    reaches_process workflowId h hattempts
  obtain ⟨i, ⟨row, hrow, hi⟩, hcreated⟩ := h
  -- `failedOnceCandidateIds.add` returns true, and keeps the id before the row is saved
  have hfailing : candidateJobStep policy t workflowId id (.process attempts) =
      some (.findFailing attempts,
        { t with failedOnceCandidateIds := insert id t.failedOnceCandidateIds }) := by
    rw [candidateJobStep, if_neg hslow, if_pos ⟨hfails, hfirst⟩]
  have hfind : candidateJobStep policy
      { t with failedOnceCandidateIds := insert id t.failedOnceCandidateIds } workflowId id
      (.findFailing attempts) = some (.saveFailing attempts row,
        { t with failedOnceCandidateIds := insert id t.failedOnceCandidateIds }) := by
    rw [candidateJobStep, hrow, Option.map_some]
  refine ⟨_, ((hprocess.step hfailing).step hfind).step rfl, ?_, Finset.mem_insert_self _ _, rfl⟩
  exact ⟨i, ⟨{ row with attempts }, save_self, hi⟩, hcreated⟩

/-- Any other attempt matches the candidate. -/
theorem reaches_done_of_matching (h : Waited t id)
    (hattempts : attempts ≤ policy.maxCandidateAttempts)
    (hslow : id ∉ policy.alwaysSlowCandidateIds)
    (hfirst : ¬(id ∈ policy.failFirstAttemptCandidateIds ∧ id ∉ t.failedOnceCandidateIds)) :
    ∃ t' row, Reaches policy workflowId id (.loop attempts, t) 7 (.done, t') ∧
      Announced workflowId id t t' row ∧ row.status = .MATCHED ∧ row.attempts = attempts := by
  have hprocess : Reaches policy workflowId id (.loop attempts, t) 3 (.process attempts, t) :=
    reaches_process workflowId h hattempts
  obtain ⟨-, ⟨row, hrow, -⟩, -⟩ := h
  -- the candidate is not in the set of failing ones, or `add` returns false
  have hmatching : candidateJobStep policy t workflowId id (.process attempts) =
      some (.findMatched attempts, t) := by
    rw [candidateJobStep, if_neg hslow, if_neg hfirst]
  have hfind : candidateJobStep policy t workflowId id (.findMatched attempts) =
      some (.saveMatched attempts row, t) := by
    rw [candidateJobStep, hrow, Option.map_some]
  exact ⟨_, processedCandidate attempts row,
    (((hprocess.step hmatching).step hfind).step rfl).step rfl, ⟨save_self, rfl, rfl⟩, rfl, rfl⟩

/-- Behind the last attempt the candidate is rejected. -/
theorem reaches_done_of_enough (h : Waited t id)
    (hattempts : policy.maxCandidateAttempts < attempts) :
    ∃ t' row, Reaches policy workflowId id (.loop attempts, t) 4 (.done, t') ∧
      Announced workflowId id t t' row ∧ row.status = .REJECTED ∧
      row.attempts = policy.maxCandidateAttempts := by
  obtain ⟨-, ⟨row, hrow, -⟩, -⟩ := h
  -- the loop is left, and no row has been read in this pass
  have henough : candidateJobStep policy t workflowId id (.loop attempts) =
      some (.findRejected, t) := by
    rw [candidateJobStep, if_neg (not_le.mpr hattempts)]
  have hfind : candidateJobStep policy t workflowId id .findRejected =
      some (.saveRejected row, t) := by
    rw [candidateJobStep, hrow, Option.map_some]
  exact ⟨_, rejectedCandidate policy row,
    (((Reaches.refl.step henough).step hfind).step rfl).step rfl, ⟨save_self, rfl, rfl⟩, rfl, rfl⟩

omit workflowId in
/-- `attempts++` where it does not wrap around. -/
theorem nextAttempt_of_lt (hnonneg : 0 ≤ attempts) (hlt : attempts < 2 ^ 31 - 1) :
    nextAttempt attempts = .loop (attempts + 1) := by
  rw [nextAttempt, Int.bmod_eq_of_le]
  · omega
  · omega

end Passes

/-! ## The end of the job -/

section Ends

variable {policy : BackgroundJobPolicy} {workflowId id : Text} {s : State}

/-- The slow attempts are counted up to the last one. -/
theorem reaches_loop_of_slow (h : Waited s id) (hmax : policy.maxCandidateAttempts < 2 ^ 31 - 1)
    (hslow : id ∈ policy.alwaysSlowCandidateIds) (k : ℕ) (hk : k ≤ policy.maxCandidateAttempts) :
    Reaches policy workflowId id (.loop 1, s) (4 * k) (.loop (k + 1), s) := by
  induction k with
  | zero => exact Reaches.refl
  | succ k ih =>
    -- another slow pass, which does not wrap around before the last attempt
    have hpass : Reaches policy workflowId id (.loop (k + 1), s) 4 (nextAttempt (k + 1), s) :=
      reaches_nextAttempt_of_slow workflowId h (by omega) hslow
    rw [nextAttempt_of_lt (by omega) (by omega)] at hpass
    exact_mod_cast (ih (by omega)).trans hpass

/-- The job comes behind the last attempt without one that succeeds. -/
theorem returns_of_rejected {n : ℕ} {attempts : ℤ} {t : State} (h : Waited t id)
    (hreached : processCandidate policy workflowId id s n (.loop attempts) t)
    (hsignals : t.signals = s.signals) (hattempts : policy.maxCandidateAttempts < attempts)
    (hnone : ∀ k, 1 ≤ k → k ≤ policy.maxCandidateAttempts →
      ¬Succeeds policy s.failedOnceCandidateIds id k) :
    ReturnsVerdict policy workflowId id s := by
  obtain ⟨t', row, hdone, ⟨hrow, hprocessed, hsent⟩, hstatus, hlast⟩ :=
    reaches_done_of_enough workflowId h hattempts
  rw [hsignals] at hsent
  refine ⟨_, t', row, hreached.trans hdone, ⟨hrow, hprocessed, hsent⟩, ?_⟩
  rw [hstatus, hlast]
  exact .rejected hnone

/-- The job comes to the first attempt that succeeds. -/
theorem returns_of_matched {n : ℕ} {attempts : ℤ} {t : State} (h : Waited t id)
    (hreached : processCandidate policy workflowId id s n (.loop attempts) t)
    (hsignals : t.signals = s.signals) (hone : 1 ≤ attempts)
    (hattempts : attempts ≤ policy.maxCandidateAttempts)
    (hsucceeds : Succeeds policy s.failedOnceCandidateIds id attempts)
    (hfirst : ¬(id ∈ policy.failFirstAttemptCandidateIds ∧ id ∉ t.failedOnceCandidateIds))
    (hbefore : ∀ j, 1 ≤ j → j < attempts → ¬Succeeds policy s.failedOnceCandidateIds id j) :
    ReturnsVerdict policy workflowId id s := by
  obtain ⟨t', row, hdone, ⟨hrow, hprocessed, hsent⟩, hstatus, hlast⟩ :=
    reaches_done_of_matching workflowId h hattempts hsucceeds.1 hfirst
  rw [hsignals] at hsent
  refine ⟨_, t', row, hreached.trans hdone, ⟨hrow, hprocessed, hsent⟩, ?_⟩
  rw [hstatus, hlast]
  exact .matched attempts hone hattempts hsucceeds hbefore

/-- The largest `int` as the last attempt of a slow candidate is the only case without an end. -/
theorem returns_of_not_endless (h : Waited s id) (hmax : policy.maxCandidateAttempts < 2 ^ 31)
    (hends : ¬(id ∈ policy.alwaysSlowCandidateIds ∧ policy.maxCandidateAttempts = 2 ^ 31 - 1)) :
    ReturnsVerdict policy workflowId id s := by
  have hstart : processCandidate policy workflowId id s 0 (.loop 1) s := Reaches.refl
  rcases lt_or_ge policy.maxCandidateAttempts 1 with hzero | hone
  · exact returns_of_rejected h hstart rfl hzero fun k hk hkmax =>
      absurd (hk.trans hkmax) (by omega)
  by_cases hslow : id ∈ policy.alwaysSlowCandidateIds
  · -- all attempts are slow, and there is an `int` behind the last one
    have hne : policy.maxCandidateAttempts ≠ 2 ^ 31 - 1 := fun heq => hends ⟨hslow, heq⟩
    obtain ⟨k, hk⟩ := Int.eq_ofNat_of_zero_le (by omega : 0 ≤ policy.maxCandidateAttempts)
    have hloop : processCandidate policy workflowId id s (4 * k) (.loop (k + 1)) s :=
      reaches_loop_of_slow h (by omega) hslow k (by omega)
    exact returns_of_rejected h hloop rfl (by omega) fun _ _ _ hsucceeds => hsucceeds.1 hslow
  by_cases hfails : id ∈ policy.failFirstAttemptCandidateIds ∧ id ∉ s.failedOnceCandidateIds
  · -- the first attempt fails and marks the candidate, so that a second one does not
    have hfailed : ¬Succeeds policy s.failedOnceCandidateIds id 1 :=
      fun hsucceeds => hsucceeds.2 ⟨rfl, hfails⟩
    obtain ⟨t, hpass, hwaited, hfailedOnce, hsignals⟩ :=
      reaches_nextAttempt_of_failing workflowId h hone hslow hfails.1 hfails.2
    rw [nextAttempt_of_lt (by decide) (by decide)] at hpass
    rcases lt_or_ge policy.maxCandidateAttempts 2 with hlast | htwo
    · refine returns_of_rejected hwaited hpass hsignals hlast fun k hk hkmax => ?_
      obtain rfl : k = 1 := by omega
      exact hfailed
    · refine returns_of_matched hwaited hpass hsignals (by decide) htwo ⟨hslow, by simp⟩
        (fun hagain => hagain.2 hfailedOnce) fun j hj hjtwo => ?_
      obtain rfl : j = 1 := by omega
      exact hfailed
  · exact returns_of_matched h hstart rfl le_rfl hone ⟨hslow, fun hfirst => hfails hfirst.2⟩ hfails
      fun j hj hjone => absurd hj (by omega)

end Ends

/-! ## What the job stores and sends -/

section Invariant

variable {policy : BackgroundJobPolicy} {workflowId id : Text} {s t t' : State}
  {position position' : CandidateJobPosition} {n : ℕ}

/-- What the tests of the loop and the last save allow at a position. -/
def CandidateJobPosition.Allowed (policy : BackgroundJobPolicy) (id : Text) (t : State) :
    CandidateJobPosition → Prop
  | .findCandidate attempts => attempts ≤ policy.maxCandidateAttempts
  | .findInvestment attempts _ => attempts ≤ policy.maxCandidateAttempts
  | .process attempts => attempts ≤ policy.maxCandidateAttempts
  | .findFailing attempts => attempts ≤ policy.maxCandidateAttempts
  | .saveFailing attempts _ => attempts ≤ policy.maxCandidateAttempts
  | .findMatched attempts => attempts ≤ policy.maxCandidateAttempts
  | .saveMatched attempts _ => attempts ≤ policy.maxCandidateAttempts
  | .signalProcessed row => t.candidates id = some row ∧ row.processed = true
  | _ => True

/-- The job has not written, or last stored attempts within the maximum. -/
def StoredWithin (policy : BackgroundJobPolicy) (id : Text) (s t : State) : Prop :=
  t.candidates id = s.candidates id ∨
    ∃ row, t.candidates id = some row ∧ row.attempts ≤ policy.maxCandidateAttempts

theorem CandidateJobStep.allowed (h : CandidateJobStep policy t workflowId id position position' t')
    (hallowed : position.Allowed policy id t) : position'.Allowed policy id t' := by
  cases h with
  -- the test of the loop bounds the attempts of the whole pass
  | again attempts hattempts => exact hattempts
  | saveMatched | saveRejected => exact ⟨save_self, rfl⟩
  | findCandidate | notCreated | created | failing | matching | findFailing | findMatched =>
    exact hallowed
  | enough | slow | saveFailing | findRejected | signalProcessed => trivial

theorem CandidateJobStep.storedWithin
    (h : CandidateJobStep policy t workflowId id position position' t')
    (hallowed : position.Allowed policy id t) (hstored : StoredWithin policy id s t) :
    StoredWithin policy id s t' := by
  cases h with
  | saveFailing attempts candidate => exact .inr ⟨{ candidate with attempts }, save_self, hallowed⟩
  | saveMatched attempts candidate =>
    exact .inr ⟨processedCandidate attempts candidate, save_self, hallowed⟩
  | saveRejected candidate => exact .inr ⟨rejectedCandidate policy candidate, save_self, le_rfl⟩
  | _ => exact hstored

/-- Only the last step sends, and what it sends is about the row saved before. -/
theorem CandidateJobStep.sent (h : CandidateJobStep policy t workflowId id position position' t')
    (hallowed : position.Allowed policy id t) :
    t'.signals = t.signals ∨
      ∃ row, t.candidates id = some row ∧ row.processed = true ∧
        t' = { t with signals := t.signals ++ [⟨workflowId, id, row.status, true⟩] } := by
  cases h with
  | signalProcessed row =>
    obtain ⟨hrow, hprocessed⟩ := hallowed
    refine .inr ⟨row, hrow, hprocessed, ?_⟩
    rw [hprocessed]
  | _ => exact .inl rfl

/-- Both hold wherever the job comes. -/
theorem processCandidate_allowed (h : processCandidate policy workflowId id s n position t) :
    position.Allowed policy id t ∧ StoredWithin policy id s t := by
  have hstart : CandidateJobPosition.Allowed policy id s (.loop 1) ∧ StoredWithin policy id s s :=
    ⟨trivial, .inl rfl⟩
  refine Transition.run_invariant (jobStep policy workflowId id)
    (I := fun c => c.1.Allowed policy id c.2 ∧ StoredWithin policy id s c.2) ?_ hstart h
  rintro ⟨position, t⟩ ⟨⟩ ⟨position', t'⟩ ⟨hallowed, hstored⟩ hstep
  have hcases := candidateJobStep_cases hstep
  exact ⟨hcases.allowed hallowed, hcases.storedWithin hallowed hstored⟩

/-! ## The job that does not end -/

/-- The positions of a job that has only been slow. -/
def CandidateJobPosition.Trying : CandidateJobPosition → Prop
  | .loop attempts => attempts ≤ 2 ^ 31 - 1
  | .findCandidate _ => True
  | .findInvestment _ _ => True
  | .process _ => True
  | _ => False

/-- No `int` is above the largest one, so a slow job begins another attempt. -/
theorem candidateJobStep_trying (hslow : id ∈ policy.alwaysSlowCandidateIds)
    (hmax : policy.maxCandidateAttempts = 2 ^ 31 - 1) (htrying : position.Trying)
    (hstep : candidateJobStep policy t workflowId id position = some (position', t')) :
    position'.Trying := by
  cases position with
  | loop attempts =>
    have hattempts : attempts ≤ policy.maxCandidateAttempts := hmax ▸ htrying
    rw [candidateJobStep, if_pos hattempts] at hstep
    obtain ⟨rfl, -⟩ := Prod.mk.inj (Option.some.inj hstep)
    trivial
  | findCandidate attempts =>
    obtain ⟨candidate, -, hstep⟩ := Option.map_eq_some_iff.mp hstep
    obtain ⟨rfl, -⟩ := Prod.mk.inj hstep
    trivial
  | findInvestment attempts investmentId =>
    obtain ⟨investment, -, hstep⟩ := Option.map_eq_some_iff.mp hstep
    obtain ⟨rfl, -⟩ := Prod.mk.inj hstep
    split_ifs
    · trivial
    · trivial
  | process attempts =>
    rw [candidateJobStep, if_pos hslow] at hstep
    obtain ⟨rfl, -⟩ := Prod.mk.inj (Option.some.inj hstep)
    -- whatever `attempts++` gives is an `int`
    have hlt : (attempts + 1).bmod (2 ^ 32) < (2 ^ 32 + 1) / 2 := Int.bmod_lt (by decide)
    exact Int.le_sub_one_of_lt hlt
  | _ => exact htrying.elim

/-- `attempts` wraps around and the job goes on for ever. -/
theorem not_done_of_endless (hslow : id ∈ policy.alwaysSlowCandidateIds)
    (hmax : policy.maxCandidateAttempts = 2 ^ 31 - 1) :
    ¬processCandidate policy workflowId id s n .done t := by
  intro hdone
  have hstart : (CandidateJobPosition.loop 1).Trying := show (1 : ℤ) ≤ 2 ^ 31 - 1 by decide
  refine Transition.run_invariant (jobStep policy workflowId id) (I := fun c => c.1.Trying) ?_
    hstart hdone
  rintro ⟨position, t⟩ ⟨⟩ ⟨position', t'⟩ htrying hstep
  exact candidateJobStep_trying hslow hmax htrying hstep

end Invariant

/-- Once the investment is created, the job ends as it should, unless the candidate is slow and the
last attempt is the largest `int`. -/
theorem endsRight_iff {policy : BackgroundJobPolicy} {workflowId id : Text} {s : State}
    (hmax : policy.maxCandidateAttempts < 2 ^ 31) (h : Waited s id) :
    EndsRight policy workflowId id s ↔
      ¬(id ∈ policy.alwaysSlowCandidateIds ∧ policy.maxCandidateAttempts = 2 ^ 31 - 1) := by
  constructor
  · rintro ⟨⟨n, t, row, hdone, -⟩, -, -⟩ ⟨hslow, hlargest⟩
    exact not_done_of_endless hslow hlargest hdone
  · intro hends
    refine ⟨returns_of_not_endless h hmax hends, fun n position t position' t' hreached hstep => ?_,
      fun n position t hreached => (processCandidate_allowed hreached).2⟩
    exact (candidateJobStep_cases hstep).sent (processCandidate_allowed hreached).1

/-- An investment that is created. -/
def createdInvestment : Investment :=
  { newInvestment (walletId 1) [] .ARROJADO "ETF-USA".toList with created := true }

/-- A process with one candidate, whose investment is created. -/
def oneCandidate : State :=
  State.initial (fun _ => none) (save (investmentId 1) createdInvestment fun _ => none)
    (save (candidateId 1) (newCandidate (investmentId 1)) fun _ => none)

/-- The candidate is slow, and the last attempt is the largest `int`. -/
def endless : BackgroundJobPolicy where
  failFirstAttemptCandidateIds := ∅
  alwaysSlowCandidateIds := {candidateId 1}
  maxCandidateAttempts := 2 ^ 31 - 1

theorem waited_oneCandidate : Waited oneCandidate (candidateId 1) := by
  have hcandidate : oneCandidate.candidates (candidateId 1) =
      some (newCandidate (investmentId 1)) := by
    simp [oneCandidate, State.initial]
  have hinvestment : oneCandidate.investments (investmentId 1) = some createdInvestment := by
    simp [oneCandidate, State.initial]
  exact ⟨investmentId 1, ⟨_, hcandidate, rfl⟩, _, hinvestment, rfl⟩

/-- The first attempt fails, and there may be three of them. -/
def failsFirst : BackgroundJobPolicy where
  failFirstAttemptCandidateIds := {candidateId 1}
  alwaysSlowCandidateIds := ∅
  maxCandidateAttempts := 3

/-- The candidate is slow, and there may be no attempt at all. -/
def slowWithoutAttempts : BackgroundJobPolicy where
  failFirstAttemptCandidateIds := ∅
  alwaysSlowCandidateIds := {candidateId 1}
  maxCandidateAttempts := 0

/-- The job ends as it should under these two, and does not under the other one. -/
theorem endsRight_iff_oneCandidate :
    EndsRight failsFirst [] (candidateId 1) oneCandidate ∧
      EndsRight slowWithoutAttempts [] (candidateId 1) oneCandidate ∧
      ¬EndsRight endless [] (candidateId 1) oneCandidate := by
  refine ⟨?_, ?_, ?_⟩
  · exact (endsRight_iff (by decide) waited_oneCandidate).mpr (by decide)
  · exact (endsRight_iff (by decide) waited_oneCandidate).mpr (by decide)
  · rw [endsRight_iff (by decide) waited_oneCandidate]
    decide

/-- The job of this candidate never ends. -/
theorem not_endsRight_endless :
    ¬∀ (policy : BackgroundJobPolicy) (workflowId id : Text) (s : State),
      0 ≤ policy.maxCandidateAttempts → policy.maxCandidateAttempts < 2 ^ 31 → Waited s id →
        EndsRight policy workflowId id s := by
  intro hclaim
  obtain ⟨n, t, row, hdone, -⟩ :=
    (hclaim endless [] (candidateId 1) oneCandidate (by decide) (by decide)
      waited_oneCandidate).returns
  exact not_done_of_endless (Finset.mem_singleton_self _) rfl hdone

end SampleWallet
