import Mathlib.Data.Set.Card
import JavaExamples.SampleWallet.Ready
import JavaExamples.SampleWallet.Rows

/-!
# Retries and what they leave behind

An attempt that has failed leaves the rows it has saved, and the next attempt saves its own.

* `EffectsOnce`: an execution has one wallet, with three investments and a candidate for each.
* `SavedOnce`: of each kind the rows were saved by one attempt at most.
* `effectsOnce_iff`: where a workflow completes READY, its effects are there once exactly if no
  attempt began to save rows of a kind of which another one had saved some.
* `not_effectsOnce_retried`: a first attempt at the investments fails after its first row.
-/

namespace SampleWallet

open Numbered References Transition

/-- There is one wallet that the workflow has created, with three investments and one candidate for
each of them. -/
structure EffectsOnce (s : State) (workflowId walletId : Text) : Prop where
  wallet : ∀ id, (Owns s workflowId id ∧ s.wallets id ≠ none) ↔ id = walletId
  investments : {id | InvestmentOf s.investments id walletId}.encard = 3
  candidates : ∀ investmentId, InvestmentOf s.investments investmentId walletId →
    ∃! candidateId, CandidateOf s.candidates candidateId investmentId

/-- The constraints of the tables. -/
structure State.ForeignKeys (s : State) : Prop where
  INVESTMENT_FK1 : ∀ id walletId, InvestmentOf s.investments id walletId → s.wallets walletId ≠ none
  FINANCIAL_EVENT_CANDIDATE_FK1 : ∀ id investmentId, CandidateOf s.candidates id investmentId →
    s.investments investmentId ≠ none

/-- The attempt is one of the workflow's, and has saved rows of the kind. -/
def Attempt.saves (workflowId : Text) (kind : RowKind) (attempt : Attempt) : Bool :=
  attempt.workflowId = workflowId ∧ attempt.position.savedIds kind ≠ []

/-- One attempt at most has saved rows of each kind. -/
def SavedOnce (workflowId : Text) (s : State) : Prop :=
  ∀ kind, s.attempts.countP (Attempt.saves workflowId kind) ≤ 1

/-- When an attempt of the workflow saves its first row of a kind, then no attempt of it has saved
one before. -/
def SavesAlone (workflowId : Text) (s : State) (event : Event) : Prop :=
  ∀ i found attempt kind, event = .attempt i found → s.attempts[i]? = some attempt →
    attempt.workflowId = workflowId → attempt.position.unsavedIds kind ≠ [] →
    attempt.position.savedIds kind = [] →
    ∀ other ∈ s.attempts, other.workflowId = workflowId → other.position.savedIds kind = []

/-- In the run the workflow returns the result of `finishSampleWalletCreation`. -/
def CompletesReady (policy : BackgroundJobPolicy) (start : State) (events : List Event)
    (workflowId : Text) : Prop :=
  ∃ before i after s walletId investmentIds candidateIds, events = before ++ .complete i :: after ∧
    run (step policy) start before = some s ∧
    s.attempts[i]? =
      some ⟨workflowId, .finishing walletId investmentIds candidateIds, .finished⟩

theorem Attempt.saves_eq_true {workflowId : Text} {kind : RowKind} {attempt : Attempt} :
    attempt.saves workflowId kind = true ↔
      attempt.workflowId = workflowId ∧ attempt.position.savedIds kind ≠ [] := by
  rw [Attempt.saves, decide_eq_true_iff]

/-! ## What is known at the end -/

theorem encard_setOf_mem {ids : List Text} (h : ids.Nodup) :
    {id | id ∈ ids}.encard = ids.length := by
  rw [← List.coe_toFinset, Set.encard_coe_eq_coe_finsetCard, List.toFinset_card_of_nodup h]

section Known

variable {start final s : State} {workflowId walletId : Text}
  {investmentIds candidateIds : List Text}

theorem InvestmentsReturned.owns (h : InvestmentsReturned s workflowId walletId investmentIds)
    (hs : RowProgress start final s) : Owns s workflowId walletId := by
  obtain ⟨investorId, hattempt⟩ := h
  exact hs.wallets.calls _ hattempt walletId rfl

theorem CandidatesReturned.investments
    (h : CandidatesReturned s workflowId walletId investmentIds candidateIds)
    (hs : RowProgress start final s) : InvestmentsReturned s workflowId walletId investmentIds :=
  hs.calls _ h

/-- What an attempt has saved is stored. -/
theorem RowProgress.investmentOf (hs : RowProgress start final s) {attempt : Attempt}
    (hattempt : attempt ∈ s.attempts) {id : Text}
    (hid : (id, walletId) ∈ savedInvestments attempt.call attempt.position) :
    InvestmentOf s.investments id walletId :=
  (hs.investments id walletId).mpr (.inr (List.mem_flatMap.mpr ⟨attempt, hattempt, hid⟩))

theorem RowProgress.candidateOf (hs : RowProgress start final s) {attempt : Attempt}
    (hattempt : attempt ∈ s.attempts) {id investmentId : Text}
    (hid : (id, investmentId) ∈ savedCandidates attempt.call attempt.position) :
    CandidateOf s.candidates id investmentId :=
  (hs.candidates id investmentId).mpr (.inr (List.mem_flatMap.mpr ⟨attempt, hattempt, hid⟩))

/-- Three different investments of the wallet have been returned. -/
theorem InvestmentsReturned.three (h : InvestmentsReturned s workflowId walletId investmentIds)
    (hs : RowProgress start final s) :
    investmentIds.length = 3 ∧ investmentIds.Nodup ∧
      ∀ id ∈ investmentIds, InvestmentOf s.investments id walletId := by
  obtain ⟨investorId, hattempt⟩ := h
  refine ⟨(hs.fits _ hattempt).investments investorId walletId rfl, ?_, fun id hid => ?_⟩
  · obtain ⟨hnodup, -⟩ := List.nodup_flatMap.mp (hs.createdIds_nodup .investment)
    exact hnodup _ hattempt
  · exact hs.investmentOf hattempt (List.mem_map_of_mem hid)

/-- A candidate has been returned for each investment. -/
theorem CandidatesReturned.length_eq
    (h : CandidatesReturned s workflowId walletId investmentIds candidateIds)
    (hs : RowProgress start final s) : candidateIds.length = investmentIds.length := by
  obtain ⟨done, hdone, hlength⟩ := (hs.fits _ h).candidates walletId investmentIds rfl
  have hdone : done = investmentIds := (List.append_nil done).symm.trans hdone
  exact hdone ▸ hlength.symm

/-- Where a wallet has three investments, these are the returned ones. -/
theorem InvestmentsReturned.mem_of_encard_eq
    (h : InvestmentsReturned s workflowId walletId investmentIds) (hs : RowProgress start final s)
    (hthree : {id | InvestmentOf s.investments id walletId}.encard = 3) {id : Text}
    (hid : InvestmentOf s.investments id walletId) : id ∈ investmentIds := by
  obtain ⟨hlength, hnodup, hof⟩ := h.three hs
  have hsubset : {id | id ∈ investmentIds} ⊆ {id | InvestmentOf s.investments id walletId} := hof
  have hall : {id | id ∈ investmentIds} = {id | InvestmentOf s.investments id walletId} := by
    apply (List.finite_toSet investmentIds).eq_of_subset_of_encard_le hsubset
    rw [hthree, encard_setOf_mem hnodup, hlength]
    rfl
  rw [Set.ext_iff] at hall
  exact (hall id).mpr hid

end Known

/-! ## Who has saved a row -/

section Savers

variable {start final : State} {workflowId walletId : Text} {attempt : Attempt}

theorem mem_savedInvestments {call : Position} {position : ActivityPosition} {id walletId : Text}
    (h : (id, walletId) ∈ savedInvestments call position) :
    id ∈ position.savedIds .investment ∧
      ∃ investorId, call = .creatingInvestments investorId walletId := by
  cases call with
  | creatingInvestments investorId other =>
    obtain ⟨_, hid, heq⟩ := List.mem_map.mp h
    obtain ⟨rfl, rfl⟩ := Prod.mk.inj heq
    exact ⟨hid, investorId, rfl⟩
  | _ => cases h

theorem mem_savedCandidates {call : Position} {position : ActivityPosition} {id investmentId : Text}
    (h : (id, investmentId) ∈ savedCandidates call position) :
    id ∈ position.savedIds .candidate ∧
      ∃ walletId investmentIds, call = .creatingCandidates walletId investmentIds ∧
        investmentId ∈ investmentIds := by
  cases call with
  | creatingCandidates walletId investmentIds =>
    obtain ⟨hid, hinvestment⟩ := List.of_mem_zip h
    exact ⟨hid, walletId, investmentIds, rfl, hinvestment⟩
  | _ => cases h

/-- A wallet that a workflow owns was not there at first. -/
theorem RowProgress.wallet_new (hs : RowProgress start final final) (hfresh : start.Fresh final)
    (howns : Owns final workflowId walletId) : start.wallets walletId = none := by
  obtain ⟨attempt, hattempt, -, hposition⟩ := howns
  have hheld : walletId ∈ final.walletNumbers.held := by
    refine List.mem_flatMap.mpr ⟨attempt, hattempt, ?_⟩
    rw [hposition]
    exact List.mem_singleton_self walletId
  obtain ⟨k, hk, rfl⟩ := hs.identified.wallets.issued walletId hheld
  exact hfresh.wallets k hk

theorem RowProgress.investment_new (hs : RowProgress start final final) (hfresh : start.Fresh final)
    (hattempt : attempt ∈ final.attempts) {id : Text}
    (hid : id ∈ attempt.position.savedIds .investment) : start.investments id = none := by
  have hheld : id ∈ final.investmentNumbers.held :=
    List.mem_flatMap.mpr ⟨attempt, hattempt, ActivityPosition.savedIds_subset _ _ hid⟩
  obtain ⟨k, hk, rfl⟩ := hs.identified.investments.issued id hheld
  exact hfresh.investments k hk

/-- The investments of a wallet were saved by attempts of its workflow. -/
theorem RowProgress.investment_saver (hs : RowProgress start final final)
    (hfresh : start.Fresh final) (hkeys : start.ForeignKeys)
    (howns : Owns final workflowId walletId) {id : Text}
    (hid : InvestmentOf final.investments id walletId) :
    ∃ attempt ∈ final.attempts, attempt.workflowId = workflowId ∧
      id ∈ attempt.position.savedIds .investment := by
  rcases (hs.investments id walletId).mp hid with hstart | hinserted
  · exact absurd (hs.wallet_new hfresh howns) (hkeys.INVESTMENT_FK1 id walletId hstart)
  · obtain ⟨attempt, hattempt, hsaved⟩ := List.mem_flatMap.mp hinserted
    obtain ⟨hid, investorId, hcall⟩ := mem_savedInvestments hsaved
    -- the attempt works on the wallet of its own workflow
    have howner : Owns final attempt.workflowId walletId :=
      hs.wallets.calls attempt hattempt walletId (by rw [hcall]; rfl)
    exact ⟨attempt, hattempt, howner.unique howns hs.identified, hid⟩

/-- A candidate that an attempt has saved is for an investment of its workflow's wallet. -/
theorem RowProgress.investmentOf_candidate {s : State} (hs : RowProgress start final s)
    (hattempt : attempt ∈ s.attempts) {id investmentId : Text}
    (hid : (id, investmentId) ∈ savedCandidates attempt.call attempt.position) :
    ∃ walletId, Owns s attempt.workflowId walletId ∧
      InvestmentOf s.investments investmentId walletId := by
  obtain ⟨-, walletId, investmentIds, hcall, hmem⟩ := mem_savedCandidates hid
  -- the investments of its call were returned to its workflow
  have hreturned : InvestmentsReturned s attempt.workflowId walletId investmentIds := by
    have hreturns := hs.calls attempt hattempt
    rwa [hcall] at hreturns
  obtain ⟨-, -, hof⟩ := hreturned.three hs
  exact ⟨walletId, hreturned.owns hs, hof investmentId hmem⟩

/-- So were the candidates of its investments. -/
theorem RowProgress.candidate_saver (hs : RowProgress start final final)
    (hfresh : start.Fresh final) (hkeys : start.ForeignKeys)
    (howns : Owns final workflowId walletId) {id investmentId : Text}
    (hinvestment : InvestmentOf final.investments investmentId walletId)
    (hid : CandidateOf final.candidates id investmentId) :
    ∃ attempt ∈ final.attempts, attempt.workflowId = workflowId ∧
      (id, investmentId) ∈ savedCandidates attempt.call attempt.position := by
  rcases (hs.candidates id investmentId).mp hid with hstart | hinserted
  · obtain ⟨attempt, hattempt, -, hsaved⟩ := hs.investment_saver hfresh hkeys howns hinvestment
    exact absurd (hs.investment_new hfresh hattempt hsaved)
      (hkeys.FINANCIAL_EVENT_CANDIDATE_FK1 id investmentId hstart)
  · obtain ⟨attempt, hattempt, hsaved⟩ := List.mem_flatMap.mp hinserted
    obtain ⟨other, howner, hof⟩ := hs.investmentOf_candidate hattempt hsaved
    obtain rfl : other = walletId := hof.unique hinvestment
    exact ⟨attempt, hattempt, howner.unique howns hs.identified, hsaved⟩

end Savers

/-! ## Effects and savers -/

section Effects

variable {start final : State} {workflowId walletId : Text} {investmentIds candidateIds : List Text}

/-- With one that has saved rows of a kind, nobody else has. -/
theorem SavedOnce.eq (h : SavedOnce workflowId final) (kind : RowKind) {a b : Attempt}
    (ha : a ∈ final.attempts) (hb : b ∈ final.attempts) (hwa : a.workflowId = workflowId)
    (hwb : b.workflowId = workflowId) (hsa : a.position.savedIds kind ≠ [])
    (hsb : b.position.savedIds kind ≠ []) : a = b :=
  eq_of_countP_le_one (h kind) ha hb (Attempt.saves_eq_true.mpr ⟨hwa, hsa⟩)
    (Attempt.saves_eq_true.mpr ⟨hwb, hsb⟩)

/-- If all who have saved rows of a kind have one in common with the same attempt, then it is the
only one. -/
theorem RowProgress.countP_le_one (hs : RowProgress start final final) {kind : RowKind}
    {attempt : Attempt} (hattempt : attempt ∈ final.attempts)
    (hcommon : ∀ a ∈ final.attempts, a.workflowId = workflowId → a.position.savedIds kind ≠ [] →
      ∃ id ∈ a.position.savedIds kind, id ∈ attempt.position.savedIds kind) :
    final.attempts.countP (Attempt.saves workflowId kind) ≤ 1 := by
  by_contra hmany
  obtain ⟨a, b, hsublist, hsa, hsb⟩ := exists_pair_of_one_lt_countP (not_le.mp hmany)
  have hsame : ∀ c ∈ [a, b], c.saves workflowId kind = true → c = attempt := by
    intro c hc hsaves
    obtain ⟨hworkflow, hsaved⟩ := Attempt.saves_eq_true.mp hsaves
    have hmem := hsublist.subset hc
    obtain ⟨id, hid, hid'⟩ := hcommon c hmem hworkflow hsaved
    exact eq_of_nodup_flatMap (hs.createdIds_nodup kind) hmem hattempt
      (ActivityPosition.savedIds_subset _ _ hid) (ActivityPosition.savedIds_subset _ _ hid')
  -- the attempt would stand in two places of the list, with the same ids
  obtain rfl := hsame a (by simp) hsa
  obtain rfl := hsame b (by simp) hsb
  obtain ⟨hworkflow, hsaved⟩ := Attempt.saves_eq_true.mp hsa
  obtain ⟨id, hid⟩ := List.exists_mem_of_ne_nil _ hsaved
  have hcreated := ActivityPosition.savedIds_subset _ _ hid
  exact notMem_of_nodup_flatMap (hs.createdIds_nodup kind) hsublist hcreated hcreated

theorem ActivityPosition.mem_savedIds_wallet {position : ActivityPosition} {id : Text} :
    id ∈ position.savedIds .wallet ↔ position = .walletCreated id := by
  cases position with
  | walletCreated other =>
    show id ∈ [other] ↔ _
    rw [List.mem_singleton, ActivityPosition.walletCreated.injEq, eq_comm]
  | _ => exact iff_of_false List.not_mem_nil nofun

theorem mem_savedIds_of_owns (howns : Owns final workflowId walletId) :
    ∃ attempt ∈ final.attempts, attempt.workflowId = workflowId ∧
      walletId ∈ attempt.position.savedIds .wallet := by
  obtain ⟨attempt, hattempt, hworkflow, hposition⟩ := howns
  exact ⟨attempt, hattempt, hworkflow, ActivityPosition.mem_savedIds_wallet.mpr hposition⟩

/-- Rows saved by one attempt each are the returned ones. -/
theorem SavedOnce.effectsOnce (h : SavedOnce workflowId final) (hs : RowProgress start final final)
    (hfresh : start.Fresh final) (hkeys : start.ForeignKeys)
    (hreturned : CandidatesReturned final workflowId walletId investmentIds candidateIds) :
    EffectsOnce final workflowId walletId := by
  have hinvestments := hreturned.investments hs
  have howns := hinvestments.owns hs
  obtain ⟨hlength, hnodup, hof⟩ := hinvestments.three hs
  have hiff : ∀ id, InvestmentOf final.investments id walletId ↔ id ∈ investmentIds := by
    refine fun id => ⟨fun hid => ?_, hof id⟩
    obtain ⟨saver, hsaver, hworkflow, hsaved⟩ := hs.investment_saver hfresh hkeys howns hid
    obtain ⟨investorId, hattempt⟩ := hinvestments
    have hne : investmentIds ≠ [] := List.ne_nil_of_length_pos (by omega)
    -- who has saved the investment is the attempt that has returned
    obtain rfl := h.eq .investment hsaver hattempt hworkflow rfl (List.ne_nil_of_mem hsaved) hne
    exact hsaved
  refine ⟨fun id => ⟨?_, ?_⟩, ?_, fun investmentId hinvestment => ?_⟩
  · rintro ⟨howns', -⟩
    obtain ⟨a, ha, hwa, hid⟩ := mem_savedIds_of_owns howns
    obtain ⟨b, hb, hwb, hid'⟩ := mem_savedIds_of_owns howns'
    obtain rfl := h.eq .wallet ha hb hwa hwb (List.ne_nil_of_mem hid) (List.ne_nil_of_mem hid')
    rw [ActivityPosition.mem_savedIds_wallet] at hid hid'
    exact ActivityPosition.walletCreated.inj (hid'.symm.trans hid)
  · rintro rfl
    exact ⟨howns, hs.stored workflowId id howns⟩
  · have hset : {id | InvestmentOf final.investments id walletId} = {id | id ∈ investmentIds} := by
      ext id
      exact hiff id
    rw [hset, encard_setOf_mem hnodup, hlength]
    rfl
  · obtain ⟨id, hid⟩ := exists_mem_zip (hreturned.length_eq hs) ((hiff investmentId).mp hinvestment)
    refine ⟨id, hs.candidateOf hreturned hid, fun other hother => ?_⟩
    obtain ⟨saver, hsaver, hworkflow, hsaved⟩ :=
      hs.candidate_saver hfresh hkeys howns hinvestment hother
    obtain ⟨hmem, -⟩ := mem_savedCandidates hsaved
    have hne : candidateIds ≠ [] := List.ne_nil_of_mem (List.of_mem_zip hid).1
    obtain rfl := h.eq .candidate hsaver hreturned hworkflow rfl (List.ne_nil_of_mem hmem) hne
    -- no investment comes twice among the returned ones
    exact eq_of_mem_zip hnodup hsaved hid

/-- Who has saved candidates has saved them in its own activity, and the first one for the first
investment. -/
theorem Fits.exists_savedCandidate {call : Position} {position : ActivityPosition}
    (h : Fits call position) (hsaved : position.savedIds .candidate ≠ []) :
    ∃ id investmentId, (id, investmentId) ∈ savedCandidates call position := by
  have hkind := h.kind .candidate hsaved
  cases call with
  | creatingCandidates walletId investmentIds =>
    obtain ⟨done, hdone, hlength⟩ := h.candidates walletId investmentIds rfl
    have hne : position.storedCandidateIds.zip investmentIds ≠ [] := by
      have hpos : 0 < position.storedCandidateIds.length := List.length_pos_iff.mpr hsaved
      refine List.ne_nil_of_length_pos ?_
      rw [List.length_zip, ← hdone, List.length_append]
      omega
    obtain ⟨⟨id, investmentId⟩, hmem⟩ := List.exists_mem_of_ne_nil _ hne
    exact ⟨id, investmentId, hmem⟩
  | _ => cases hkind

theorem Fits.exists_savedInvestment {call : Position} {position : ActivityPosition}
    (h : Fits call position) (hsaved : position.savedIds .investment ≠ []) :
    ∃ id walletId, call.walletId = some walletId ∧
      (id, walletId) ∈ savedInvestments call position := by
  have hkind := h.kind .investment hsaved
  cases call with
  | creatingInvestments investorId walletId =>
    obtain ⟨id, hid⟩ := List.exists_mem_of_ne_nil _ hsaved
    exact ⟨id, walletId, rfl, List.mem_map_of_mem hid⟩
  | _ => cases hkind

/-- Where the effects are there once, all who have saved rows have saved a returned one. -/
theorem EffectsOnce.savedOnce (h : EffectsOnce final workflowId walletId)
    (hs : RowProgress start final final)
    (hreturned : CandidatesReturned final workflowId walletId investmentIds candidateIds) :
    SavedOnce workflowId final := by
  have hinvestments := hreturned.investments hs
  have howns := hinvestments.owns hs
  -- the workflow works on no other wallet
  have hwallet : ∀ id, Owns final workflowId id → id = walletId := fun id hid =>
    (h.wallet id).mp ⟨hid, hs.stored workflowId id hid⟩
  have hmem : ∀ id, InvestmentOf final.investments id walletId → id ∈ investmentIds := fun id hid =>
    hinvestments.mem_of_encard_eq hs h.investments hid
  intro kind
  cases kind with
  | wallet =>
    obtain ⟨owner, howner, -, hsaved⟩ := mem_savedIds_of_owns howns
    refine hs.countP_le_one howner fun a ha hworkflow hne => ?_
    obtain ⟨id, hid⟩ := List.exists_mem_of_ne_nil _ hne
    obtain rfl := hwallet id ⟨a, ha, hworkflow, ActivityPosition.mem_savedIds_wallet.mp hid⟩
    exact ⟨id, hid, hsaved⟩
  | investment =>
    obtain ⟨investorId, hattempt⟩ := hinvestments
    refine hs.countP_le_one hattempt fun a ha hworkflow hne => ?_
    obtain ⟨id, other, hother, hid⟩ := (hs.fits a ha).exists_savedInvestment hne
    obtain rfl := hwallet other (hworkflow ▸ hs.wallets.calls a ha other hother)
    obtain ⟨hsaved, -⟩ := mem_savedInvestments hid
    exact ⟨id, hsaved, hmem id (hs.investmentOf ha hid)⟩
  | candidate =>
    refine hs.countP_le_one hreturned fun a ha hworkflow hne => ?_
    obtain ⟨id, investmentId, hid⟩ := (hs.fits a ha).exists_savedCandidate hne
    obtain ⟨hsaved, -⟩ := mem_savedCandidates hid
    -- the investment is one of the wallet's, and has one candidate only
    obtain ⟨other, howner, hof⟩ := hs.investmentOf_candidate ha hid
    obtain rfl := hwallet other (hworkflow ▸ howner)
    obtain ⟨id', hid'⟩ := exists_mem_zip (hreturned.length_eq hs) (hmem investmentId hof)
    have hsame : id = id' := (h.candidates investmentId hof).unique (hs.candidateOf ha hid)
      (hs.candidateOf hreturned hid')
    exact ⟨id, hsaved, hsame ▸ (List.of_mem_zip hid').1⟩

end Effects

/-! ## Runs -/

section Runs

variable {policy : BackgroundJobPolicy} {start final s s' : State} {events : List Event}
  {event : Event} {workflowId : Text}

/-- After its step an attempt has saved rows if it had before, or had some to save. -/
theorem ActivityStep.saves_iff {attempt : Attempt} {position : ActivityPosition} {kind : RowKind}
    (h : ActivityStep attempt.workflowId s attempt.call attempt.position position s') :
    ({ attempt with position } : Attempt).saves workflowId kind = true ↔
      attempt.saves workflowId kind = true ∨
        attempt.workflowId = workflowId ∧ attempt.position.unsavedIds kind ≠ [] := by
  rw [Attempt.saves_eq_true, Attempt.saves_eq_true, h.savedIds_eq kind, ← and_or_left, ne_eq,
    List.append_eq_nil_iff, not_and_or]

/-- No attempt loses what it has saved. -/
theorem Fired.countP_le (h : Fired policy s event s') (kind : RowKind) :
    s.attempts.countP (Attempt.saves workflowId kind) ≤
      s'.attempts.countP (Attempt.saves workflowId kind) := by
  cases h with
  | workflow => exact le_rfl
  | begin id position =>
    show _ ≤ (s.attempts ++ _).countP (Attempt.saves workflowId kind)
    rw [List.countP_append]
    exact Nat.le_add_right ..
  | attempt i found attempt position s₁ hattempt hstep =>
    obtain ⟨others, hold, hnew⟩ := exists_countP_set hattempt (Attempt.saves workflowId kind)
    rw [hold, hnew]
    refine Nat.add_le_add_left ?_ others
    by_cases hsaves : attempt.saves workflowId kind = true
    · rw [if_pos hsaves, if_pos (hstep.saves_iff.mpr (.inl hsaves))]
    · rw [if_neg hsaves]
      exact Nat.zero_le _
  | investmentJob i job position s₁ hjob hstep => rw [hstep.outside.attempts]
  | candidateJob i job position s₁ hjob hstep => rw [hstep.outside.attempts]

/-- A step adds its attempt to those who have saved rows of a kind, if it saves its first one. -/
theorem countP_set_le_one_iff {i : ℕ} {attempt : Attempt} {position : ActivityPosition}
    {kind : RowKind} (hattempt : s.attempts[i]? = some attempt)
    (hstep : ActivityStep attempt.workflowId s attempt.call attempt.position position s')
    (hone : s.attempts.countP (Attempt.saves workflowId kind) ≤ 1) :
    (s.attempts.set i { attempt with position }).countP (Attempt.saves workflowId kind) ≤ 1 ↔
      (attempt.workflowId = workflowId → attempt.position.unsavedIds kind ≠ [] →
        attempt.position.savedIds kind = [] →
        s.attempts.countP (Attempt.saves workflowId kind) = 0) := by
  obtain ⟨others, hold, hnew⟩ := exists_countP_set hattempt (Attempt.saves workflowId kind)
  rw [hold] at hone ⊢
  rw [hnew]
  by_cases hsaves : attempt.saves workflowId kind = true
  · -- it was one of them before
    obtain ⟨-, hne⟩ := Attempt.saves_eq_true.mp hsaves
    rw [if_pos hsaves] at hone ⊢
    rw [if_pos (hstep.saves_iff.mpr (.inl hsaves))]
    exact iff_of_true hone fun _ _ hsaved => absurd hsaved hne
  · have hiff : ({ attempt with position } : Attempt).saves workflowId kind = true ↔
        attempt.workflowId = workflowId ∧ attempt.position.unsavedIds kind ≠ [] :=
      hstep.saves_iff.trans (or_iff_right hsaves)
    rw [if_neg hsaves] at hone ⊢
    by_cases hnow : attempt.workflowId = workflowId ∧ attempt.position.unsavedIds kind ≠ []
    · have hsaved : attempt.position.savedIds kind = [] := by
        by_contra hne
        exact hsaves (Attempt.saves_eq_true.mpr ⟨hnow.1, hne⟩)
      rw [if_pos (hiff.mpr hnow)]
      constructor
      · intro h _ _ _
        omega
      · intro h
        have hnone := h hnow.1 hnow.2 hsaved
        omega
    · rw [if_neg (mt hiff.mp hnow)]
      exact iff_of_true hone fun hworkflow hunsaved => absurd ⟨hworkflow, hunsaved⟩ hnow

/-- One who has saved rows of a kind is alone, as long as only the first to do so begins to. -/
theorem Fired.savedOnce_iff (h : Fired policy s event s') (hs : SavedOnce workflowId s) :
    SavedOnce workflowId s' ↔ SavesAlone workflowId s event := by
  have hzero : ∀ kind, s.attempts.countP (Attempt.saves workflowId kind) = 0 ↔
      ∀ other ∈ s.attempts, other.workflowId = workflowId → other.position.savedIds kind = [] := by
    intro kind
    simp only [List.countP_eq_zero, Attempt.saves_eq_true, not_and_not_right]
  cases h with
  | workflow _ _ _ _ hevent =>
    exact iff_of_true hs fun i found _ _ heq => absurd heq (hevent i found)
  | begin id position hposition =>
    refine iff_of_true (fun kind => ?_) fun i found _ _ heq => absurd heq nofun
    obtain ⟨hempty, -⟩ := rows_of_activity hposition
    have hsaves : ¬ Attempt.saves workflowId kind
        ⟨id, (s.workflows id).position, position⟩ = true := fun h =>
      (Attempt.saves_eq_true.mp h).2 (hempty kind).2
    show (s.attempts ++ _).countP (Attempt.saves workflowId kind) ≤ 1
    rw [List.countP_append, List.countP_cons_of_neg hsaves]
    exact hs kind
  | attempt i found attempt position s₁ hattempt hstep =>
    refine (forall_congr' fun kind => countP_set_le_one_iff hattempt hstep (hs kind)).trans ?_
    constructor
    · intro h _ _ same kind heq hsame hworkflow hunsaved hsaved
      obtain ⟨rfl, rfl⟩ := Event.attempt.inj heq
      obtain rfl := Option.some.inj (hattempt.symm.trans hsame)
      exact (hzero kind).mp (h kind hworkflow hunsaved hsaved)
    · intro h kind hworkflow hunsaved hsaved
      exact (hzero kind).mpr (h i found attempt kind rfl hattempt hworkflow hunsaved hsaved)
  | investmentJob i job position s₁ hjob hstep =>
    refine iff_of_true ?_ fun i found _ _ heq => absurd heq nofun
    rwa [SavedOnce, hstep.outside.attempts]
  | candidateJob i job position s₁ hjob hstep =>
    refine iff_of_true ?_ fun i found _ _ heq => absurd heq nofun
    rwa [SavedOnce, hstep.outside.attempts]

/-- The rows of each kind are saved by one attempt exactly if no second one begins to. -/
theorem savedOnce_iff_along (hstart : start.attempts = [])
    (hrun : run (step policy) start events = some final) :
    SavedOnce workflowId final ↔ Along (step policy) (SavesAlone workflowId) start events := by
  refine final_iff_along (fun s event t hs hstep => (step_fired hstep).savedOnce_iff hs) ?_ ?_ hrun
  · exact fun s event t hstep hone kind => ((step_fired hstep).countP_le kind).trans (hone kind)
  · intro kind
    rw [hstart]
    exact Nat.zero_le _

theorem RowProgress.initial {wallets : Table Wallet} {investments : Table Investment}
    {candidates : Table FinancialEventCandidate}
    (hfresh : (State.initial wallets investments candidates).Fresh final) :
    RowProgress (.initial wallets investments candidates) final
      (.initial wallets investments candidates) where
  identified := (Invariant.initial hfresh).identified
  wallets := .initial wallets investments candidates
  created := .empty hfresh.candidates
  stored := by simp [State.initial, Owns]
  jobs := ⟨by simp [State.initial], by simp [State.initial]⟩
  fits := by simp [State.initial]
  investments := .start investments
  candidates := .start candidates
  calls := by simp [State.initial]
  positions := fun _ => trivial

theorem rowProgress_of_run (hunwrapped : final.Unwrapped) (hs : RowProgress start final s)
    (hrun : run (step policy) s events = some final) : RowProgress start final final := by
  refine run_invariant_within (fun t u hstep hwithin ht => ?_) hs.identified.stored hs hrun
    ⟨le_rfl, le_rfl, le_rfl⟩
  exact hstep.rowProgress hunwrapped hwithin ht

/-- Behind a result are candidates that an attempt has returned. -/
theorem CompletesReady.candidatesReturned (h : CompletesReady policy start events workflowId)
    (hrun : run (step policy) start events = some final) (hs : RowProgress start final final) :
    ∃ walletId investmentIds candidateIds,
      CandidatesReturned final workflowId walletId investmentIds candidateIds := by
  obtain ⟨before, i, after, s, walletId, investmentIds, candidateIds, rfl, hbefore, hattempt⟩ := h
  obtain ⟨t, hbefore', hrest⟩ := (run_append_eq_some (step policy)).mp hrun
  obtain rfl := Option.some.inj (hbefore.symm.trans hbefore')
  -- the attempt that has finished is still there
  have hfinished := run_invariant (step policy)
    (I := fun t => ⟨workflowId, .finishing walletId investmentIds candidateIds, .finished⟩ ∈
      t.attempts)
    (fun t event u ht hstep => (step_cases hstep).returned_remains (.finished ..) ht)
    (List.mem_of_getElem? hattempt) hrest
  exact ⟨walletId, investmentIds, candidateIds, hs.calls _ hfinished⟩

end Runs

/-- Where a workflow completes READY, on ids that are given out once and on tables that keep their
foreign keys, its effects are there once exactly if of each kind of rows no attempt begins to save
some when another attempt has. -/
theorem effectsOnce_iff {policy : BackgroundJobPolicy} {wallets : Table Wallet}
    {investments : Table Investment} {candidates : Table FinancialEventCandidate}
    {events : List Event} {final : State} {workflowId : Text}
    (hrun : run (step policy) (.initial wallets investments candidates) events = some final)
    (hunwrapped : final.Unwrapped)
    (hfresh : (State.initial wallets investments candidates).Fresh final)
    (hkeys : (State.initial wallets investments candidates).ForeignKeys)
    (hready : CompletesReady policy (.initial wallets investments candidates) events workflowId) :
    (∃ walletId, EffectsOnce final workflowId walletId) ↔
      Along (step policy) (SavesAlone workflowId) (.initial wallets investments candidates)
        events := by
  have hs := rowProgress_of_run hunwrapped (.initial hfresh) hrun
  obtain ⟨walletId, investmentIds, candidateIds, hreturned⟩ := hready.candidatesReturned hrun hs
  rw [← savedOnce_iff_along rfl hrun]
  constructor
  · rintro ⟨other, honce⟩
    -- the wallet is the one the workflow has worked on
    have howns := (hreturned.investments hs).owns hs
    obtain rfl := (honce.wallet walletId).mp ⟨howns, hs.stored workflowId walletId howns⟩
    exact honce.savedOnce hs hreturned
  · exact fun honce => ⟨walletId, honce.effectsOnce hs hfresh hkeys hreturned⟩

deriving instance DecidableEq for Wallet, ActivityPosition, Attempt

/-- A run that goes on to the result of an attempt at its end. -/
theorem CompletesReady.of_finished {policy : BackgroundJobPolicy} {start s : State}
    {events : List Event} {workflowId walletId : Text} {investmentIds candidateIds : List Text}
    {i : ℕ}
    (hrun : run (step policy) start events = some s)
    (hattempt : s.attempts[i]? =
      some ⟨workflowId, .finishing walletId investmentIds candidateIds, .finished⟩) :
    CompletesReady policy start (events ++ [.complete i]) workflowId :=
  ⟨events, i, [], s, walletId, investmentIds, candidateIds, rfl, hrun, hattempt⟩

theorem effectsOnce_iff_readyEvents :
    ∃ final, run (step matchingPolicy) (.withWallets fun _ => none) (readyEvents ++ [.complete 4]) =
        some final ∧
      ∃ walletId, EffectsOnce final (workflowName 0) walletId := by
  have hfacts : ((run (step matchingPolicy) (.withWallets fun _ => none) readyEvents).bind fun s =>
      (step matchingPolicy s (.complete 4)).map fun t => (s.attempts[4]?,
        (t.walletSequence, t.investmentSequence, t.candidateSequence),
        [RowKind.wallet, .investment, .candidate].map fun kind =>
          t.attempts.countP (Attempt.saves (workflowName 0) kind))) =
      some (some ⟨workflowName 0, .finishing (walletId 1) ([1, 2, 3].map investmentId)
        ([1, 2, 3].map candidateId), .finished⟩, (1, 3, 3), [1, 1, 1]) := by
    decide +kernel
  obtain ⟨s, hbefore, hfacts⟩ := Option.bind_eq_some_iff.mp hfacts
  obtain ⟨final, hcomplete, hfacts⟩ := Option.map_eq_some_iff.mp hfacts
  simp only [Prod.mk.injEq, List.map_cons, List.map_nil, List.cons.injEq, and_true] at hfacts
  obtain ⟨hattempt, ⟨hwallets, hinvestments, hcandidates⟩, hwallet, hinvestment, hcandidate⟩ :=
    hfacts
  have hrun := (run_snoc_eq_some (step matchingPolicy)).mpr ⟨s, hbefore, hcomplete⟩
  have honce : SavedOnce (workflowName 0) final := by
    intro kind
    cases kind with
    | wallet => exact hwallet.le
    | investment => exact hinvestment.le
    | candidate => exact hcandidate.le
  refine ⟨final, hrun, (effectsOnce_iff hrun ⟨by omega, by omega, by omega⟩
    ⟨fun _ _ => rfl, fun _ _ => rfl, fun _ _ => rfl⟩ ⟨?_, ?_⟩
    (.of_finished hbefore hattempt)).mpr ((savedOnce_iff_along rfl hrun).mp honce)⟩
  · rintro id walletId ⟨row, hrow, -⟩
    cases hrow
  · rintro id investmentId ⟨row, hrow, -⟩
    cases hrow

/-- The first attempt at the investments fails after one of them, and the second one succeeds. -/
def retriedEvents : List Event :=
  List.flatten
    [[.start (workflowName 0) "investor".toList, .begin (workflowName 0)],
      List.replicate 2 (.attempt 0 none), [.complete 0, .begin (workflowName 0)],
      List.replicate 3 (.attempt 1 (some .ARROJADO)), [.begin (workflowName 0)],
      List.replicate 12 (.attempt 2 (some .ARROJADO)), [.complete 2, .begin (workflowName 0)],
      List.replicate 11 (.attempt 3 none), [.complete 3, .begin (workflowName 0)],
      [.attempt 4 none, .complete 4],
      [.investmentJob 0, .investmentJob 0, .investmentJob 1, .investmentJob 1, .investmentJob 2,
        .investmentJob 2],
      List.replicate 7 (.candidateJob 0), List.replicate 7 (.candidateJob 1),
      List.replicate 7 (.candidateJob 2), [.deliver 0, .deliver 1, .deliver 2],
      [.unblock (workflowName 0), .begin (workflowName 0), .attempt 5 none, .attempt 5 none]]

/-- The wallet becomes READY with four investments. -/
theorem not_effectsOnce_retried :
    ∃ final, run (step matchingPolicy) (.withWallets fun _ => none)
        (retriedEvents ++ [.complete 5]) = some final ∧
      CompletesReady matchingPolicy (.withWallets fun _ => none) (retriedEvents ++ [.complete 5])
        (workflowName 0) ∧
      ¬ ∃ walletId, EffectsOnce final (workflowName 0) walletId := by
  have hfacts : ((run (step matchingPolicy) (.withWallets fun _ => none)
      retriedEvents).bind fun s => (step matchingPolicy s (.complete 5)).map fun t =>
        (s.attempts[5]?, t.attempts[0]?, (t.wallets (walletId 1)).map Wallet.investorId ::
          [1, 2, 3, 4].map fun k => (t.investments (investmentId k)).map Investment.walletId)) =
      some (some ⟨workflowName 0, .finishing (walletId 1) ([2, 3, 4].map investmentId)
        ([1, 2, 3].map candidateId), .finished⟩,
        some ⟨workflowName 0, .creatingWallet "investor".toList, .walletCreated (walletId 1)⟩,
        some "investor".toList :: List.replicate 4 (some (walletId 1))) := by
    decide +kernel
  obtain ⟨s, hbefore, hfacts⟩ := Option.bind_eq_some_iff.mp hfacts
  obtain ⟨final, hcomplete, hfacts⟩ := Option.map_eq_some_iff.mp hfacts
  simp only [Prod.mk.injEq, List.map_cons, List.map_nil, List.replicate, List.cons.injEq,
    and_true] at hfacts
  obtain ⟨hattempt, hfirst, hstored, h₁, h₂, h₃, h₄⟩ := hfacts
  refine ⟨final, (run_snoc_eq_some (step matchingPolicy)).mpr ⟨s, hbefore, hcomplete⟩,
    .of_finished hbefore hattempt, ?_⟩
  rintro ⟨other, honce⟩
  -- the wallet is the one of the first attempt
  obtain rfl : walletId 1 = other := by
    refine (honce.wallet (walletId 1)).mp
      ⟨⟨_, List.mem_of_getElem? hfirst, rfl, rfl⟩, fun hnone => ?_⟩
    rw [hnone] at hstored
    cases hstored
  have hof : {id | id ∈ [1, 2, 3, 4].map investmentId} ⊆
      {id | InvestmentOf final.investments id (walletId 1)} := by
    show ∀ id ∈ [1, 2, 3, 4].map investmentId, InvestmentOf final.investments id (walletId 1)
    simp only [List.map_cons, List.map_nil, List.forall_mem_cons]
    exact ⟨Option.map_eq_some_iff.mp h₁, Option.map_eq_some_iff.mp h₂,
      Option.map_eq_some_iff.mp h₃, Option.map_eq_some_iff.mp h₄, nofun⟩
  have hnodup : ([1, 2, 3, 4].map investmentId).Nodup := by decide +kernel
  have hle := Set.encard_le_encard hof
  rw [encard_setOf_mem hnodup, honce.investments] at hle
  exact absurd hle (by decide)

end SampleWallet
