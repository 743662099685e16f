import JavaExamples.Common.Numbering
import JavaExamples.Common.Text

/-!
# The rows of the sample wallet

The tables WALLET, INVESTMENT and FINANCIAL_EVENT_CANDIDATE, and the ids that
`SampleWalletCreationActivitiesImpl` gives to new rows: a prefix and the value of a counter.

* `walletId_eq_iff` and its siblings: which rows get the same id.
-/

namespace SampleWallet

inductive WalletStatus where
  | CREATING
  | READY
  | ABORTED
  deriving DecidableEq

inductive CandidateStatus where
  | PENDING
  | MATCHED
  | REJECTED
  | PENDING_ENRICH
  deriving DecidableEq

inductive InvestorProfile where
  | ARROJADO
  | MODERADO
  | CONSERVADOR
  deriving DecidableEq

/-- A row of WALLET; its key is IDT_WALLET. -/
structure Wallet where
  investorId : Text
  status : WalletStatus

/-- A row of INVESTMENT; its key is IDT_INVESTMENT. -/
structure Investment where
  walletId : Text
  investorId : Text
  baseInvestmentId : Text
  profile : InvestorProfile
  created : Bool

/-- A row of FINANCIAL_EVENT_CANDIDATE; its key is IDT_FINANCIAL_EVENT_CANDIDATE. -/
structure FinancialEventCandidate where
  investmentId : Text
  status : CandidateStatus
  processed : Bool
  attempts : ℤ

/-- A table by its primary key. -/
abbrev Table (ρ : Type) := Text → Option ρ

/-- `EntityManager.merge`: the row with the id is inserted or replaced. -/
def save {ρ : Type} (id : Text) (row : ρ) (table : Table ρ) : Table ρ :=
  Function.update table id (some row)

section Save

variable {ρ : Type} {id x : Text} {row stored : ρ} {table : Table ρ}

@[simp]
theorem save_self : save id row table id = some row := Function.update_self ..

theorem save_of_ne (h : x ≠ id) : save id row table x = table x := Function.update_of_ne h ..

theorem ne_of_stored (hstored : table x = some stored) (hnone : table id = none) : x ≠ id := by
  rintro rfl
  rw [hnone] at hstored
  cases hstored

end Save

def BASE_INVESTMENTS_BY_PROFILE : InvestorProfile → List Text
  | .ARROJADO => ["ETF-USA".toList, "STOCK-TECH".toList, "CRYPTO-BTC".toList]
  | .MODERADO => ["ETF-GLOBAL".toList, "BOND-IPCA".toList, "REIT-US".toList]
  | .CONSERVADOR => ["TREASURY-SELIC".toList, "CDB-DI".toList, "LCI-2027".toList]

/-! ## New rows -/

/-- The id of the wallet with the number `n`. -/
def walletId (n : ℕ) : Text := "wallet-".toList ++ Text.ofInt (AtomicInteger.value n)

def investmentId (n : ℕ) : Text := "investment-".toList ++ Text.ofInt (AtomicInteger.value n)

def candidateId (n : ℕ) : Text := "candidate-".toList ++ Text.ofInt (AtomicInteger.value n)

def newWallet (investorId : Text) : Wallet := { investorId, status := .CREATING }

def newInvestment (walletId investorId : Text) (profile : InvestorProfile)
    (baseInvestmentId : Text) : Investment :=
  { walletId, investorId, baseInvestmentId, profile, created := false }

def newCandidate (investmentId : Text) : FinancialEventCandidate :=
  { investmentId, status := .PENDING, processed := false, attempts := 0 }

/-- Ids are the same if their numbers are up to multiples of `2 ^ 32`. -/
theorem append_ofInt_eq_iff {stem : Text} {m n : ℕ} :
    stem ++ Text.ofInt (AtomicInteger.value m) = stem ++ Text.ofInt (AtomicInteger.value n) ↔
      m % 2 ^ 32 = n % 2 ^ 32 := by
  rw [List.append_cancel_left_eq, Text.ofInt_injective.eq_iff, AtomicInteger.value_eq_iff]

theorem walletId_eq_iff {m n : ℕ} : walletId m = walletId n ↔ m % 2 ^ 32 = n % 2 ^ 32 :=
  append_ofInt_eq_iff

theorem investmentId_eq_iff {m n : ℕ} : investmentId m = investmentId n ↔ m % 2 ^ 32 = n % 2 ^ 32 :=
  append_ofInt_eq_iff

theorem candidateId_eq_iff {m n : ℕ} : candidateId m = candidateId n ↔ m % 2 ^ 32 = n % 2 ^ 32 :=
  append_ofInt_eq_iff

/-- `2 ^ 32` ids in a row are different. -/
theorem injOn_of_eq_iff {id : ℕ → Text} (h : ∀ m n, id m = id n ↔ m % 2 ^ 32 = n % 2 ^ 32) :
    Set.InjOn id (Set.Ioc 0 (2 ^ 32)) := by
  rintro m ⟨hm0, hm⟩ n ⟨hn0, hn⟩ heq
  rw [h] at heq
  omega

theorem walletId_injOn : Set.InjOn walletId (Set.Ioc 0 (2 ^ 32)) :=
  injOn_of_eq_iff fun _ _ => walletId_eq_iff

theorem investmentId_injOn : Set.InjOn investmentId (Set.Ioc 0 (2 ^ 32)) :=
  injOn_of_eq_iff fun _ _ => investmentId_eq_iff

theorem candidateId_injOn : Set.InjOn candidateId (Set.Ioc 0 (2 ^ 32)) :=
  injOn_of_eq_iff fun _ _ => candidateId_eq_iff

end SampleWallet
