import Mathlib.Algebra.BigOperators.Group.Finset.Basic
import Mathlib.Algebra.BigOperators.Group.Finset.Piecewise
import Mathlib.Algebra.Order.Floor.Ring
import Mathlib.Data.Rat.Floor
import JavaExamples.Common.Text
import JavaExamples.Common.Transactions

/-!
# Transferences between accounts

`TransferenceMakerService.doTransfer` takes an amount from one account, gives it to another one and
writes a statement for each, in one transaction. `AccountDAOH2` changes a balance by one guarded
UPDATE of a column of type DECIMAL(20, 2), to which the database rounds; that H2 does so half up,
and that a method with `@Transactional` that throws is rolled back, is taken from their
documentation. 
Amounts are exact and in hundredths. Statements are identified by their position.

* `transferred_or_refused`: when a transference is made, and what it does then; otherwise nothing
  is committed.
* `unexplained_run`: over any sequence of transferences, the balances change by what the statements
  say, and by one cent for every `Drift`.
-/

namespace MoneyTransference

open Program Transactions

/-! ## Amounts -/

/-- A `BigDecimal` rounded to an integer, `RoundingMode.HALF_UP`. -/
def halfUp (x : ℚ) : ℤ := if 0 ≤ x then ⌊x + 1 / 2⌋ else -⌊-x + 1 / 2⌋

/-- A value of DECIMAL(20, 2), in hundredths. -/
structure Decimal where
  cents : ℤ
  fits : cents.natAbs < 10 ^ 20

/-- What H2 stores when a value is assigned to such a column, if it fits. -/
def Decimal.assign (value : ℚ) : Option Decimal :=
  if fits : (halfUp value).natAbs < 10 ^ 20 then some { cents := halfUp value, fits } else none

theorem Decimal.cents_of_assign {value : ℚ} {d : Decimal} (h : Decimal.assign value = some d) :
    d.cents = halfUp value := by
  rw [Decimal.assign] at h
  split at h
  · exact (congrArg Decimal.cents (Option.some.inj h)).symm
  · cases h

theorem halfUp_of_nonneg {x : ℚ} (h : 0 ≤ x) : halfUp x = ⌊x + 1 / 2⌋ := if_pos h

theorem halfUp_of_neg {x : ℚ} (h : x < 0) : halfUp x = ⌈x - 1 / 2⌉ := by
  rw [halfUp, if_neg (not_le.mpr h), ← Int.ceil_neg]
  ring_nf

/-- Half a cent is left over. -/
def HalfCent (amount : ℚ) : Prop := ((⌊amount⌋ : ℤ) : ℚ) + 1 / 2 = amount

instance (amount : ℚ) : Decidable (HalfCent amount) := inferInstanceAs (Decidable (_ = _))

theorem halfCent_iff (amount : ℚ) : HalfCent amount ↔ ∃ n : ℤ, (n : ℚ) = -amount + 1 / 2 := by
  constructor
  · intro h
    refine ⟨-⌊amount⌋, ?_⟩
    rw [HalfCent] at h
    push_cast
    linarith
  · rintro ⟨n, hn⟩
    have hfloor : ⌊amount⌋ = -n := by
      rw [Int.floor_eq_iff]
      push_cast
      constructor <;> linarith
    rw [HalfCent, hfloor]
    push_cast
    linarith

/-- Rounding what has been subtracted to the next integer above or below differs for half a
cent. -/
theorem floor_neg_add_half (amount : ℚ) :
    ⌊-amount + 1 / 2⌋ = ⌈-amount - 1 / 2⌉ + if HalfCent amount then 1 else 0 := by
  have hceil : ⌈-amount - 1 / 2⌉ = ⌈-amount + 1 / 2⌉ - 1 := by
    rw [← Int.ceil_sub_one]
    congr 1
    ring
  by_cases h : HalfCent amount
  · obtain ⟨n, hn⟩ := (halfCent_iff amount).mp h
    rw [if_pos h, hceil, ← hn, Int.floor_intCast, Int.ceil_intCast]
    ring
  · have hnot : -amount + 1 / 2 ∉ Set.range ((↑) : ℤ → ℚ) := fun ⟨n, hn⟩ =>
      h ((halfCent_iff amount).mpr ⟨n, hn⟩)
    rw [if_neg h, hceil, (Int.ceil_eq_floor_add_one_iff_notMem _).mpr hnot]
    ring

/-- What a balance loses when an amount is taken from it. -/
theorem halfUp_sub {balance : ℤ} {amount : ℚ} (h : 0 < amount) :
    halfUp (balance + -amount) = balance + halfUp (-amount) +
      if HalfCent amount ∧ amount ≤ balance then 1 else 0 := by
  rw [halfUp_of_neg (neg_lt_zero.mpr h)]
  by_cases hle : amount ≤ balance
  · have hnonneg : (0 : ℚ) ≤ balance + -amount := by linarith
    rw [halfUp_of_nonneg hnonneg, add_assoc, Int.floor_intCast_add, floor_neg_add_half]
    simp only [hle, and_true]
    ring
  · have hneg : (balance : ℚ) + -amount < 0 := by linarith
    rw [halfUp_of_neg hneg, add_sub_assoc, Int.ceil_intCast_add]
    simp only [hle, and_false, if_false, add_zero]

/-- What a balance above the amount gains when that is added. -/
theorem halfUp_add {balance : ℤ} {amount : ℚ} (h : 0 < amount) (hguard : amount < balance) :
    halfUp (balance + amount) = balance + halfUp amount := by
  rw [halfUp_of_nonneg (by linarith), halfUp_of_nonneg h.le, add_assoc, Int.floor_intCast_add]

theorem halfUp_neg {x : ℚ} (h : 0 < x) : halfUp (-x) = -halfUp x := by
  rw [halfUp, if_neg (by linarith), neg_neg, halfUp_of_nonneg h.le]

/-! ## The database -/

structure Statement where
  accountCode : Text
  amount : Decimal
  description : Text

structure Bank where
  balances : Text → Option Decimal
  statements : List Statement

inductive Failure where
  /-- "Amount must be positive" -/
  | amountNotPositive
  /-- "Description can't have more than 255 characters" -/
  | descriptionTooLong
  /-- "couldn't update the account balance" -/
  | balanceNotUpdated
  | numericOverflow
  | nullAccount

abbrev Transfer := Transactional Bank Failure Unit

/-- An account, by its code, which may be null. -/
structure Account where
  code : Option Text

structure Transference where
  debtor : Account
  creditor : Account
  amount : ℚ
  description : Text

/-- `Validate.isTrue`. -/
def isTrue (expression : Bool) (failure : Failure) : Transfer :=
  if expression = false then throw (.application failure) else pure ()

namespace AccountDAOH2

/-- `UPDATE ACCOUNT SET NUM_BALANCE = NUM_BALANCE + :amount WHERE COD_ACCOUNT = :accountCode AND
NUM_BALANCE > :amount`, with the number of the rows updated. -/
def update (account : Account) (amount : ℚ) (bank : Bank) : Except Failure (ℕ × Bank) :=
  match account.code with
  | none => .ok (0, bank)
  | some code =>
    match bank.balances code with
    | none => .ok (0, bank)
    | some balance =>
      if amount < balance.cents then
        match Decimal.assign (balance.cents + amount) with
        | some balance =>
          .ok (1, { bank with balances := Function.update bank.balances code (some balance) })
        | none => .error .numericOverflow
      else .ok (0, bank)

def updateBalance (account : Account) (amount : ℚ) : Transfer := do
  let affected ← executeUpdate (update account amount)
  isTrue (affected == 1) .balanceNotUpdated

end AccountDAOH2

namespace StatementDAOH2

/-- The row that is inserted for a statement. -/
def insert (account : Account) (amount : ℚ) (description : Text) (bank : Bank) :
    Except Failure Bank :=
  match account.code, Decimal.assign amount with
  | none, _ => .error .nullAccount
  | _, none => .error .numericOverflow
  | some accountCode, some amount =>
    .ok { bank with statements := bank.statements ++ [{ accountCode, amount, description }] }

def create (account : Account) (amount : ℚ) (description : Text) : Transfer :=
  execute (insert account amount description)

end StatementDAOH2

/-- `String.length`: a character beyond the basic plane counts twice. -/
def length (text : Text) : ℕ := (text.map fun c => if c.toNat < 0x10000 then 1 else 2).sum

/-- `TransferenceValidator.validate`. -/
def validate (transference : Transference) : Transfer := do
  isTrue (0 < transference.amount) .amountNotPositive
  isTrue (length transference.description ≤ 255) .descriptionTooLong

/-- Every exception rolls back, as `RuntimeException`s do. -/
def rollbackForAll : NoRollbackFor Failure := fun _ => false

def doTransfer (transference : Transference) : Transfer :=
  transactional .required rollbackForAll do
    validate transference
    AccountDAOH2.updateBalance transference.debtor (-transference.amount)
    AccountDAOH2.updateBalance transference.creditor transference.amount
    StatementDAOH2.create transference.debtor (-transference.amount) transference.description
    StatementDAOH2.create transference.creditor transference.amount transference.description

/-! ## One transference -/

/-- The balance of an account has been changed by an amount. -/
structure Changed (bank : Bank) (code : Text) (amount : ℚ) (bank' : Bank) : Prop where
  change : ∃ balance balance', bank.balances code = some balance ∧ amount < balance.cents ∧
    Decimal.assign (balance.cents + amount) = some balance' ∧
    bank' = { bank with balances := Function.update bank.balances code (some balance') }

/-- The amount has been taken from the debtor, given to the creditor, and noted for both. -/
structure Transferred (transference : Transference) (bank bank' : Bank) : Prop where
  positive : 0 < transference.amount
  description : length transference.description ≤ 255
  accounts : ∃ debtor creditor between after debit credit,
    transference.debtor.code = some debtor ∧ transference.creditor.code = some creditor ∧
    Changed bank debtor (-transference.amount) between ∧
    Changed between creditor transference.amount after ∧
    Decimal.assign (-transference.amount) = some debit ∧
    Decimal.assign transference.amount = some credit ∧
    bank' = { after with statements := bank.statements ++
      [⟨debtor, debit, transference.description⟩, ⟨creditor, credit, transference.description⟩] }

/-- What a check and an update do to the database. -/
def checked (expression : Bool) (failure : Failure) (bank : Bank) : Except Failure Bank :=
  if expression = false then .error failure else .ok bank

def updated (account : Account) (amount : ℚ) (bank : Bank) : Except Failure Bank :=
  AccountDAOH2.update account amount bank >>= fun written =>
    checked (written.1 == 1) .balanceNotUpdated written.2

theorem runsAs_isTrue (expression : Bool) (failure : Failure) :
    RunsAs (isTrue expression failure) (checked expression failure) :=
  RunsAs.check (expression = false) failure

theorem runsAs_updateBalance (account : Account) (amount : ℚ) :
    RunsAs (AccountDAOH2.updateBalance account amount) (updated account amount) :=
  RunsAs.executeUpdate (AccountDAOH2.update account amount) (fun n => (n == 1) = false)
    .balanceNotUpdated

/-- What a transference does to the database, or why it fails. -/
def transfer (transference : Transference) (bank : Bank) : Except Failure Bank :=
  (checked (0 < transference.amount) .amountNotPositive bank >>=
    checked (length transference.description ≤ 255) .descriptionTooLong) >>= fun bank =>
  updated transference.debtor (-transference.amount) bank >>= fun bank =>
  updated transference.creditor transference.amount bank >>= fun bank =>
  StatementDAOH2.insert transference.debtor (-transference.amount) transference.description bank >>=
  StatementDAOH2.insert transference.creditor transference.amount transference.description

/-- It is committed as a whole, or nothing is. -/
theorem doTransfer_required (transference : Transference) (bank : Bank) :
    (∀ bank', transfer transference bank = .ok bank' →
      Returns (doTransfer transference) (idle bank) () (idle bank')) ∧
    ∀ failure, transfer transference bank = .error failure →
      Throws (doTransfer transference) (idle bank) (.application failure) (idle bank) := by
  have hvalidate : RunsAs (validate transference) _ :=
    (runsAs_isTrue (0 < transference.amount) .amountNotPositive).seq
      (runsAs_isTrue (length transference.description ≤ 255) .descriptionTooLong)
  -- the body runs as the steps of `transfer`, one after the other
  have hbody := hvalidate.seq
    ((runsAs_updateBalance transference.debtor (-transference.amount)).seq
      ((runsAs_updateBalance transference.creditor transference.amount).seq
        ((RunsAs.execute (StatementDAOH2.insert transference.debtor (-transference.amount)
          transference.description)).seq
        (RunsAs.execute (StatementDAOH2.insert transference.creditor transference.amount
          transference.description)))))
  exact hbody.required (fun _ => rfl : ∀ e, rollbackForAll e = false) bank

theorem checked_eq_ok {expression : Bool} {failure : Failure} {bank bank' : Bank} :
    checked expression failure bank = .ok bank' ↔ expression = true ∧ bank = bank' := by
  cases expression <;> simp [checked]

theorem updated_eq_ok {account : Account} {amount : ℚ} {bank bank' : Bank} :
    updated account amount bank = .ok bank' ↔
      ∃ code, account.code = some code ∧ Changed bank code amount bank' := by
  rw [updated, AccountDAOH2.update]
  constructor
  -- no code, no such account, a balance that is too low, an overflow: all of them fail
  · intro h
    split at h
    · simp [bind, Except.bind, checked] at h
    next code hcode =>
      split at h
      · simp [bind, Except.bind, checked] at h
      next balance hbalance =>
        split at h
        next hguard =>
          split at h
          next balance' hassign =>
            obtain rfl := Except.ok.inj h
            exact ⟨code, hcode, balance, balance', hbalance, hguard, hassign, rfl⟩
          · simp [bind, Except.bind] at h
        · simp [bind, Except.bind, checked] at h
  · rintro ⟨code, hcode, balance, balance', hbalance, hguard, hassign, rfl⟩
    simp only [hcode, hbalance, hguard, hassign, if_true]
    rfl

theorem insert_eq_ok {account : Account} {amount : ℚ} {description : Text} {bank bank' : Bank} :
    StatementDAOH2.insert account amount description bank = .ok bank' ↔
      ∃ code stored, account.code = some code ∧ Decimal.assign amount = some stored ∧
        bank' = { bank with statements := bank.statements ++ [⟨code, stored, description⟩] } := by
  rw [StatementDAOH2.insert]
  cases hcode : account.code <;> cases hassign : Decimal.assign amount <;> simp [eq_comm]

theorem bind_eq_ok {α : Type} {result : Except Failure α} {next : α → Except Failure Bank}
    {bank : Bank} : (result >>= next) = .ok bank ↔ ∃ a, result = .ok a ∧ next a = .ok bank := by
  cases result <;> simp [bind, Except.bind]

theorem transfer_eq_ok {transference : Transference} {bank bank' : Bank} :
    transfer transference bank = .ok bank' ↔ Transferred transference bank bank' := by
  simp only [transfer, bind_eq_ok, checked_eq_ok, updated_eq_ok, insert_eq_ok, decide_eq_true_eq]
  constructor
  · rintro ⟨_, ⟨_, ⟨hpositive, rfl⟩, hdescription, rfl⟩, between, ⟨debtor, hdebtor, hbetween⟩,
      after, ⟨creditor, hcreditor, hafter⟩, _, ⟨debtor', debit, hdebtor', hdebit, rfl⟩,
      creditor', credit, hcreditor', hcredit, rfl⟩
    -- both statements are of the accounts whose balances have changed
    obtain rfl := Option.some.inj (hdebtor'.symm.trans hdebtor)
    obtain rfl := Option.some.inj (hcreditor'.symm.trans hcreditor)
    refine ⟨hpositive, hdescription, debtor', creditor', between, after, debit, credit, hdebtor',
      hcreditor', hbetween, hafter, hdebit, hcredit, ?_⟩
    obtain ⟨_, _, -, -, -, rfl⟩ := hbetween
    obtain ⟨_, _, -, -, -, rfl⟩ := hafter
    simp only [List.append_assoc, List.cons_append, List.nil_append]
  · rintro ⟨hpositive, hdescription, debtor, creditor, between, after, debit, credit, hdebtor,
      hcreditor, hbetween, hafter, hdebit, hcredit, rfl⟩
    refine ⟨_, ⟨_, ⟨hpositive, rfl⟩, hdescription, rfl⟩, between, ⟨debtor, hdebtor, hbetween⟩,
      after, ⟨creditor, hcreditor, hafter⟩, _, ⟨debtor, debit, hdebtor, hdebit, rfl⟩,
      creditor, credit, hcreditor, hcredit, ?_⟩
    obtain ⟨_, _, -, -, -, rfl⟩ := hbetween
    obtain ⟨_, _, -, -, -, rfl⟩ := hafter
    simp only [List.append_assoc, List.cons_append, List.nil_append]

/-- A transference that is possible is made and committed, any other one throws and commits
nothing. -/
theorem transferred_or_refused (transference : Transference) (bank : Bank) :
    (∃ bank', Transferred transference bank bank' ∧
      Returns (doTransfer transference) (idle bank) () (idle bank')) ∨
    ((∀ bank', ¬Transferred transference bank bank') ∧
      ∃ failure, Throws (doTransfer transference) (idle bank) (.application failure)
        (idle bank)) := by
  obtain ⟨hok, herror⟩ := doTransfer_required transference bank
  cases htransfer : transfer transference bank with
  | ok bank' => exact .inl ⟨bank', transfer_eq_ok.mp htransfer, hok bank' htransfer⟩
  | error failure =>
    refine .inr ⟨fun bank' htransferred => ?_, failure, herror failure htransfer⟩
    rw [transfer_eq_ok.mpr htransferred] at htransfer
    cases htransfer

/-! ## Any number of transferences -/

/-- What has been committed after a transference. -/
def after (bank : Bank) (transference : Transference) : Bank :=
  (perform (doTransfer transference) (idle bank)).2.committed

/-- The sum of an account's statements. -/
def noted (bank : Bank) (code : Text) : ℤ :=
  ((bank.statements.filter (·.accountCode == code)).map (·.amount.cents)).sum

/-- The part of an account's balance that its statements do not account for. -/
def unexplained (bank : Bank) (code : Text) : Option ℤ :=
  (bank.balances code).map fun balance => balance.cents - noted bank code

/-- The account is the debtor of a transference that is made, of an amount that ends in half a cent
and that its balance covers. -/
def drift (code : Text) (bank : Bank) (transference : Transference) : ℤ :=
  if (transfer transference bank).toOption.isSome ∧ transference.debtor.code = some code ∧
      HalfCent transference.amount ∧
      (bank.balances code).any fun balance => transference.amount ≤ balance.cents then 1 else 0

/-- How often that happens to the account in a run. -/
def drifts (code : Text) : Bank → List Transference → ℤ
  | _, [] => 0
  | bank, transference :: rest =>
    drift code bank transference + drifts code (after bank transference) rest

theorem after_cases (bank : Bank) (transference : Transference) :
    Transferred transference bank (after bank transference) ∨
      ((transfer transference bank).toOption = none ∧ after bank transference = bank) := by
  obtain ⟨hok, herror⟩ := doTransfer_required transference bank
  cases htransfer : transfer transference bank with
  | ok bank' =>
    have hafter : after bank transference = bank' := by rw [after, hok bank' htransfer]; rfl
    exact .inl (hafter ▸ transfer_eq_ok.mp htransfer)
  | error failure => exact .inr ⟨rfl, by rw [after, herror failure htransfer]; rfl⟩

theorem Changed.cents {bank bank' : Bank} {code : Text} {amount : ℚ}
    (h : Changed bank code amount bank') (other : Text) :
    (bank'.balances other).map Decimal.cents = (bank.balances other).map fun balance =>
      if other = code then halfUp (balance.cents + amount) else balance.cents := by
  obtain ⟨balance, balance', hbalance, -, hassign, rfl⟩ := h
  rcases eq_or_ne other code with rfl | hne
  · simp [hbalance, Decimal.cents_of_assign hassign]
  · simp [hne]

theorem Changed.guard {bank bank' : Bank} {code : Text} {amount : ℚ}
    (h : Changed bank code amount bank') : ∃ balance, bank.balances code = some balance ∧
      amount < balance.cents := by
  obtain ⟨balance, _, hbalance, hguard, -, -⟩ := h
  exact ⟨balance, hbalance, hguard⟩

theorem noted_append (bank : Bank) (statements : List Statement) (code : Text) :
    noted { bank with statements := bank.statements ++ statements } code =
      noted bank code +
        ((statements.filter (·.accountCode == code)).map (·.amount.cents)).sum := by
  rw [noted, noted, List.filter_append, List.map_append, List.sum_append]

/-- What a transference notes for an account. -/
theorem noted_pair (debtor creditor code description : Text) (debit credit : Decimal) :
    ((([⟨debtor, debit, description⟩, ⟨creditor, credit, description⟩] : List Statement).filter
      (·.accountCode == code)).map (·.amount.cents)).sum =
      (if debtor = code then debit.cents else 0) + if creditor = code then credit.cents else 0 := by
  by_cases hdebtor : debtor = code <;> by_cases hcreditor : creditor = code <;>
    simp [hdebtor, hcreditor]

/-- What the change of a balance makes of it, taking first and giving then. -/
theorem Changed.debit {bank bank' : Bank} {debtor : Text} {amount : ℚ} (hpositive : 0 < amount)
    (h : Changed bank debtor (-amount) bank') {code : Text} {balance : Decimal}
    (hbalance : bank.balances code = some balance) :
    ∃ balance', bank'.balances code = some balance' ∧ balance'.cents = balance.cents +
      if debtor = code then
        halfUp (-amount) + if HalfCent amount ∧ amount ≤ balance.cents then 1 else 0
      else 0 := by
  have hcents := h.cents code
  rw [hbalance, Option.map_some, Option.map_eq_some_iff] at hcents
  obtain ⟨balance', hbalance', hcents⟩ := hcents
  refine ⟨balance', hbalance', hcents.trans ?_⟩
  by_cases hcode : debtor = code
  · rw [if_pos hcode.symm, if_pos hcode, halfUp_sub hpositive, add_assoc]
  · rw [if_neg (Ne.symm hcode), if_neg hcode, add_zero]

theorem Changed.credit {bank bank' : Bank} {creditor : Text} {amount : ℚ} (hpositive : 0 < amount)
    (h : Changed bank creditor amount bank') {code : Text} {balance : Decimal}
    (hbalance : bank.balances code = some balance) :
    ∃ balance', bank'.balances code = some balance' ∧
      balance'.cents = balance.cents + if creditor = code then halfUp amount else 0 := by
  have hcents := h.cents code
  rw [hbalance, Option.map_some, Option.map_eq_some_iff] at hcents
  obtain ⟨balance', hbalance', hcents⟩ := hcents
  refine ⟨balance', hbalance', hcents.trans ?_⟩
  by_cases hcode : creditor = code
  · subst hcode
    -- the guard is that of the balance itself
    obtain ⟨guarded, hguarded, hguard⟩ := h.guard
    obtain rfl := Option.some.inj (hbalance.symm.trans hguarded)
    rw [if_pos rfl, if_pos rfl, halfUp_add hpositive hguard]
  · rw [if_neg (Ne.symm hcode), if_neg hcode, add_zero]

theorem Changed.eq_none {bank bank' : Bank} {code other : Text} {amount : ℚ}
    (h : Changed bank code amount bank') (hnone : bank.balances other = none) :
    bank'.balances other = none := by
  have hcents := h.cents other
  rwa [hnone, Option.map_none, Option.map_eq_none_iff] at hcents

/-- A transference changes what is unexplained of an account by its drift. -/
theorem Transferred.unexplained_eq {transference : Transference} {bank bank' : Bank}
    (h : Transferred transference bank bank') (code : Text) :
    unexplained bank' code = (unexplained bank code).map (· + drift code bank transference) := by
  have htransfer := transfer_eq_ok.mpr h
  obtain ⟨hpositive, -, debtor, creditor, between, after, debit, credit, hdebtor, -, hbetween,
    hafter, hdebit, hcredit, rfl⟩ := h
  cases hbalance : bank.balances code with
  | none =>
    have hnone := hafter.eq_none (hbetween.eq_none hbalance)
    simp only [unexplained, hbalance, hnone, Option.map_none]
  | some balance =>
    obtain ⟨balance₁, hbalance₁, hcents₁⟩ := hbetween.debit hpositive hbalance
    obtain ⟨balance₂, hbalance₂, hcents₂⟩ := hafter.credit hpositive hbalance₁
    have hdrift : drift code bank transference =
        if debtor = code then
          if HalfCent transference.amount ∧ transference.amount ≤ balance.cents then 1 else 0
        else 0 := by
      rw [drift, htransfer, hbalance, hdebtor]
      by_cases hcode : debtor = code <;> simp [hcode, Except.toOption]
    have hnoted := noted_append { after with statements := bank.statements }
      [⟨debtor, debit, transference.description⟩, ⟨creditor, credit, transference.description⟩] code
    rw [noted_pair, Decimal.cents_of_assign hdebit, Decimal.cents_of_assign hcredit] at hnoted
    -- the updates write no statements
    have hbefore : noted { after with statements := bank.statements } code = noted bank code := rfl
    simp only [unexplained, hbalance, hbalance₂, Option.map_some, hnoted, hbefore, hdrift, hcents₂,
      hcents₁, Option.some.injEq]
    by_cases hcode : debtor = code
    · simp only [if_pos hcode]
      ring
    · simp only [if_neg hcode]
      ring

theorem unexplained_after (bank : Bank) (transference : Transference) (code : Text) :
    unexplained (after bank transference) code =
      (unexplained bank code).map (· + drift code bank transference) := by
  rcases after_cases bank transference with htransferred | ⟨hfailed, hsame⟩
  · exact htransferred.unexplained_eq code
  · have hdrift : drift code bank transference = 0 := by
      rw [drift, hfailed]
      exact if_neg fun h => absurd h.1 Bool.false_ne_true
    simp only [hsame, hdrift, add_zero, Option.map_id']

/-- What a transference notes for its two accounts adds up to nothing. -/
theorem Transferred.noted_eq {transference : Transference} {bank bank' : Bank}
    (h : Transferred transference bank bank') :
    ∃ debtor creditor rounded, bank.balances debtor ≠ none ∧ bank.balances creditor ≠ none ∧
      ∀ code, noted bank' code = noted bank code +
        ((if debtor = code then -rounded else 0) + if creditor = code then rounded else 0) := by
  obtain ⟨hpositive, -, debtor, creditor, between, after, debit, credit, -, -, hbetween, hafter,
    hdebit, hcredit, rfl⟩ := h
  obtain ⟨_, hdebtor, -⟩ := hbetween.guard
  obtain ⟨_, hcreditor, -⟩ := hafter.guard
  refine ⟨debtor, creditor, halfUp transference.amount, by simp [hdebtor], fun hnone => ?_,
    fun code => ?_⟩
  · rw [hbetween.eq_none hnone] at hcreditor
    cases hcreditor
  · have hnoted := noted_append { after with statements := bank.statements }
      [⟨debtor, debit, transference.description⟩, ⟨creditor, credit, transference.description⟩] code
    rw [noted_pair, Decimal.cents_of_assign hdebit, Decimal.cents_of_assign hcredit,
      halfUp_neg hpositive] at hnoted
    exact hnoted

/-- The money in some accounts. -/
def total (codes : Finset Text) (bank : Bank) : ℤ :=
  ∑ code ∈ codes, ((bank.balances code).map Decimal.cents).getD 0

/-- Nothing is noted for an account that there is not. -/
theorem noted_after_of_none {bank : Bank} {code : Text} (hnone : bank.balances code = none)
    (transference : Transference) : noted (after bank transference) code = noted bank code := by
  rcases after_cases bank transference with htransferred | ⟨-, hsame⟩
  · obtain ⟨debtor, creditor, rounded, hdebtor, hcreditor, hnoted⟩ := htransferred.noted_eq
    have hdebtorNe : debtor ≠ code := fun heq => hdebtor (heq ▸ hnone)
    have hcreditorNe : creditor ≠ code := fun heq => hcreditor (heq ▸ hnone)
    rw [hnoted, if_neg hdebtorNe, if_neg hcreditorNe, add_zero, add_zero]
  · rw [hsame]

/-- For every account, the balance changes by what is noted and by the drift. -/
theorem cents_after (bank : Bank) (transference : Transference) (code : Text) :
    (((after bank transference).balances code).map Decimal.cents).getD 0 =
      ((bank.balances code).map Decimal.cents).getD 0 +
        (noted (after bank transference) code - noted bank code) +
        drift code bank transference := by
  have hunexplained := unexplained_after bank transference code
  cases hbalance : bank.balances code with
  | none =>
    have hdrift : drift code bank transference = 0 := by
      rw [drift, hbalance]
      exact if_neg fun h => absurd h.2.2.2 Bool.false_ne_true
    rw [unexplained, unexplained, hbalance, Option.map_none, Option.map_none,
      Option.map_eq_none_iff] at hunexplained
    rw [hunexplained, hdrift, noted_after_of_none hbalance, sub_self]
    rfl
  | some balance =>
    rw [unexplained, unexplained, hbalance, Option.map_some, Option.map_some,
      Option.map_eq_some_iff] at hunexplained
    obtain ⟨balance', hbalance', heq⟩ := hunexplained
    rw [hbalance', Option.map_some, Option.map_some, Option.getD_some, Option.getD_some]
    linarith

/-- What is taken from one account is noted for the other one. -/
theorem sum_noted_after (bank : Bank) (transference : Transference) (codes : Finset Text)
    (hcodes : ∀ code, bank.balances code ≠ none → code ∈ codes) :
    ∑ code ∈ codes, (noted (after bank transference) code - noted bank code) = 0 := by
  rcases after_cases bank transference with htransferred | ⟨-, hsame⟩
  · obtain ⟨debtor, creditor, rounded, hdebtor, hcreditor, hnoted⟩ := htransferred.noted_eq
    simp only [hnoted, add_sub_cancel_left, Finset.sum_add_distrib, Finset.sum_ite_eq,
      hcodes debtor hdebtor, hcodes creditor hcreditor, if_true, neg_add_cancel]
  · simp only [hsame, sub_self, Finset.sum_const_zero]

theorem total_after (bank : Bank) (transference : Transference) (codes : Finset Text)
    (hcodes : ∀ code, bank.balances code ≠ none → code ∈ codes) :
    total codes (after bank transference) =
      total codes bank + ∑ code ∈ codes, drift code bank transference := by
  rw [total, Finset.sum_congr rfl fun code _ => cents_after bank transference code,
    Finset.sum_add_distrib, Finset.sum_add_distrib, sum_noted_after bank transference codes hcodes,
    add_zero, total]

theorem balances_after_eq_none_iff (bank : Bank) (transference : Transference) (code : Text) :
    (after bank transference).balances code = none ↔ bank.balances code = none := by
  have hunexplained := congrArg Option.isNone (unexplained_after bank transference code)
  simpa [unexplained, ← Option.isNone_iff_eq_none] using hunexplained

/-- Over any sequence of transferences, the part of a balance that its statements do not account for
grows by one cent for every drift of the account, and so does the money in all accounts. -/
theorem unexplained_run (bank : Bank) (transferences : List Transference) :
    (∀ code, unexplained (transferences.foldl after bank) code =
      (unexplained bank code).map (· + drifts code bank transferences)) ∧
    ∀ codes : Finset Text, (∀ code, bank.balances code ≠ none → code ∈ codes) →
      total codes (transferences.foldl after bank) =
        total codes bank + ∑ code ∈ codes, drifts code bank transferences := by
  induction transferences generalizing bank with
  | nil => simp [drifts]
  | cons transference rest ih =>
    obtain ⟨hunexplained, htotal⟩ := ih (after bank transference)
    constructor
    · intro code
      rw [List.foldl_cons, hunexplained, unexplained_after, Option.map_map]
      simp only [Function.comp_def, drifts, add_assoc]
    · intro codes hcodes
      rw [List.foldl_cons, htotal codes fun code h =>
        hcodes code (mt (balances_after_eq_none_iff bank transference code).mpr h),
        total_after bank transference codes hcodes]
      simp only [drifts, Finset.sum_add_distrib, add_assoc]

end MoneyTransference
