import JavaExamples.Common.IsoDateTime
import Mathlib.Logic.Function.Basic

/-!
# Turnovers of a balance

The two ways in which `CustomerService` changes a balance by a turnover, each run alone on the table
`customers`. `doCustomerBalanceTurnover` is one UPDATE with the turnover formatted into its text;
`updateCustomerBalanceConcurrencyProblem` reads the balance, computes the new one and writes it.

Amounts are exact and in hundredths. The turnover is formatted in the default locale of the JVM,
where the DAO of H2 passes `Locale.ENGLISH`; SQL reads decimals with a point and the digits of ASCII
only.

* `summand_format`: in such a locale the text of the turnover is read as what it has been formatted
  from, and in no other locale is it read.
* `TurnsOver`: what a turnover should do.
* `turnsOver_iff`: the turnovers that both ways make right.
* `not_turnsOver_deposit`: one that they do not.
-/

namespace Customers

/-- A value of NUMBER(12, 2), in hundredths. -/
structure Balance where
  cents : ℤ
  fits : cents.natAbs < 10 ^ 12

def Balance.ofCents (cents : ℤ) : Option Balance :=
  if fits : cents.natAbs < 10 ^ 12 then some { cents, fits } else none

structure Customer where
  firstName : Option Text
  lastName : Option Text
  balance : Option Balance

/-- The rows by their ids, which are of type SERIAL. -/
abbrev Table := ℤ → Option Customer

/-- Why a call throws; its transaction is rolled back. -/
inductive Failure where
  | badSqlGrammar
  | numericOverflow
  | emptyResult
  /-- "No balance available" -/
  | noBalanceAvailable

/-- What `String.format` takes from a locale for a decimal. -/
structure Locale where
  zeroDigit : Char
  decimalSeparator : Char
  /-- Zeros other than the one of ASCII are letters of other scripts. -/
  zeroDigit_spec : zeroDigit = '0' ∨ 0x660 ≤ zeroDigit.toNat
  decimalSeparator_spec :
    decimalSeparator = '.' ∨ decimalSeparator = ',' ∨ decimalSeparator = '\u066b'

namespace Locale

/-- The digit of the locale for a digit of ASCII. -/
def localize (locale : Locale) (c : Char) : Char :=
  Char.ofNat (c.toNat - '0'.toNat + locale.zeroDigit.toNat)

/-- Decimals are written as SQL reads them. -/
def Plain (locale : Locale) : Prop := locale.zeroDigit = '0' ∧ locale.decimalSeparator = '.'

instance (locale : Locale) : Decidable locale.Plain := inferInstanceAs (Decidable (_ ∧ _))

end Locale

/-- `String.format("%+.2f", turnoverValue)` in the default locale. -/
def format (locale : Locale) (turnoverValue : ℤ) : Text :=
  (if turnoverValue < 0 then '-' else '+') ::
    ((Text.pad 1 (turnoverValue.natAbs / 100)).map locale.localize ++
      locale.decimalSeparator :: (Text.pad 2 (turnoverValue.natAbs % 100)).map locale.localize)

/-- The value of a literal with two decimals, in hundredths. -/
def literal (text : Text) : Option ℕ :=
  match Text.cut '.' text with
  | some (whole, fraction) => do
    let whole ← IsoTimestamp.number whole
    let fraction ← IsoTimestamp.number fraction
    return 100 * whole + fraction
  | none => none

/-- What a text that follows `balance` adds to it. -/
def summand (text : Text) : Except Failure ℤ :=
  match text with
  | '+' :: number =>
    match literal number with
    | some cents => .ok cents
    | none => .error .badSqlGrammar
  | '-' :: number =>
    match literal number with
    | some cents => .ok (-cents)
    | none => .error .badSqlGrammar
  | _ => .error .badSqlGrammar

namespace CustomerDAOPg

/-- Writes a balance into a row. -/
def setBalance (customers : Table) (customerId : ℤ) (customer : Customer) (cents : ℤ) :
    Except Failure (Bool × Table) :=
  match Balance.ofCents cents with
  | some balance =>
    .ok (true, Function.update customers customerId
      (some { customer with balance := some balance }))
  | none => .error .numericOverflow

/-- `UPDATE customers SET balance=balance %+.2f WHERE id = ? AND balance %+.2f >= 0.0`, and whether
it has updated a row. -/
def doCustomerBalanceTurnover (locale : Locale) (customers : Table)
    (customerId turnoverValue : ℤ) : Except Failure (Bool × Table) := do
  -- the statement is parsed before it looks for rows
  let turnover ← summand (format locale turnoverValue)
  match customers customerId with
  | none => return (false, customers)
  | some customer =>
    match customer.balance with
    | some balance =>
      if 0 ≤ balance.cents + turnover then
        setBalance customers customerId customer (balance.cents + turnover)
      else return (false, customers)
    -- a comparison with null is not true
    | none => return (false, customers)

/-- The balance of the customer found, which `getDouble` gives as zero if it is null. -/
def findCustomerById (customers : Table) (customerId : ℤ) : Except Failure ℤ :=
  match customers customerId with
  | some customer => .ok ((customer.balance.map Balance.cents).getD 0)
  | none => .error .emptyResult

def updateCustomerBalance (customers : Table) (customerId newBalance : ℤ) :
    Except Failure (Bool × Table) :=
  match customers customerId with
  | some customer => setBalance customers customerId customer newBalance
  | none => .ok (false, customers)

end CustomerDAOPg

namespace CustomerService

def doCustomerBalanceTurnover (locale : Locale) (customers : Table)
    (customerId turnoverValue : ℤ) : Except Failure (Bool × Table) :=
  CustomerDAOPg.doCustomerBalanceTurnover locale customers customerId turnoverValue

def updateCustomerBalanceConcurrencyProblem (customers : Table) (customerId turnoverValue : ℤ) :
    Except Failure (Bool × Table) := do
  let balance ← CustomerDAOPg.findCustomerById customers customerId
  let newBalance := if 0 < turnoverValue then balance - turnoverValue else balance + turnoverValue
  if newBalance < 0 then throw .noBalanceAvailable
  CustomerDAOPg.updateCustomerBalance customers customerId newBalance

end CustomerService

/-- A turnover that the balance covers succeeds and is added to it, any other one is refused;
nothing else changes. -/
structure TurnsOver (customers : Table) (customerId : ℤ) (customer : Customer) (turnoverValue : ℤ)
    (outcome : Except Failure (Bool × Table)) : Prop where
  covered : ∀ balance ∈ customer.balance, 0 ≤ balance.cents + turnoverValue →
    ∃ balance', balance'.cents = balance.cents + turnoverValue ∧
      outcome = .ok (true, Function.update customers customerId
        (some { customer with balance := some balance' }))
  refused : (∀ balance ∈ customer.balance, balance.cents + turnoverValue < 0) →
    outcome = .ok (false, customers) ∨ ∃ failure, outcome = .error failure

/-- The turnover is not covered; or it is not positive and the locale writes it as SQL reads it. A
balance that is null counts as zero for one of the two ways. -/
def Agreeing (locale : Locale) (customer : Customer) (turnoverValue : ℤ) : Prop :=
  match customer.balance with
  | some balance => (turnoverValue ≤ 0 ∧ locale.Plain) ∨ balance.cents + turnoverValue < 0
  | none => turnoverValue ≠ 0

/-! ## The statement -/

section Statement

variable {locale : Locale}

theorem localize_of_ascii (hascii : locale.zeroDigit = '0') {c : Char} (hc : c.isDigit = true) :
    locale.localize c = c := by
  have hzero : '0'.toNat ≤ c.toNat := by
    simp only [Char.isDigit, Bool.and_eq_true, decide_eq_true_iff] at hc
    exact hc.1
  rw [Locale.localize, hascii, Nat.sub_add_cancel hzero, Char.ofNat_toNat]

theorem map_localize_pad (hplain : locale.Plain) (width n : ℕ) :
    (Text.pad width n).map locale.localize = Text.pad width n := by
  conv_rhs => rw [← List.map_id (Text.pad width n)]
  apply List.map_congr_left
  intro c hc
  exact localize_of_ascii hplain.1 (IsoTimestamp.isDigit_of_mem_pad hc)

theorem literal_format (hplain : locale.Plain) (cents : ℕ) :
    literal ((Text.pad 1 (cents / 100)).map locale.localize ++
      locale.decimalSeparator :: (Text.pad 2 (cents % 100)).map locale.localize) = some cents := by
  rw [map_localize_pad hplain, map_localize_pad hplain, hplain.2, literal,
    Text.cut_append_cons (IsoTimestamp.notMem_pad (by decide))]
  simp only [IsoTimestamp.number_pad]
  exact congrArg some (Nat.div_add_mod cents 100)

/-- A character number is the character's own, or there is no such character. -/
theorem toNat_ofNat_eq (n : ℕ) : (Char.ofNat n).toNat = n ∨ Char.ofNat n = Char.ofNat 0 := by
  by_cases hvalid : n.isValidChar
  · left
    rw [Char.ofNat, dif_pos hvalid]
    rfl
  · right
    rw [Char.ofNat, dif_neg hvalid]
    rfl

/-- The digits of other scripts are none of SQL's. -/
theorem localize_eq_false (hzero : 0x660 ≤ locale.zeroDigit.toNat) (c : Char) :
    (locale.localize c).isDigit = false ∧ locale.localize c ≠ '.' := by
  rw [Locale.localize]
  rcases toNat_ofNat_eq (c.toNat - '0'.toNat + locale.zeroDigit.toNat) with hnat | hnone
  · generalize Char.ofNat _ = digit at hnat ⊢
    constructor
    · simp only [Char.isDigit, Bool.and_eq_false_imp, decide_eq_true_iff, decide_eq_false_iff_not]
      intro _ hle
      have hle' : digit.toNat ≤ 57 := hle
      omega
    · rintro rfl
      have hpoint : '.'.toNat = 46 := rfl
      omega
  · rw [hnone]
    decide

/-- In any other locale the text is no number of SQL. -/
theorem literal_format_eq_none (hplain : ¬locale.Plain) (cents : ℕ) :
    literal ((Text.pad 1 (cents / 100)).map locale.localize ++
      locale.decimalSeparator :: (Text.pad 2 (cents % 100)).map locale.localize) = none := by
  have hpoint : ∀ width n, '.' ∉ (Text.pad width n).map locale.localize := by
    intro width n hmem
    obtain ⟨c, hc, hlocal⟩ := List.mem_map.mp hmem
    rcases locale.zeroDigit_spec with hascii | hzero
    · rw [localize_of_ascii hascii (IsoTimestamp.isDigit_of_mem_pad hc)] at hlocal
      exact IsoTimestamp.notMem_pad (by decide) (hlocal ▸ hc)
    · exact (localize_eq_false hzero c).2 hlocal
  rw [literal]
  by_cases hseparator : locale.decimalSeparator = '.'
  -- with a point it is the digits that are not read
  · have hzero : 0x660 ≤ locale.zeroDigit.toNat := by
      rcases locale.zeroDigit_spec with hzero | hzero
      · exact absurd ⟨hzero, hseparator⟩ hplain
      · exact hzero
    have hnumber : IsoTimestamp.number ((Text.pad 1 (cents / 100)).map locale.localize) = none := by
      obtain ⟨c, cs, hpad⟩ :=
        List.exists_cons_of_ne_nil (IsoTimestamp.pad_ne_nil 1 (cents / 100))
      rw [hpad, List.map_cons, IsoTimestamp.number, if_neg]
      rintro ⟨-, hall⟩
      rw [List.all_cons, (localize_eq_false hzero c).1] at hall
      cases hall
    rw [hseparator, Text.cut_append_cons (hpoint _ _)]
    simp only [hnumber]
    rfl
  · have hnotMem : '.' ∉ (Text.pad 1 (cents / 100)).map locale.localize ++
        locale.decimalSeparator :: (Text.pad 2 (cents % 100)).map locale.localize := by
      rw [List.mem_append, List.mem_cons]
      rintro (h | h | h)
      · exact hpoint _ _ h
      · exact hseparator h.symm
      · exact hpoint _ _ h
    rw [Text.cut_eq_none hnotMem]

/-- The text of a turnover adds the turnover, whatever its sign. -/
theorem summand_format (hplain : locale.Plain) (turnoverValue : ℤ) :
    summand (format locale turnoverValue) = .ok turnoverValue := by
  rw [format]
  split_ifs with hsign
  · have hneg : (-turnoverValue.natAbs : ℤ) = turnoverValue := by omega
    simp only [summand, literal_format hplain, hneg]
  · have hself : (turnoverValue.natAbs : ℤ) = turnoverValue := by omega
    simp only [summand, literal_format hplain, hself]

theorem summand_format_error (hplain : ¬locale.Plain) (turnoverValue : ℤ) :
    summand (format locale turnoverValue) = .error .badSqlGrammar := by
  rw [format]
  split_ifs <;> simp only [summand, literal_format_eq_none hplain]

end Statement

/-! ## The two ways -/

section TurnsOver

variable {locale : Locale} {customers : Table} {customerId turnoverValue : ℤ} {customer : Customer}
  {balance : Balance}

theorem setBalance_eq_ok {cents : ℤ} (hfits : cents.natAbs < 10 ^ 12) :
    CustomerDAOPg.setBalance customers customerId customer cents =
      .ok (true, Function.update customers customerId
        (some { customer with balance := some ⟨cents, hfits⟩ })) := by
  rw [CustomerDAOPg.setBalance, Balance.ofCents, dif_pos hfits]

/-- The statement, on a balance. -/
theorem doCustomerBalanceTurnover_eq (hplain : locale.Plain)
    (hrow : customers customerId = some customer) (hbalance : customer.balance = some balance) :
    CustomerService.doCustomerBalanceTurnover locale customers customerId turnoverValue =
      if 0 ≤ balance.cents + turnoverValue then
        CustomerDAOPg.setBalance customers customerId customer (balance.cents + turnoverValue)
      else .ok (false, customers) := by
  rw [CustomerService.doCustomerBalanceTurnover, CustomerDAOPg.doCustomerBalanceTurnover,
    summand_format hplain]
  simp only [hrow, hbalance]
  rfl

/-- The statement updates no row with a balance that is null. -/
theorem doCustomerBalanceTurnover_null (hplain : locale.Plain)
    (hrow : customers customerId = some customer) (hnull : customer.balance = none) :
    CustomerService.doCustomerBalanceTurnover locale customers customerId turnoverValue =
      .ok (false, customers) := by
  rw [CustomerService.doCustomerBalanceTurnover, CustomerDAOPg.doCustomerBalanceTurnover,
    summand_format hplain]
  simp only [hrow, hnull]
  rfl

/-- In a locale that SQL does not read, the statement throws, whatever the table holds. -/
theorem doCustomerBalanceTurnover_error (hplain : ¬locale.Plain) (customers : Table)
    (customerId turnoverValue : ℤ) :
    CustomerService.doCustomerBalanceTurnover locale customers customerId turnoverValue =
      .error .badSqlGrammar := by
  rw [CustomerService.doCustomerBalanceTurnover, CustomerDAOPg.doCustomerBalanceTurnover,
    summand_format_error hplain]
  rfl

/-- The other way takes off a turnover that is positive. -/
theorem updateCustomerBalanceConcurrencyProblem_eq (hrow : customers customerId = some customer)
    {newBalance : ℤ}
    (hnew : (if 0 < turnoverValue then (customer.balance.map Balance.cents).getD 0 - turnoverValue
      else (customer.balance.map Balance.cents).getD 0 + turnoverValue) = newBalance) :
    CustomerService.updateCustomerBalanceConcurrencyProblem customers customerId turnoverValue =
      if newBalance < 0 then .error .noBalanceAvailable
      else CustomerDAOPg.setBalance customers customerId customer newBalance := by
  rw [CustomerService.updateCustomerBalanceConcurrencyProblem]
  simp only [CustomerDAOPg.findCustomerById, CustomerDAOPg.updateCustomerBalance, hrow, bind,
    Except.bind, hnew]
  split_ifs <;> rfl

theorem turnsOver_doCustomerBalanceTurnover (hplain : locale.Plain)
    (hrow : customers customerId = some customer)
    (hfits : ∀ balance ∈ customer.balance, 0 ≤ balance.cents + turnoverValue →
      (balance.cents + turnoverValue).natAbs < 10 ^ 12) :
    TurnsOver customers customerId customer turnoverValue
      (CustomerService.doCustomerBalanceTurnover locale customers customerId turnoverValue) where
  covered balance hbalance hcovered := by
    refine ⟨⟨_, hfits balance hbalance hcovered⟩, rfl, ?_⟩
    rw [doCustomerBalanceTurnover_eq hplain hrow hbalance, if_pos hcovered]
    exact setBalance_eq_ok _
  refused hrefused := by
    left
    cases hbalance : customer.balance with
    | none => exact doCustomerBalanceTurnover_null hplain hrow hbalance
    | some balance =>
      rw [doCustomerBalanceTurnover_eq hplain hrow hbalance]
      exact if_neg (not_le.mpr (hrefused balance hbalance))

/-- In a locale that SQL does not read, the statement is right about what is not covered. -/
theorem turnsOver_doCustomerBalanceTurnover_error_iff (hplain : ¬locale.Plain) :
    TurnsOver customers customerId customer turnoverValue
        (CustomerService.doCustomerBalanceTurnover locale customers customerId turnoverValue) ↔
      ∀ balance ∈ customer.balance, balance.cents + turnoverValue < 0 := by
  have hthrows := doCustomerBalanceTurnover_error hplain customers customerId turnoverValue
  constructor
  · intro h balance hbalance
    by_contra hcovered
    obtain ⟨balance', -, hok⟩ := h.covered balance hbalance (not_lt.mp hcovered)
    cases hthrows.symm.trans hok
  · intro h
    constructor
    · intro balance hbalance hcovered
      exact absurd (h balance hbalance) (not_lt.mpr hcovered)
    · intro _
      exact Or.inr ⟨_, hthrows⟩

/-- On a balance, the other way is right about turnovers that are not positive or not covered. -/
theorem turnsOver_updateCustomerBalanceConcurrencyProblem_iff
    (hrow : customers customerId = some customer) (hbalance : customer.balance = some balance) :
    TurnsOver customers customerId customer turnoverValue
        (CustomerService.updateCustomerBalanceConcurrencyProblem customers customerId
          turnoverValue) ↔
      turnoverValue ≤ 0 ∨ balance.cents + turnoverValue < 0 := by
  have hfits := balance.fits
  constructor
  · intro h
    by_contra hnot
    push Not at hnot
    obtain ⟨hpositive, hcovered⟩ := hnot
    obtain ⟨balance', hcents, hok⟩ := h.covered balance hbalance hcovered
    -- a positive turnover has been taken off
    rw [updateCustomerBalanceConcurrencyProblem_eq hrow (if_pos hpositive), hbalance] at hok
    rw [CustomerDAOPg.setBalance, Balance.ofCents] at hok
    split_ifs at hok with hnegative hnew
    have htable := (Prod.mk.inj (Except.ok.inj hok)).2
    have hsame := congrFun htable customerId
    rw [Function.update_self, Function.update_self] at hsame
    have hstored := congrArg Balance.cents
      (Option.some.inj (congrArg Customer.balance (Option.some.inj hsame)))
    rw [hcents] at hstored
    simp only [Option.map_some, Option.getD_some] at hstored
    omega
  · intro h
    constructor
    · intro other hother hcovered
      obtain rfl : balance = other := Option.some.inj (hbalance.symm.trans hother)
      have hsign : ¬0 < turnoverValue := by omega
      refine ⟨⟨balance.cents + turnoverValue, by omega⟩, rfl, ?_⟩
      rw [updateCustomerBalanceConcurrencyProblem_eq hrow (if_neg hsign), hbalance, Option.map_some,
        Option.getD_some, if_neg (not_lt.mpr hcovered)]
      exact setBalance_eq_ok _
    · intro hrefused
      have hnegative := hrefused balance hbalance
      right
      by_cases hsign : 0 < turnoverValue
      · rw [updateCustomerBalanceConcurrencyProblem_eq hrow (if_pos hsign), hbalance,
          Option.map_some, Option.getD_some, if_pos (by omega)]
        exact ⟨_, rfl⟩
      · rw [updateCustomerBalanceConcurrencyProblem_eq hrow (if_neg hsign), hbalance,
          Option.map_some, Option.getD_some, if_pos (by omega)]
        exact ⟨_, rfl⟩

/-- A balance that is null is taken for zero, and is set to zero by a turnover of zero. -/
theorem turnsOver_updateCustomerBalanceConcurrencyProblem_null
    (hrow : customers customerId = some customer) (hnull : customer.balance = none) :
    TurnsOver customers customerId customer turnoverValue
        (CustomerService.updateCustomerBalanceConcurrencyProblem customers customerId
          turnoverValue) ↔
      turnoverValue ≠ 0 := by
  constructor
  · rintro h rfl
    have hwrites : CustomerService.updateCustomerBalanceConcurrencyProblem customers customerId 0 =
        .ok (true, Function.update customers customerId
          (some { customer with balance := some ⟨0, by decide⟩ })) := by
      rw [updateCustomerBalanceConcurrencyProblem_eq hrow (if_neg (lt_irrefl 0)), hnull,
        Option.map_none, Option.getD_none, add_zero, if_neg (lt_irrefl 0)]
      exact setBalance_eq_ok _
    rcases h.refused (by simp [hnull]) with hrefused | ⟨failure, hrefused⟩
    · cases hwrites.symm.trans hrefused
    · cases hwrites.symm.trans hrefused
  · intro hzero
    refine ⟨fun balance hbalance => by simp [hnull] at hbalance, fun _ => Or.inr ?_⟩
    by_cases hsign : 0 < turnoverValue
    · rw [updateCustomerBalanceConcurrencyProblem_eq hrow (if_pos hsign), hnull, Option.map_none,
        Option.getD_none, if_pos (by omega)]
      exact ⟨_, rfl⟩
    · rw [updateCustomerBalanceConcurrencyProblem_eq hrow (if_neg hsign), hnull, Option.map_none,
        Option.getD_none, if_pos (by omega)]
      exact ⟨_, rfl⟩

/-- Both ways make the turnovers right that are not covered, and in a locale that SQL reads those
that are not positive; and no others. -/
theorem turnsOver_iff (locale : Locale) (hrow : customers customerId = some customer)
    (turnoverValue : ℤ) :
    (TurnsOver customers customerId customer turnoverValue
        (CustomerService.doCustomerBalanceTurnover locale customers customerId turnoverValue) ∧
      TurnsOver customers customerId customer turnoverValue
        (CustomerService.updateCustomerBalanceConcurrencyProblem customers customerId
          turnoverValue)) ↔
      Agreeing locale customer turnoverValue := by
  rw [Agreeing]
  cases hbalance : customer.balance with
  | none =>
    rw [turnsOver_updateCustomerBalanceConcurrencyProblem_null hrow hbalance]
    apply and_iff_right
    by_cases hplain : locale.Plain
    · apply turnsOver_doCustomerBalanceTurnover hplain hrow
      simp [hbalance]
    · rw [turnsOver_doCustomerBalanceTurnover_error_iff hplain]
      simp [hbalance]
  | some balance =>
    rw [turnsOver_updateCustomerBalanceConcurrencyProblem_iff hrow hbalance]
    by_cases hplain : locale.Plain
    · simp only [hplain, and_true]
      apply and_iff_right_of_imp
      intro h
      apply turnsOver_doCustomerBalanceTurnover hplain hrow
      intro other hother hcovered
      obtain rfl : balance = other := Option.some.inj (hbalance.symm.trans hother)
      -- what a balance covers and does not grow by leaves one that fits as well
      have hfits := balance.fits
      omega
    · rw [turnsOver_doCustomerBalanceTurnover_error_iff hplain]
      simp only [hplain, and_false, false_or, hbalance, Option.mem_def, Option.some.injEq,
        forall_eq']
      exact and_iff_left_of_imp Or.inr

end TurnsOver

/-- One customer, with a balance of 100. -/
def mary : Customer :=
  { firstName := some "Mary".toList, lastName := some "Santos".toList,
    balance := some ⟨10000, by decide⟩ }

def onlyMary : Table := Function.update (fun _ => none) 1 (some mary)

theorem onlyMary_one : onlyMary 1 = some mary := rfl

namespace Locale

def english : Locale := ⟨'0', '.', .inl rfl, .inl rfl⟩

/-- Brazil writes a comma. -/
def ptBr : Locale := ⟨'0', ',', .inl rfl, .inr (.inl rfl)⟩

end Locale

/-- In English both ways withdraw 30, and in Brazil one of them does not. -/
theorem turnsOver_withdrawal :
    (TurnsOver onlyMary 1 mary (-3000)
        (CustomerService.doCustomerBalanceTurnover .english onlyMary 1 (-3000)) ∧
      TurnsOver onlyMary 1 mary (-3000)
        (CustomerService.updateCustomerBalanceConcurrencyProblem onlyMary 1 (-3000))) ∧
    ¬(TurnsOver onlyMary 1 mary (-3000)
        (CustomerService.doCustomerBalanceTurnover .ptBr onlyMary 1 (-3000)) ∧
      TurnsOver onlyMary 1 mary (-3000)
        (CustomerService.updateCustomerBalanceConcurrencyProblem onlyMary 1 (-3000))) := by
  rw [turnsOver_iff .english onlyMary_one, turnsOver_iff .ptBr onlyMary_one]
  simp only [Agreeing, mary]
  decide

/-- A deposit of 50 is taken off by the second one. -/
theorem not_turnsOver_deposit :
    ¬∀ (customers : Table) (customerId : ℤ) (customer : Customer) (turnoverValue : ℤ),
      customers customerId = some customer →
      TurnsOver customers customerId customer turnoverValue
          (CustomerService.doCustomerBalanceTurnover .english customers customerId
            turnoverValue) ∧
        TurnsOver customers customerId customer turnoverValue
          (CustomerService.updateCustomerBalanceConcurrencyProblem customers customerId
            turnoverValue) := by
  intro h
  have hright := (turnsOver_updateCustomerBalanceConcurrencyProblem_iff onlyMary_one rfl).mp
    (h onlyMary 1 mary 5000 onlyMary_one).2
  revert hright
  decide

end Customers
