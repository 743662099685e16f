import Mathlib.Data.List.AList
import Mathlib.Data.Rat.Floor
import Mathlib.Logic.Function.Basic
import JavaExamples.Common.Text

/-!
# The sharded balance store

Two databases `r1` and `r2` with the tables CUSTOMER_BALANCE and CUSTOMER_REGION. Every statement on
a customer goes to the one database that `RegionDiscoverAlgorithm.doSharding` chooses at that
moment: the customer's region if one is recorded, a hash of the customer's id otherwise.

* `perform`: one call of a service, which fails or changes the databases.
* `perform_cases`: a call that succeeds writes one balance on the chosen shard or one new region.
-/

namespace Sharding

/-- `java.util.UUID`. -/
structure UUID where
  mostSigBits : BitVec 64
  leastSigBits : BitVec 64
deriving DecidableEq

/-- `UUID.hashCode()`, an `int`. -/
def UUID.hashCode (id : UUID) : BitVec 32 :=
  let hilo := id.mostSigBits ^^^ id.leastSigBits
  (hilo.sshiftRight 32).truncate 32 ^^^ hilo.truncate 32

/-- The two data sources. -/
inductive Shard where
  | r1
  | r2
deriving DecidableEq

def Shard.name : Shard → Text
  | .r1 => "r1".toList
  | .r2 => "r2".toList

/-- What the sharding algorithm may choose from. -/
def availableTargetNames : List Text := [Shard.r1.name, Shard.r2.name]

/-- Why a call fails; its transaction is rolled back. -/
inductive Failure where
  /-- "Não foi possível determinar o shard para o UUID: " customerId -/
  | undeterminedShard (customerId : UUID)
  | unknownTarget (name : Text)
  | uniqueViolation
  | notNullViolation
  | numericOverflow
  | invalidText
  /-- "Failed to debt customerId=%s, debtAmount=%s" -/
  | debt (customerId : UUID) (amount : ℚ)
  /-- "Failed to credit customerId=%s, debtAmount=%s" -/
  | credit (customerId : UUID) (amount : ℚ)
  /-- "invalid amount: " amount -/
  | invalidAmount (amount : ℚ)

/-- The tables of one database, by customer. Both have at most one row for each: COD_CUSTOMER is
unique in CUSTOMER_BALANCE, and the customer's id is the primary key of CUSTOMER_REGION. Balances
are in hundredths. -/
structure Tables where
  customerBalance : AList fun _ : UUID => ℤ
  customerRegion : AList fun _ : UUID => Text

abbrev Database := Shard → Tables

/-- Both databases empty. -/
def Database.empty : Database := fun _ => { customerBalance := ∅, customerRegion := ∅ }

/-! ## Column types -/

/-- A value stored as NUMERIC(20, 2), in hundredths: rounded half away from zero, and refused from
`10 ^ 18` on. -/
def toNumeric (value : ℚ) : Option ℤ :=
  let cents := if 0 ≤ value then (value * 100 + 1 / 2).floor else -(-value * 100 + 1 / 2).floor
  if cents.natAbs < 10 ^ 20 then some cents else none

/-- A value stored as VARCHAR(10): only spaces may be cut off, and the null character is refused. -/
def toVarchar10 (value : Text) : Option Text :=
  if Char.ofNat 0 ∈ value then none
  else if (value.drop 10).all (· = ' ') then some (value.take 10)
  else none

/-! ## Routing -/

/-- The logical table names of the statements. -/
inductive LogicTable where
  | customerBalance
  | customerRegion
deriving DecidableEq

namespace CustomerRegionService

/-- Reads CUSTOMER_REGION, which `doSharding` keeps on `r1`. -/
def findRegionNameByCustomerId (db : Database) (customerId : UUID) : Option Text :=
  (db .r1).customerRegion.lookup customerId

end CustomerRegionService

namespace RegionDiscoverAlgorithm

/-- `Math.abs(customerId.hashCode()) % availableTargetNames.size()` in `int` arithmetic. -/
def index (customerId : UUID) (size : ℕ) : ℤ :=
  -- like `Math.abs`, `BitVec.abs` leaves the least number as it is, and the remainder has its sign
  (customerId.hashCode.abs.srem (BitVec.ofNat 32 size)).toInt

/-- The target for a statement on `customerId`; `List.get` throws outside of its range. -/
def doSharding (db : Database) (availableTargetNames : List Text) (table : LogicTable)
    (customerId : UUID) : Except Failure Text :=
  if table = .customerRegion then .ok Shard.r1.name
  else
    let byHash : Except Failure Text :=
      let index := index customerId availableTargetNames.length
      if index < 0 then .error (.undeterminedShard customerId)
      else
        match availableTargetNames[index.toNat]? with
        | some region => .ok region
        | none => .error (.undeterminedShard customerId)
    match CustomerRegionService.findRegionNameByCustomerId db customerId with
    | none => byHash
    | some regionName => if Text.isBlank regionName then byHash else .ok regionName

end RegionDiscoverAlgorithm

/-- The data source of a chosen target; other targets than the available ones are refused. -/
def Shard.resolve (name : Text) : Except Failure Shard :=
  if name = Shard.r1.name then .ok .r1
  else if name = Shard.r2.name then .ok .r2
  else .error (.unknownTarget name)

/-- The database a statement on `customerId` is executed on. -/
def route (db : Database) (table : LogicTable) (customerId : UUID) : Except Failure Shard :=
  RegionDiscoverAlgorithm.doSharding db availableTargetNames table customerId >>= Shard.resolve

/-! ## Statements -/

/-- The balance row of `customerId` on `shard` is inserted or replaced. -/
def Database.putBalance (db : Database) (shard : Shard) (customerId : UUID) (cents : ℤ) :
    Database :=
  Function.update db shard
    { db shard with customerBalance := (db shard).customerBalance.insert customerId cents }

/-- The region row of `customerId` on `shard` is inserted or replaced. -/
def Database.putRegion (db : Database) (shard : Shard) (customerId : UUID) (name : Text) :
    Database :=
  Function.update db shard
    { db shard with customerRegion := (db shard).customerRegion.insert customerId name }

namespace CustomerBalanceRepositoryImpl

/-- `persist` of a new balance. -/
def create (db : Database) (customerId : UUID) (initialAmount : ℚ) : Except Failure Database := do
  let shard ← route db .customerBalance customerId
  match toNumeric initialAmount with
  | none => .error .numericOverflow
  | some cents =>
    if customerId ∈ (db shard).customerBalance then .error .uniqueViolation
    else .ok (db.putBalance shard customerId cents)

/-- `UPDATE CUSTOMER_BALANCE SET NUM_BALANCE = newBalance WHERE COD_CUSTOMER = :customerId AND
guard`, which has to update one row. -/
def update (guard : ℚ → Bool) (newBalance : ℚ → ℚ) (failure : Failure) (db : Database)
    (customerId : UUID) : Except Failure Database := do
  let shard ← route db .customerBalance customerId
  match (db shard).customerBalance.lookup customerId with
  | none => .error failure
  | some cents =>
    if guard (cents / 100) then
      match toNumeric (newBalance (cents / 100)) with
      | none => .error .numericOverflow
      | some cents => .ok (db.putBalance shard customerId cents)
    else .error failure

def debt (db : Database) (customerId : UUID) (amount : ℚ) : Except Failure Database :=
  update (fun balance => 0 ≤ balance - amount) (· - amount) (.debt customerId amount) db customerId

def credit (db : Database) (customerId : UUID) (amount : ℚ) : Except Failure Database :=
  update (fun _ => true) (· + amount) (.credit customerId amount) db customerId

end CustomerBalanceRepositoryImpl

namespace CustomerBalanceService

def debt (db : Database) (customerId : UUID) (amount : ℚ) : Except Failure Database :=
  CustomerBalanceRepositoryImpl.debt db customerId amount

def credit (db : Database) (customerId : UUID) (amount : ℚ) : Except Failure Database :=
  CustomerBalanceRepositoryImpl.credit db customerId amount

/-- The overload without an amount passes zero. -/
def createAccount (db : Database) (customerId : UUID) (initialAmount : ℚ) :
    Except Failure Database :=
  CustomerBalanceRepositoryImpl.create db customerId initialAmount

/-- Credits a positive amount, debts the absolute value of a negative one. -/
def changeBalance (db : Database) (customerId : UUID) (amount : ℚ) : Except Failure Database :=
  if 0 < amount then credit db customerId amount
  else if amount < 0 then debt db customerId (-amount)
  else .error (.invalidAmount amount)

end CustomerBalanceService

namespace CustomerRegionService

/-- Inserts the region of a customer, whose id is the row's primary key; `none` is `null`. -/
def create (db : Database) (customerId : UUID) (region : Option Text) :
    Except Failure Database := do
  let shard ← route db .customerRegion customerId
  match region with
  | none => .error .notNullViolation
  | some region =>
    match toVarchar10 region with
    | none => .error .invalidText
    | some name =>
      if customerId ∈ (db shard).customerRegion then .error .uniqueViolation
      else .ok (db.putRegion shard customerId name)

end CustomerRegionService

/-- A call of one of the two services. -/
inductive Operation where
  | createAccount (customerId : UUID) (initialAmount : ℚ)
  | debt (customerId : UUID) (amount : ℚ)
  | credit (customerId : UUID) (amount : ℚ)
  | changeBalance (customerId : UUID) (amount : ℚ)
  | createRegion (customerId : UUID) (region : Option Text)

def perform (db : Database) : Operation → Except Failure Database
  | .createAccount customerId initialAmount =>
    CustomerBalanceService.createAccount db customerId initialAmount
  | .debt customerId amount => CustomerBalanceService.debt db customerId amount
  | .credit customerId amount => CustomerBalanceService.credit db customerId amount
  | .changeBalance customerId amount => CustomerBalanceService.changeBalance db customerId amount
  | .createRegion customerId region => CustomerRegionService.create db customerId region

/-! ## What a call can do -/

section Statements

variable {db db' : Database} {customerId : UUID}

/-- CUSTOMER_REGION is always on `r1`. -/
theorem route_customerRegion : route db .customerRegion customerId = .ok .r1 := rfl

/-- `create` adds a row on the chosen shard, where there was none. -/
theorem create_ok {initialAmount : ℚ}
    (h : CustomerBalanceRepositoryImpl.create db customerId initialAmount = .ok db') :
    ∃ shard cents, route db .customerBalance customerId = .ok shard ∧
      customerId ∉ (db shard).customerBalance ∧ toNumeric initialAmount = some cents ∧
      db' = db.putBalance shard customerId cents := by
  rw [CustomerBalanceRepositoryImpl.create] at h
  cases hroute : route db .customerBalance customerId with
  | error failure => simp [hroute, bind, Except.bind] at h
  | ok shard =>
    simp only [hroute, bind, Except.bind] at h
    -- the amount is checked before the row
    split at h
    · cases h
    · next cents hcents =>
      split_ifs at h with hmem
      exact ⟨shard, cents, rfl, hmem, hcents, (Except.ok.inj h).symm⟩

/-- `update` changes a row on the chosen shard that satisfies the guard. -/
theorem update_ok {guard : ℚ → Bool} {newBalance : ℚ → ℚ} {failure : Failure}
    (h : CustomerBalanceRepositoryImpl.update guard newBalance failure db customerId = .ok db') :
    ∃ shard cents cents', route db .customerBalance customerId = .ok shard ∧
      (db shard).customerBalance.lookup customerId = some cents ∧ guard (cents / 100) ∧
      toNumeric (newBalance (cents / 100)) = some cents' ∧
      db' = db.putBalance shard customerId cents' := by
  rw [CustomerBalanceRepositoryImpl.update] at h
  cases hroute : route db .customerBalance customerId with
  | error failure => simp [hroute, bind, Except.bind] at h
  | ok shard =>
    simp only [hroute, bind, Except.bind] at h
    -- no row on the chosen shard, or one that the guard refuses, fails the call
    split at h
    · cases h
    · next cents hcents =>
      split_ifs at h with hguard
      split at h
      · cases h
      · next cents' hcents' =>
        exact ⟨shard, cents, cents', rfl, hcents, hguard, hcents', (Except.ok.inj h).symm⟩

/-- A debt leaves at least zero. -/
theorem debt_ok {amount : ℚ} (h : CustomerBalanceService.debt db customerId amount = .ok db') :
    ∃ shard cents cents', route db .customerBalance customerId = .ok shard ∧
      (db shard).customerBalance.lookup customerId = some cents ∧ 0 ≤ (cents : ℚ) / 100 - amount ∧
      toNumeric (cents / 100 - amount) = some cents' ∧
      db' = db.putBalance shard customerId cents' := by
  rw [CustomerBalanceService.debt, CustomerBalanceRepositoryImpl.debt] at h
  obtain ⟨shard, cents, cents', hroute, hcents, hguard, hcents', hdb⟩ := update_ok h
  exact ⟨shard, cents, cents', hroute, hcents, of_decide_eq_true hguard, hcents', hdb⟩

/-- A credit has no guard. -/
theorem credit_ok {amount : ℚ} (h : CustomerBalanceService.credit db customerId amount = .ok db') :
    ∃ shard cents cents', route db .customerBalance customerId = .ok shard ∧
      (db shard).customerBalance.lookup customerId = some cents ∧
      toNumeric (cents / 100 + amount) = some cents' ∧
      db' = db.putBalance shard customerId cents' := by
  rw [CustomerBalanceService.credit, CustomerBalanceRepositoryImpl.credit] at h
  obtain ⟨shard, cents, cents', hroute, hcents, -, hcents', hdb⟩ := update_ok h
  exact ⟨shard, cents, cents', hroute, hcents, hcents', hdb⟩

/-- `CustomerRegionService.create` succeeds for a region that fits the column and a customer who had
none, and records it. -/
theorem createRegion_eq_ok {region : Option Text} :
    CustomerRegionService.create db customerId region = .ok db' ↔
      ∃ name, region.bind toVarchar10 = some name ∧
        CustomerRegionService.findRegionNameByCustomerId db customerId = none ∧
        db' = db.putRegion .r1 customerId name := by
  rw [CustomerRegionService.create, route_customerRegion,
    CustomerRegionService.findRegionNameByCustomerId, AList.lookup_eq_none]
  -- a null region, one that does not fit and a recorded one all fail
  cases region with
  | none => simp [bind, Except.bind]
  | some region =>
    cases hname : toVarchar10 region with
    | none => simp [bind, Except.bind, hname]
    | some name =>
      by_cases hmem : customerId ∈ (db .r1).customerRegion
      · simp [bind, Except.bind, hname, hmem]
      · simp [bind, Except.bind, hname, hmem, eq_comm]

/-- A successful call writes a balance on the shard chosen for its customer, or records the region
of a customer who had none. -/
theorem perform_cases {op : Operation} (h : perform db op = .ok db') :
    (∃ customerId shard cents, (∀ other region, op ≠ .createRegion other region) ∧
      route db .customerBalance customerId = .ok shard ∧
      db' = db.putBalance shard customerId cents) ∨
    (∃ customerId region name, op = .createRegion customerId region ∧
      region.bind toVarchar10 = some name ∧
      CustomerRegionService.findRegionNameByCustomerId db customerId = none ∧
      db' = db.putRegion .r1 customerId name) := by
  cases op with
  | createAccount customerId initialAmount =>
    obtain ⟨shard, cents, hroute, -, -, hdb⟩ := create_ok h
    exact Or.inl ⟨customerId, shard, cents, by simp, hroute, hdb⟩
  | debt customerId amount =>
    obtain ⟨shard, -, cents, hroute, -, -, -, hdb⟩ := debt_ok h
    exact Or.inl ⟨customerId, shard, cents, by simp, hroute, hdb⟩
  | credit customerId amount =>
    obtain ⟨shard, -, cents, hroute, -, -, hdb⟩ := credit_ok h
    exact Or.inl ⟨customerId, shard, cents, by simp, hroute, hdb⟩
  | changeBalance customerId amount =>
    rw [perform, CustomerBalanceService.changeBalance] at h
    -- an amount of zero is refused
    split_ifs at h with hpos hneg
    · obtain ⟨shard, -, cents, hroute, -, -, hdb⟩ := credit_ok h
      exact Or.inl ⟨customerId, shard, cents, by simp, hroute, hdb⟩
    · obtain ⟨shard, -, cents, hroute, -, -, -, hdb⟩ := debt_ok h
      exact Or.inl ⟨customerId, shard, cents, by simp, hroute, hdb⟩
  | createRegion customerId region =>
    obtain ⟨name, hname, hnone, hdb⟩ := createRegion_eq_ok.mp h
    exact Or.inr ⟨customerId, region, name, rfl, hname, hnone, hdb⟩

end Statements

end Sharding
