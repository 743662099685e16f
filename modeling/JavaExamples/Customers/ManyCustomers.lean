import JavaExamples.Common.Transactions
import JavaExamples.Customers.BalanceTurnover

/-!
# Creating many customers

`ManyCustomersService` inserts a list of customers into the table `customers`, whose `first_name` is
unique, in three ways: all of them in one transaction, each of them after a savepoint of one
transaction, and each of them in a transaction of its own. A method is run in a transaction when it
is called through the proxy of its service (`Proxy`), and without when the service calls itself.

Ids are left out.

* `createMany_rows`: the last two ways insert the same customers, the first one all of them or none.
* `notTransactional_throws`: a fourth way, without transactions, creates nobody.
-/

namespace Customers

open Program Transactions

structure CustomerEntity where
  firstName : Option Text
  lastName : Option Text

/-- The rows of `customers`. A null is not a name. -/
structure Rows where
  rows : List Customer
  unique : (rows.filterMap Customer.firstName).Nodup

def Rows.names (table : Rows) : List Text := table.rows.filterMap Customer.firstName

inductive CreateFailure where
  | duplicateKey
  | dataIntegrityViolation

/-- Whether a VARCHAR(255) holds the text. -/
def storable (text : Option Text) : Bool :=
  text.all fun t => t.length ≤ 255 && !t.contains (Char.ofNat 0)

/-- The row that is inserted for a customer. -/
def CustomerEntity.row (customer : CustomerEntity) : Customer :=
  { firstName := customer.firstName, lastName := customer.lastName,
    balance := some ⟨0, by decide⟩ }

theorem names_append (rows : List Customer) (row : Customer) :
    (rows ++ [row]).filterMap Customer.firstName =
      rows.filterMap Customer.firstName ++ row.firstName.toList := by
  rw [List.filterMap_append]
  cases hname : row.firstName <;> simp [hname]

def Rows.insert (table : Rows) (row : Customer)
    (hnew : ∀ name ∈ row.firstName, name ∉ table.names) : Rows where
  rows := table.rows ++ [row]
  unique := by
    rw [names_append, List.nodup_append]
    refine ⟨table.unique, ?_, fun name hname other hother => ?_⟩
    · cases row.firstName <;> simp
    · rintro rfl
      exact hnew name (Option.mem_toList.mp hother) hname

/-- `INSERT INTO customers (first_name, last_name, balance) VALUES (?, ?, 0)`. -/
def CustomerDAOPg.create (customer : CustomerEntity) (table : Rows) : Except CreateFailure Rows :=
  if !(storable customer.firstName && storable customer.lastName) then
    .error .dataIntegrityViolation
  else if hnew : ∀ name ∈ customer.row.firstName, name ∉ table.names then
    .ok (table.insert customer.row hnew)
  else .error .duplicateKey

/-! ## The services -/

abbrev Creation := Transactional Rows CreateFailure Unit

/-- Every exception rolls back. -/
def rollbackForAll : NoRollbackFor CreateFailure := fun _ => false

theorem rollbackForAll_duplicateKey : rollbackForAll (.application .duplicateKey) = false := rfl

/-- `noRollbackFor = DuplicateKeyException.class`. -/
def noRollbackForDuplicateKey : NoRollbackFor CreateFailure
  | .application .duplicateKey => true
  | _ => false

namespace CustomerService

def createCustomer (customer : CustomerEntity) : Creation :=
  execute (CustomerDAOPg.create customer)

def createCustomerWithoutFail (customer : CustomerEntity) : Creation :=
  execute (CustomerDAOPg.create customer)

def createCustomerWithoutFailNested (customer : CustomerEntity) : Creation :=
  execute (CustomerDAOPg.create customer)

def createCustomerWithoutFailMandatory (customer : CustomerEntity) : Creation :=
  createCustomerWithoutFail customer

namespace Proxy

def createCustomer (customer : CustomerEntity) : Creation :=
  transactional .required rollbackForAll (CustomerService.createCustomer customer)

def createCustomerWithoutFail (customer : CustomerEntity) : Creation :=
  transactional .required noRollbackForDuplicateKey
    (CustomerService.createCustomerWithoutFail customer)

def createCustomerWithoutFailNested (customer : CustomerEntity) : Creation :=
  transactional .nested rollbackForAll (CustomerService.createCustomerWithoutFailNested customer)

def createCustomerWithoutFailMandatory (customer : CustomerEntity) : Creation :=
  transactional .mandatory rollbackForAll
    (CustomerService.createCustomerWithoutFailMandatory customer)

end Proxy

end CustomerService

namespace ManyCustomersService

/-- `try { ... } catch (final DuplicateKeyException e) { ... }`. -/
def catchDuplicateKey (body : Creation) : Creation :=
  tryCatch body fun
    | .application .duplicateKey => return ()
    | e => throw e

def createCustomers (customerEntities : List CustomerEntity) : Creation :=
  forM customerEntities CustomerService.Proxy.createCustomer

def createCustomersWithoutFail (customerEntities : List CustomerEntity) : Creation :=
  forM customerEntities fun customerEntity =>
    catchDuplicateKey (CustomerService.Proxy.createCustomerWithoutFailNested customerEntity)

def createCustomerWithoutFailRequiresNew (customer : CustomerEntity) : Creation :=
  CustomerService.Proxy.createCustomerWithoutFailMandatory customer

def createCustomersWithoutFailNotTransactional (customerEntities : List CustomerEntity) :
    Creation :=
  forM customerEntities fun customerEntity =>
    catchDuplicateKey (createCustomerWithoutFailRequiresNew customerEntity)

def createCustomersWithoutFailNotTransactionalProxyFix (customerEntities : List CustomerEntity) :
    Creation :=
  forM customerEntities fun customerEntity =>
    -- `template.execute`
    catchDuplicateKey (transactional .required rollbackForAll
      (createCustomerWithoutFailRequiresNew customerEntity))

namespace Proxy

def createCustomers (customerEntities : List CustomerEntity) : Creation :=
  transactional .required rollbackForAll (ManyCustomersService.createCustomers customerEntities)

def createCustomersWithoutFail (customerEntities : List CustomerEntity) : Creation :=
  transactional .required rollbackForAll
    (ManyCustomersService.createCustomersWithoutFail customerEntities)

def createCustomersWithoutFailNotTransactional (customerEntities : List CustomerEntity) :
    Creation :=
  transactional .notSupported rollbackForAll
    (ManyCustomersService.createCustomersWithoutFailNotTransactional customerEntities)

def createCustomerWithoutFailRequiresNew (customer : CustomerEntity) : Creation :=
  transactional .requiresNew rollbackForAll
    (ManyCustomersService.createCustomerWithoutFailRequiresNew customer)

def createCustomersWithoutFailNotTransactionalProxyFix (customerEntities : List CustomerEntity) :
    Creation :=
  transactional .notSupported rollbackForAll
    (ManyCustomersService.createCustomersWithoutFailNotTransactionalProxyFix customerEntities)

end Proxy

end ManyCustomersService

/-! ## Inserting those that are new -/

/-- The customers whose name is neither one of `names` nor that of a customer before. -/
def firstOccurrences (names : List Text) : List CustomerEntity → List CustomerEntity
  | [] => []
  | customer :: customers =>
    let others := firstOccurrences (names ++ customer.firstName.toList) customers
    if ∀ name ∈ customer.firstName, name ∉ names then customer :: others else others

/-- No name is duplicated or present. -/
def AllNew (table : Rows) (customers : List CustomerEntity) : Prop :=
  (customers.filterMap CustomerEntity.firstName).Nodup ∧
    ∀ name ∈ customers.filterMap CustomerEntity.firstName, name ∉ table.names

/-- Inserting the customer can only fail because of its name. -/
def FailsOnlyOnDuplicates (customer : CustomerEntity) : Prop :=
  ∀ table failure, CustomerDAOPg.create customer table = .error failure → failure = .duplicateKey

/-- The table with the customer, if there is none of its name. -/
def Rows.createIfNew (table : Rows) (customer : CustomerEntity) : Rows :=
  (CustomerDAOPg.create customer table).toOption.getD table

section Steps

variable {customer : CustomerEntity} {table table' : Rows}

theorem create_cases (hfails : FailsOnlyOnDuplicates customer) (table : Rows) :
    (∃ hnew, CustomerDAOPg.create customer table = .ok (table.insert customer.row hnew)) ∨
      (¬∀ name ∈ customer.firstName, name ∉ table.names) ∧
        CustomerDAOPg.create customer table = .error .duplicateKey := by
  have hcases := hfails table
  rw [CustomerDAOPg.create] at hcases ⊢
  split_ifs with hstorable hnew
  · rw [if_pos hstorable] at hcases
    cases hcases _ rfl
  · exact Or.inl ⟨hnew, rfl⟩
  · exact Or.inr ⟨hnew, rfl⟩

/-- A customer is created after a savepoint or not at all, and the transaction goes on. -/
theorem createCustomerWithoutFailNested_returns (hfails : FailsOnlyOnDuplicates customer)
    {s : Rows} {db : Db Rows} (hdb : Within s table false false db) :
    ∃ db', Returns (ManyCustomersService.catchDuplicateKey
        (CustomerService.Proxy.createCustomerWithoutFailNested customer)) db () db' ∧
      Within s (table.createIfNew customer) false false db' := by
  rw [Rows.createIfNew]
  rcases create_cases hfails table with ⟨hnew, hok⟩ | ⟨-, herror⟩
  · obtain ⟨db', hexecute, hdb'⟩ := hdb.execute_returns hok
    refine ⟨db', (hdb.nested_returns hexecute hdb').tryCatch _, ?_⟩
    rwa [hok]
  · obtain ⟨db', hexecute, hdb'⟩ := hdb.execute_throws herror
    obtain ⟨db'', hnested, hdb''⟩ := hdb.nested_throws hexecute hdb' rollbackForAll_duplicateKey
    refine ⟨db'', hnested.tryCatch_returns (Returns.pure () db''), ?_⟩
    rwa [herror]

/-- A customer is created in a transaction of its own or not at all. -/
theorem createCustomerWithoutFailRequiresNew_returns (hfails : FailsOnlyOnDuplicates customer)
    (table : Rows) :
    Returns (ManyCustomersService.catchDuplicateKey (transactional .required rollbackForAll
      (ManyCustomersService.createCustomerWithoutFailRequiresNew customer))) (idle table) ()
      (idle (table.createIfNew customer)) := by
  have hdb := within_new table
  rw [Rows.createIfNew]
  rcases create_cases hfails table with ⟨hnew, hok⟩ | ⟨-, herror⟩
  · obtain ⟨db', hexecute, hdb'⟩ := hdb.execute_returns hok
    rw [hok]
    exact (returns_required (hdb.joined_returns (Or.inr rfl) hexecute) hdb').tryCatch _
  · obtain ⟨db', hexecute, hdb'⟩ := hdb.execute_throws herror
    obtain ⟨db'', hjoined, hdb''⟩ :=
      hdb.joined_throws (Or.inr rfl) hexecute hdb' rollbackForAll_duplicateKey
    rw [herror]
    exact (throws_required hjoined hdb''.committed rfl).tryCatch_returns (Returns.pure () _)

/-- A customer who cannot be created spoils the transaction. -/
theorem createCustomer_throws {s : Rows} {db : Db Rows} (hdb : Within s table false false db)
    (herror : CustomerDAOPg.create customer table = .error .duplicateKey) :
    ∃ db', Throws (CustomerService.Proxy.createCustomer customer) db (.application .duplicateKey)
      db' ∧ Within s table true true db' := by
  obtain ⟨db', hexecute, hdb'⟩ := hdb.execute_throws herror
  exact hdb.joined_throws (Or.inl rfl) hexecute hdb' rfl

end Steps

/-! ## The loops -/

section Loops

variable {customers : List CustomerEntity}

/-- After savepoints, every customer who is new is in what the transaction sees. -/
theorem createCustomersWithoutFail_returns
    (hfails : ∀ customer ∈ customers, FailsOnlyOnDuplicates customer) {s table : Rows}
    {db : Db Rows} (hdb : Within s table false false db) :
    ∃ db', Returns (ManyCustomersService.createCustomersWithoutFail customers) db () db' ∧
      Within s (customers.foldl Rows.createIfNew table) false false db' := by
  induction customers generalizing table db with
  | nil => exact ⟨db, Returns.pure () db, hdb⟩
  | cons customer customers ih =>
    obtain ⟨hcustomer, hcustomers⟩ := List.forall_mem_cons.mp hfails
    obtain ⟨db', hfirst, hdb'⟩ := createCustomerWithoutFailNested_returns hcustomer hdb
    obtain ⟨db'', hrest, hdb''⟩ := ih hcustomers hdb'
    rw [ManyCustomersService.createCustomersWithoutFail, List.forM_cons]
    exact ⟨db'', hfirst.bind hrest, hdb''⟩

/-- In transactions of their own, every customer who is new is committed. -/
theorem createCustomersWithoutFailNotTransactionalProxyFix_returns
    (hfails : ∀ customer ∈ customers, FailsOnlyOnDuplicates customer) (table : Rows) :
    Returns (ManyCustomersService.createCustomersWithoutFailNotTransactionalProxyFix customers)
      (idle table) () (idle (customers.foldl Rows.createIfNew table)) := by
  induction customers generalizing table with
  | nil => exact Returns.pure () _
  | cons customer customers ih =>
    obtain ⟨hcustomer, hcustomers⟩ := List.forall_mem_cons.mp hfails
    rw [ManyCustomersService.createCustomersWithoutFailNotTransactionalProxyFix, List.forM_cons]
    exact (createCustomerWithoutFailRequiresNew_returns hcustomer table).bind (ih hcustomers _)

theorem allNew_iff {table : Rows} :
    AllNew table customers ↔
      ((table.rows ++ customers.map CustomerEntity.row).filterMap Customer.firstName).Nodup := by
  have hnames : (customers.map CustomerEntity.row).filterMap Customer.firstName =
      customers.filterMap CustomerEntity.firstName := by
    rw [List.filterMap_map]
    rfl
  rw [List.filterMap_append, hnames, List.nodup_append]
  constructor
  · rintro ⟨hnodup, hnew⟩
    refine ⟨table.unique, hnodup, fun name hname other hother => ?_⟩
    rintro rfl
    exact hnew name hother hname
  · rintro ⟨-, hnodup, hnew⟩
    exact ⟨hnodup, fun name hname hother => hnew name hother name hname rfl⟩

/-- Without savepoints all customers are created, or one is not new and the transaction is lost. -/
theorem createCustomers_cases
    (hfails : ∀ customer ∈ customers, FailsOnlyOnDuplicates customer) {s table : Rows}
    {db : Db Rows} (hdb : Within s table false false db) :
    (∃ all db', all.rows = table.rows ++ customers.map CustomerEntity.row ∧
        Returns (ManyCustomersService.createCustomers customers) db () db' ∧
        Within s all false false db') ∨
      (¬AllNew table customers ∧ ∃ db',
        Throws (ManyCustomersService.createCustomers customers) db (.application .duplicateKey)
          db' ∧ db'.committed = s) := by
  induction customers generalizing table db with
  | nil => exact Or.inl ⟨table, db, by simp, Returns.pure () db, hdb⟩
  | cons customer customers ih =>
    obtain ⟨hcustomer, hcustomers⟩ := List.forall_mem_cons.mp hfails
    rw [ManyCustomersService.createCustomers, List.forM_cons]
    rcases create_cases hcustomer table with ⟨hnew, hok⟩ | ⟨hpresent, herror⟩
    · obtain ⟨db', hexecute, hdb'⟩ := hdb.execute_returns hok
      have hfirst : Returns (CustomerService.Proxy.createCustomer customer) db () db' :=
        hdb.joined_returns (Or.inl rfl) hexecute
      have happend : (table.insert customer.row hnew).rows ++ customers.map CustomerEntity.row =
          table.rows ++ (customer :: customers).map CustomerEntity.row := by
        simp [Rows.insert]
      rcases ih hcustomers hdb' with
        ⟨all, db'', hrows, hrest, hdb''⟩ | ⟨hnotNew, db'', hrest, hdb''⟩
      · exact Or.inl ⟨all, db'', hrows.trans happend, hfirst.bind hrest, hdb''⟩
      · rw [allNew_iff, happend, ← allNew_iff] at hnotNew
        exact Or.inr ⟨hnotNew, db'', hfirst.bind_throws hrest, hdb''⟩
    · obtain ⟨db', hfirst, hdb'⟩ := createCustomer_throws hdb herror
      refine Or.inr ⟨fun hallNew => hpresent fun name hname => ?_, db', hfirst.bind _,
        hdb'.committed⟩
      exact hallNew.2 name (List.mem_filterMap.mpr ⟨customer, List.mem_cons_self, hname⟩)

/-- Those who are created if they are new are the first ones of their names. -/
theorem foldl_createIfNew (hfails : ∀ customer ∈ customers, FailsOnlyOnDuplicates customer)
    {table : Rows} {names : List Text} (hnames : ∀ name, name ∈ names ↔ name ∈ table.names) :
    (customers.foldl Rows.createIfNew table).rows =
      table.rows ++ (firstOccurrences names customers).map CustomerEntity.row := by
  induction customers generalizing table names with
  | nil => simp [firstOccurrences]
  | cons customer customers ih =>
    obtain ⟨hcustomer, hcustomers⟩ := List.forall_mem_cons.mp hfails
    have hsame : (∀ name ∈ customer.firstName, name ∉ names) ↔
        ∀ name ∈ customer.firstName, name ∉ table.names := by
      simp only [hnames]
    rw [List.foldl_cons, firstOccurrences, Rows.createIfNew]
    rcases create_cases hcustomer table with ⟨hnew, hok⟩ | ⟨hpresent, herror⟩
    · have hnames' : ∀ name, name ∈ names ++ customer.firstName.toList ↔
          name ∈ (table.insert customer.row hnew).names := by
        intro name
        rw [Rows.names, Rows.insert, names_append, List.mem_append, List.mem_append, hnames]
        rfl
      rw [if_pos (hsame.mpr hnew), hok]
      refine (ih hcustomers hnames').trans ?_
      simp [Rows.insert]
    · have hnames' : ∀ name, name ∈ names ++ customer.firstName.toList ↔ name ∈ table.names := by
        intro name
        rw [List.mem_append, hnames, Option.mem_toList]
        refine or_iff_left_of_imp fun hname => ?_
        push Not at hpresent
        obtain ⟨other, hother, hmem⟩ := hpresent
        obtain rfl := Option.mem_unique hother hname
        exact hmem
      rw [if_neg fun hnew => hpresent (hsame.mp hnew), herror]
      exact ih hcustomers hnames'

/-- Savepoints and transactions of their own create the first customer of each name that is new. One
transaction without savepoints creates all customers, if all are new, or nobody. -/
theorem createMany_rows (hfails : ∀ customer ∈ customers, FailsOnlyOnDuplicates customer)
    (table : Rows) :
    (∃ created : Rows,
      created.rows =
          table.rows ++ (firstOccurrences table.names customers).map CustomerEntity.row ∧
        Returns (ManyCustomersService.Proxy.createCustomersWithoutFail customers) (idle table) ()
          (idle created) ∧
        Returns
          (ManyCustomersService.Proxy.createCustomersWithoutFailNotTransactionalProxyFix customers)
          (idle table) () (idle created)) ∧
      (AllNew table customers → ∃ created : Rows,
        created.rows = table.rows ++ customers.map CustomerEntity.row ∧
          Returns (ManyCustomersService.Proxy.createCustomers customers) (idle table) ()
            (idle created)) ∧
      (¬AllNew table customers →
        Throws (ManyCustomersService.Proxy.createCustomers customers) (idle table)
          (.application .duplicateKey) (idle table)) := by
  have hnew := within_new table
  refine ⟨⟨customers.foldl Rows.createIfNew table, ?_, ?_, ?_⟩, ?_⟩
  · exact foldl_createIfNew hfails fun _ => Iff.rfl
  · obtain ⟨db, hreturns, hdb⟩ := createCustomersWithoutFail_returns hfails hnew
    exact returns_required hreturns hdb
  · exact returns_notSupported
      (createCustomersWithoutFailNotTransactionalProxyFix_returns hfails table)
  · rcases createCustomers_cases hfails hnew with
      ⟨all, db, hrows, hreturns, hdb⟩ | ⟨hnotNew, db, hthrows, hdb⟩
    · have hallNew : AllNew table customers := by
        rw [allNew_iff, ← hrows]
        exact all.unique
      exact ⟨fun _ => ⟨all, hrows, returns_required hreturns hdb⟩, fun h => absurd hallNew h⟩
    · exact ⟨fun h => absurd h hnotNew, fun _ => throws_required hthrows hdb rfl⟩

/-- Without a transaction, the service's call of itself creates nobody. -/
theorem notTransactional_throws (customer : CustomerEntity) (table : Rows) :
    Throws (ManyCustomersService.Proxy.createCustomersWithoutFailNotTransactional
      (customer :: customers)) (idle table) .noExistingTransaction (idle table) := by
  have hcreate : Throws (ManyCustomersService.createCustomerWithoutFailRequiresNew customer)
      (idle table) .noExistingTransaction (idle table) := throws_mandatory table
  apply throws_notSupported
  rw [ManyCustomersService.createCustomersWithoutFailNotTransactional, List.forM_cons]
  exact (hcreate.tryCatch (Throws.throw _ _)).bind _

end Loops

/-- A customer who fits into the columns. -/
theorem failsOnlyOnDuplicates {customer : CustomerEntity} (hfirst : storable customer.firstName)
    (hlast : storable customer.lastName) : FailsOnlyOnDuplicates customer := by
  intro table failure herror
  rw [CustomerDAOPg.create, if_neg (by simp [hfirst, hlast])] at herror
  split_ifs at herror with hnew
  exact (Except.error.inj herror).symm

def elvis : CustomerEntity :=
  { firstName := some "Elvis".toList, lastName := some "Souza".toList }

def bruna : CustomerEntity :=
  { firstName := some "Bruna".toList, lastName := some "Souza".toList }

def noCustomers : Rows := { rows := [], unique := List.nodup_nil }

/-- The bulk inserts leave out the second Elvis, and the single transaction is lost with him. -/
theorem createMany_rows_elvisTwice :
    ∃ created : Rows, created.rows = [elvis.row, bruna.row] ∧
      Returns (ManyCustomersService.Proxy.createCustomersWithoutFail [elvis, elvis, bruna])
        (idle noCustomers) () (idle created) ∧
      Returns
        (ManyCustomersService.Proxy.createCustomersWithoutFailNotTransactionalProxyFix
          [elvis, elvis, bruna])
        (idle noCustomers) () (idle created) ∧
      Throws (ManyCustomersService.Proxy.createCustomers [elvis, elvis, bruna]) (idle noCustomers)
        (.application .duplicateKey) (idle noCustomers) := by
  have hfails : ∀ customer ∈ [elvis, elvis, bruna], FailsOnlyOnDuplicates customer := by
    simp only [List.forall_mem_cons]
    exact ⟨failsOnlyOnDuplicates rfl rfl, failsOnlyOnDuplicates rfl rfl,
      failsOnlyOnDuplicates rfl rfl, fun _ h => nomatch h⟩
  obtain ⟨⟨created, hrows, hsavepoints, hown⟩, -, hlost⟩ := createMany_rows hfails noCustomers
  refine ⟨created, hrows.trans ?_, hsavepoints, hown, hlost fun hallNew => ?_⟩
  · rfl
  · revert hallNew
    rw [AllNew]
    decide

end Customers
