import JavaExamples.Common.InsertIfAbsent
import JavaExamples.Common.SqlColumns
import JavaExamples.Common.Transactions

/-!
# Creating stocks

`StockPriceService` inserts the stocks of a list into the table `STOCK`, one statement each, in one
transaction. `create` gives up at the first one that is there already, `createIfAbsent` counts those
that are not.

* `createIfAbsent_returns`, `createIfAbsent_throws`: one stock.
* `createLoop_returns`, `createLoop_throws`: all of them or an exception.
* `createAllIfAbsent_returns`: the count, and the table after.
* `stocks_created`: both services, for lists with stocks of any kind.
-/

namespace Stocks

open InsertIfAbsent Program SqlColumns Transactions

structure Stock where
  symbol : Option Text
  price : Option ℚ

/-- The prices of the table `STOCK` in hundredths, by symbol. -/
abbrev Table := Text → Option ℤ

inductive StockException where
  | duplicatedStock (message : Option Text)
  | unableToExecuteStatement

/-- The row of a stock, a `VARCHAR(10)` and a `DECIMAL(10, 2)`, if the columns, which take no
`NULL`, hold it. -/
def Stock.row (stock : Stock) : Option (Text × ℤ) := do
  let symbol ← stock.symbol.bind (varchar 10)
  let price ← stock.price.bind (decimal 10 2)
  return (symbol, price)

/-! ## The services -/

namespace StockPriceDAOPg

/-- `INSERT INTO STOCK VALUES (?, ?) ON CONFLICT DO NOTHING`. -/
def insertOnConflictDoNothing (stock : Stock) (table : Table) :
    Except StockException (ℕ × Table) :=
  match stock.row with
  | none => .error .unableToExecuteStatement
  | some row => .ok (if table row.1 = none then 1 else 0, InsertIfAbsent.insert table row)

def createIfAbsent (stock : Stock) : Transactional Table StockException Bool := do
  let rows ← executeUpdate (insertOnConflictDoNothing stock)
  return rows == 1

end StockPriceDAOPg

/-- Every exception that the services throw is a `RuntimeException`. -/
def rollbackForRuntimeException : NoRollbackFor StockException := fun _ => false

namespace StockPriceService

def createIfAbsent (stock : Stock) : Transactional Table StockException Bool :=
  StockPriceDAOPg.createIfAbsent stock

/-- What `filter(..).count()` does with a stock. -/
def countIfAbsent (count : ℕ) (stock : Stock) : Transactional Table StockException ℕ := do
  let created ← createIfAbsent stock
  return if created then count + 1 else count

/-- `createIfAbsent` of a list. -/
def createAllIfAbsent (stocks : List Stock) : Transactional Table StockException ℕ :=
  stocks.foldlM countIfAbsent 0

/-- What `create` does with a stock. -/
def createNew (stock : Stock) : Transactional Table StockException Unit := do
  let created ← createIfAbsent stock
  if created then return ()
  else throw (.application (.duplicatedStock stock.symbol))

def create (stocks : List Stock) : Transactional Table StockException Unit :=
  forM stocks createNew

namespace Proxy

def createIfAbsent (stocks : List Stock) : Transactional Table StockException ℕ :=
  transactional .required rollbackForRuntimeException (createAllIfAbsent stocks)

def create (stocks : List Stock) : Transactional Table StockException Unit :=
  transactional .required rollbackForRuntimeException (StockPriceService.create stocks)

end Proxy

end StockPriceService

open StockPriceService

/-! ## One stock -/

section Steps

variable {s table : Table} {db : Db Table} {stock : Stock} {row : Text × ℤ}

theorem createIfAbsent_returns (hrow : stock.row = some row) (hdb : Within s table false false db) :
    ∃ db', Returns (StockPriceService.createIfAbsent stock) db (decide (table row.1 = none)) db' ∧
      Within s (InsertIfAbsent.insert table row) false false db' := by
  have hinsert : StockPriceDAOPg.insertOnConflictDoNothing stock table =
      .ok (if table row.1 = none then 1 else 0, InsertIfAbsent.insert table row) := by
    rw [StockPriceDAOPg.insertOnConflictDoNothing, hrow]
  obtain ⟨db', hexecute, hdb'⟩ := hdb.executeUpdate_returns hinsert
  refine ⟨db', hexecute.bind ?_, hdb'⟩
  by_cases hnew : table row.1 = none
  · simp only [hnew, if_true, decide_true]
    exact Returns.pure _ db'
  · simp only [hnew, if_false, decide_false]
    exact Returns.pure _ db'

/-- A stock that the columns do not hold spoils the transaction. -/
theorem createIfAbsent_throws (hrow : stock.row = none) (hdb : Within s table false false db) :
    ∃ db', Throws (StockPriceService.createIfAbsent stock) db
      (.application .unableToExecuteStatement) db' ∧ db'.committed = s := by
  have hinsert : StockPriceDAOPg.insertOnConflictDoNothing stock table =
      .error .unableToExecuteStatement := by
    rw [StockPriceDAOPg.insertOnConflictDoNothing, hrow]
  obtain ⟨db', hexecute, hdb'⟩ := hdb.executeUpdate_throws hinsert
  exact ⟨db', hexecute.bind _, hdb'.committed⟩

theorem countIfAbsent_returns (count : ℕ) (hrow : stock.row = some row)
    (hdb : Within s table false false db) :
    ∃ db', Returns (countIfAbsent count stock) db
        (count + if table row.1 = none then 1 else 0) db' ∧
      Within s (InsertIfAbsent.insert table row) false false db' := by
  obtain ⟨db', hcreate, hdb'⟩ := createIfAbsent_returns hrow hdb
  refine ⟨db', hcreate.bind ?_, hdb'⟩
  by_cases hnew : table row.1 = none
  · simp only [hnew, decide_true, if_true]
    exact Returns.pure _ db'
  · simp only [hnew, decide_false, Bool.false_eq_true, if_false]
    exact Returns.pure _ db'

theorem createNew_returns (hrow : stock.row = some row) (hnew : table row.1 = none)
    (hdb : Within s table false false db) :
    ∃ db', Returns (createNew stock) db () db' ∧
      Within s (InsertIfAbsent.insert table row) false false db' := by
  obtain ⟨db', hcreate, hdb'⟩ := createIfAbsent_returns hrow hdb
  refine ⟨db', hcreate.bind ?_, hdb'⟩
  rw [decide_eq_true hnew]
  exact Returns.pure () db'

theorem createNew_throws (hrow : stock.row = some row) (hold : table row.1 ≠ none)
    (hdb : Within s table false false db) :
    ∃ db', Throws (createNew stock) db (.application (.duplicatedStock stock.symbol)) db' ∧
      db'.committed = s := by
  obtain ⟨db', hcreate, hdb'⟩ := createIfAbsent_returns hrow hdb
  refine ⟨db', hcreate.bind_throws ?_, hdb'.committed⟩
  rw [decide_eq_false hold]
  exact Throws.throw _ db'

end Steps

/-! ## The loops -/

/-- The rows of the stocks. -/
def StoredAs (stocks : List Stock) (rows : List (Text × ℤ)) : Prop :=
  List.Forall₂ (fun stock row => stock.row = some row) stocks rows

section Loops

variable {s table : Table} {db : Db Table} {stocks : List Stock} {rows : List (Text × ℤ)}

theorem createAllIfAbsent_returns (hrows : StoredAs stocks rows) (count : ℕ)
    (hdb : Within s table false false db) :
    ∃ db', Returns (stocks.foldlM countIfAbsent count) db (count + countNew table rows) db' ∧
      Within s (insertAll table rows) false false db' := by
  induction hrows generalizing count table db with
  | nil => exact ⟨db, Returns.pure count db, hdb⟩
  | cons hrow _ ih =>
    obtain ⟨db', hfirst, hdb'⟩ := countIfAbsent_returns count hrow hdb
    obtain ⟨db'', hrest, hdb''⟩ := ih _ hdb'
    rw [List.foldlM_cons, countNew, ← Nat.add_assoc]
    exact ⟨db'', hfirst.bind hrest, hdb''⟩

theorem createAllIfAbsent_throws (hunfit : ∃ stock ∈ stocks, stock.row = none) (count : ℕ)
    (hdb : Within s table false false db) :
    ∃ db', Throws (stocks.foldlM countIfAbsent count) db
      (.application .unableToExecuteStatement) db' ∧ db'.committed = s := by
  induction stocks generalizing count table db with
  | nil => simp at hunfit
  | cons stock stocks ih =>
    rw [List.foldlM_cons]
    cases hrow : stock.row with
    | none =>
      obtain ⟨db', hcreate, hdb'⟩ := createIfAbsent_throws hrow hdb
      exact ⟨db', (hcreate.bind _).bind _, hdb'⟩
    | some row =>
      have hrest : ∃ stock ∈ stocks, stock.row = none := by
        simpa [hrow] using hunfit
      obtain ⟨db', hfirst, hdb'⟩ := countIfAbsent_returns count hrow hdb
      obtain ⟨db'', hthrows, hdb''⟩ := ih hrest _ hdb'
      exact ⟨db'', hfirst.bind_throws hthrows, hdb''⟩

theorem createLoop_returns (hrows : StoredAs stocks rows) (hnew : AllNew table rows)
    (hdb : Within s table false false db) :
    ∃ db', Returns (StockPriceService.create stocks) db () db' ∧
      Within s (insertAll table rows) false false db' := by
  unfold StockPriceService.create
  induction hrows generalizing table db with
  | nil => exact ⟨db, Returns.pure () db, hdb⟩
  | cons hrow _ ih =>
    obtain ⟨hfirst, hrest⟩ := allNew_cons.mp hnew
    obtain ⟨db', hcreate, hdb'⟩ := createNew_returns hrow hfirst hdb
    obtain ⟨db'', hloop, hdb''⟩ := ih hrest hdb'
    rw [List.forM_cons]
    exact ⟨db'', hcreate.bind hloop, hdb''⟩

/-- The loop ends at the first stock that is there, wherever in the list it stands. -/
theorem createLoop_throws (hrows : StoredAs stocks rows) (hold : ¬AllNew table rows)
    (hdb : Within s table false false db) :
    ∃ stock ∈ stocks, ∃ db', Throws (StockPriceService.create stocks) db
      (.application (.duplicatedStock stock.symbol)) db' ∧ db'.committed = s := by
  unfold StockPriceService.create
  induction hrows generalizing table db with
  | nil => exact absurd (allNew_nil table) hold
  | @cons stock row stocks _ hrow _ ih =>
    rw [List.forM_cons]
    -- new here, it may be a duplicate further on in the list
    by_cases hfirst : table row.1 = none
    · have hrest : ¬AllNew (InsertIfAbsent.insert table row) _ :=
        fun h => hold (allNew_cons.mpr ⟨hfirst, h⟩)
      obtain ⟨db', hcreate, hdb'⟩ := createNew_returns hrow hfirst hdb
      obtain ⟨duplicate, hmem, db'', hthrows, hdb''⟩ := ih hrest hdb'
      exact ⟨duplicate, List.mem_cons_of_mem _ hmem, db'', hcreate.bind_throws hthrows, hdb''⟩
    · obtain ⟨db', hthrows, hdb'⟩ := createNew_throws hrow hfirst hdb
      exact ⟨stock, List.mem_cons_self, db', hthrows.bind _, hdb'⟩

theorem createLoop_throws_unfit (hunfit : ∃ stock ∈ stocks, stock.row = none)
    (hdb : Within s table false false db) :
    ∃ e db', Throws (StockPriceService.create stocks) db e db' ∧ db'.committed = s := by
  unfold StockPriceService.create
  induction stocks generalizing table db with
  | nil => simp at hunfit
  | cons stock stocks ih =>
    rw [List.forM_cons]
    cases hrow : stock.row with
    | none =>
      obtain ⟨db', hcreate, hdb'⟩ := createIfAbsent_throws hrow hdb
      exact ⟨_, db', (hcreate.bind _).bind _, hdb'⟩
    | some row =>
      -- whichever of the two comes first in the list, a duplicate or what does not fit
      by_cases hfirst : table row.1 = none
      · have hrest : ∃ stock ∈ stocks, stock.row = none := by
          simpa [hrow] using hunfit
        obtain ⟨db', hcreate, hdb'⟩ := createNew_returns hrow hfirst hdb
        obtain ⟨e, db'', hthrows, hdb''⟩ := ih hrest hdb'
        exact ⟨e, db'', hcreate.bind_throws hthrows, hdb''⟩
      · obtain ⟨db', hthrows, hdb'⟩ := createNew_throws hrow hfirst hdb
        exact ⟨_, db', hthrows.bind _, hdb'⟩

end Loops

/-! ## The services -/

theorem create_throws {table : Table} {db : Db Table} {stocks : List Stock}
    {thrown : Thrown StockException} (hdb : db.committed = table)
    (h : Throws (StockPriceService.create stocks) { committed := table, current := some .new }
      thrown db) :
    Throws (Proxy.create stocks) (idle table) thrown (idle table) := throws_required h hdb rfl

/-- On stocks that the columns hold, `create` inserts the list or else nothing, according as all its
symbols are new, and `createIfAbsent` inserts and counts the first stock of each new symbol. On
other lists both throw and insert nothing. -/
theorem stocks_created (table : Table) (stocks : List Stock) :
    (∀ rows, StoredAs stocks rows →
      (AllNew table rows → ∃ table', Returns (Proxy.create stocks) (idle table) () (idle table') ∧
        ∀ symbol price, table' symbol = some price ↔
          table symbol = some price ∨ (symbol, price) ∈ rows) ∧
      (¬AllNew table rows → ∃ stock ∈ stocks, Throws (Proxy.create stocks) (idle table)
        (.application (.duplicatedStock stock.symbol)) (idle table)) ∧
      ∃ table', Returns (Proxy.createIfAbsent stocks) (idle table) (newKeys table rows).card
          (idle table') ∧
        ∀ symbol, table' symbol = (table symbol).or (first rows symbol)) ∧
    ((∃ stock ∈ stocks, stock.row = none) →
      (∃ e, Throws (Proxy.create stocks) (idle table) e (idle table)) ∧
      Throws (Proxy.createIfAbsent stocks) (idle table) (.application .unableToExecuteStatement)
        (idle table)) := by
  have hnew := within_new table
  constructor
  · intro rows hrows
    refine ⟨fun hall => ?_, fun hold => ?_, ?_⟩
    · obtain ⟨db', hloop, hdb'⟩ := createLoop_returns hrows hall hnew
      exact ⟨_, returns_required hloop hdb', insertAll_of_allNew hall⟩
    · obtain ⟨stock, hmem, db', hloop, hdb'⟩ := createLoop_throws hrows hold hnew
      exact ⟨stock, hmem, create_throws hdb' hloop⟩
    · obtain ⟨db', hloop, hdb'⟩ := createAllIfAbsent_returns hrows 0 hnew
      rw [Nat.zero_add, countNew_eq] at hloop
      exact ⟨_, returns_required hloop hdb', insertAll_apply table rows⟩
  -- the transaction is rolled back whatever the loop has inserted
  · intro hunfit
    obtain ⟨e, db', hloop, hdb'⟩ := createLoop_throws_unfit hunfit hnew
    obtain ⟨db'', hcount, hdb''⟩ := createAllIfAbsent_throws hunfit 0 hnew
    exact ⟨⟨e, create_throws hdb' hloop⟩, throws_required hcount hdb'' rfl⟩

/-- The stock PAGS at a price. -/
def pags (price : ℚ) : Stock := { symbol := some ['P', 'A', 'G', 'S'], price := some price }

/-- Twice in the list, it makes `create` throw, and `createIfAbsent` inserts it once, at the first
price. -/
theorem stocks_created_twice :
    (∃ stock ∈ [pags 10, pags 1], Throws (Proxy.create [pags 10, pags 1]) (idle fun _ => none)
      (.application (.duplicatedStock stock.symbol)) (idle fun _ => none)) ∧
    ∃ table', Returns (Proxy.createIfAbsent [pags 10, pags 1]) (idle fun _ => none) 1
        (idle table') ∧
      table' ['P', 'A', 'G', 'S'] = some 1000 := by
  have hrow : ∀ price unscaled, decimal 10 2 price = some unscaled →
      (pags price).row = some (['P', 'A', 'G', 'S'], unscaled) := by
    intro price unscaled h
    simp only [Stock.row, pags, Option.bind_some, h]
    rfl
  have hrows : StoredAs [pags 10, pags 1]
      [(['P', 'A', 'G', 'S'], 1000), (['P', 'A', 'G', 'S'], 100)] :=
    .cons (hrow _ _ (by decide +kernel)) (.cons (hrow _ _ (by decide +kernel)) .nil)
  obtain ⟨-, hold, table', hcount, htable'⟩ :=
    (stocks_created (fun _ => none) [pags 10, pags 1]).1 _ hrows
  refine ⟨hold fun h => ?_, table', hcount, by rw [htable']; decide⟩
  have hnodup := h.1
  revert hnodup
  decide

/-- A symbol of eleven letters, which neither the table nor the rest of the list has: both services
throw. -/
theorem not_created_long_symbol :
    Throws (Proxy.create [{ symbol := some (List.replicate 11 'A'), price := some 1 }])
        (idle fun _ => none) (.application .unableToExecuteStatement) (idle fun _ => none) ∧
      Throws (Proxy.createIfAbsent [{ symbol := some (List.replicate 11 'A'), price := some 1 }])
        (idle fun _ => none) (.application .unableToExecuteStatement) (idle fun _ => none) := by
  have hrow : Stock.row { symbol := some (List.replicate 11 'A'), price := some 1 } = none := by
    decide +kernel
  have hnew := within_new (fun _ : Text => (none : Option ℤ))
  obtain ⟨db', hcreate, hdb'⟩ := createIfAbsent_throws hrow hnew
  obtain ⟨db'', hcount, hdb''⟩ := createAllIfAbsent_throws
    ⟨_, List.mem_singleton_self _, hrow⟩ 0 hnew
  refine ⟨create_throws hdb' ?_, throws_required hcount hdb'' rfl⟩
  exact (hcreate.bind _).bind _

end Stocks
