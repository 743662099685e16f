import JavaExamples.Sharding.RoutingStability
import Mathlib.Tactic.NormNum

/-!
# Accounting

Runs of the calls of `CustomerBalanceService` with a ledger of those that succeeded. Amounts have
two decimals and are given in hundredths.

* `Accounted`: every balance is the sum of what the ledger has for its customer; every call keeps
  this (`Accounted.post`).
* `Sound`: and no balance is negative.
* `KeepsNonnegative`: the calls that leave no negative balance. A debt has a guard for it, a credit
  and the first amount of an account have none.
* `sound_iff`: the runs that are sound throughout.
* `not_sound_negativeCredit`: one that is not.
-/

namespace Sharding

/-- A call of `CustomerBalanceService`. -/
inductive BalanceCall where
  | createAccount (customerId : UUID) (cents : ℤ)
  | debt (customerId : UUID) (cents : ℤ)
  | credit (customerId : UUID) (cents : ℤ)
  | changeBalance (customerId : UUID) (cents : ℤ)

namespace BalanceCall

def operation : BalanceCall → Operation
  | createAccount customerId cents => .createAccount customerId (cents / 100)
  | debt customerId cents => .debt customerId (cents / 100)
  | credit customerId cents => .credit customerId (cents / 100)
  | changeBalance customerId cents => .changeBalance customerId (cents / 100)

def customerId : BalanceCall → UUID
  | createAccount customerId _ => customerId
  | debt customerId _ => customerId
  | credit customerId _ => customerId
  | changeBalance customerId _ => customerId

/-- What the call adds to the balance if it succeeds. -/
def effect : BalanceCall → ℤ
  | createAccount _ cents => cents
  | debt _ cents => -cents
  | credit _ cents => cents
  | changeBalance _ cents => cents

end BalanceCall

/-- The databases and the calls that have succeeded. -/
structure Books where
  db : Database
  ledger : List BalanceCall

namespace Books

/-- No accounts, and any regions. -/
def opened (regions : Shard → AList fun _ : UUID => Text) : Books :=
  { db := fun shard => { customerBalance := ∅, customerRegion := regions shard }, ledger := [] }

/-- A call; one that fails is rolled back. -/
def post (books : Books) (call : BalanceCall) : Option Books :=
  match perform books.db call.operation with
  | .ok db => some { db, ledger := books.ledger ++ [call] }
  | .error _ => some books

/-- What the calls have added for a customer. -/
def total (books : Books) (customerId : UUID) : ℤ :=
  ((books.ledger.filter fun call => call.customerId = customerId).map BalanceCall.effect).sum

end Books

/-- Balances are where statements go, and they are what the ledger has. -/
structure Accounted (books : Books) : Prop where
  routed : ∀ customerId shard, books.db.Holds shard customerId →
    route books.db .customerBalance customerId = .ok shard
  total : ∀ customerId shard, route books.db .customerBalance customerId = .ok shard →
    ((books.db shard).customerBalance.lookup customerId).getD 0 = books.total customerId

/-- Every stored balance is at least zero and what the ledger has for its customer. -/
def Sound (books : Books) : Prop :=
  ∀ shard customerId cents, (books.db shard).customerBalance.lookup customerId = some cents →
    0 ≤ cents ∧ cents = books.total customerId

/-- A balance that NUMERIC(20, 2) can hold. -/
def FitsNumeric (cents : ℤ) : Prop := cents.natAbs < 10 ^ 20

/-- An account that is created begins with at least zero, and a credit leaves at least zero. -/
def KeepsNonnegative (books : Books) : BalanceCall → Prop
  | .createAccount customerId cents => ∀ shard,
      route books.db .customerBalance customerId = .ok shard →
      ¬books.db.Holds shard customerId → FitsNumeric cents → 0 ≤ cents
  | .credit customerId cents => ∀ shard balance,
      route books.db .customerBalance customerId = .ok shard →
      (books.db shard).customerBalance.lookup customerId = some balance →
      FitsNumeric (balance + cents) → 0 ≤ balance + cents
  | _ => True

/-! ## What a call does -/

section Calls

variable {db db' : Database} {customerId : UUID} {shard : Shard}

/-- Hundredths are stored as they are. -/
theorem toNumeric_cents (cents : ℤ) :
    toNumeric (cents / 100) = if cents.natAbs < 10 ^ 20 then some cents else none := by
  have hround : ∀ n : ℤ, ((n : ℚ) / 100 * 100 + 1 / 2).floor = n := by
    intro n
    rw [div_mul_cancel₀ (n : ℚ) (by norm_num)]
    show ⌊(n : ℚ) + 1 / 2⌋ = n
    rw [Int.floor_intCast_add]
    norm_num
  have hcents : (if (0 : ℚ) ≤ cents / 100 then ((cents : ℚ) / 100 * 100 + 1 / 2).floor
      else -(-((cents : ℚ) / 100) * 100 + 1 / 2).floor) = cents := by
    split_ifs
    · exact hround cents
    · have hneg := hround (-cents)
      rw [Int.cast_neg, neg_div] at hneg
      rw [hneg, neg_neg]
  rw [toNumeric, hcents]

variable {cents balance : ℤ}

theorem createAccount_eq_ok (hroute : route db .customerBalance customerId = .ok shard)
    (hnew : ¬db.Holds shard customerId) (hfits : FitsNumeric cents) :
    CustomerBalanceService.createAccount db customerId (cents / 100) =
      .ok (db.putBalance shard customerId cents) := by
  have hnumeric : toNumeric ((cents : ℚ) / 100) = some cents :=
    (toNumeric_cents cents).trans (if_pos hfits)
  have hmem : customerId ∉ (db shard).customerBalance := hnew
  simp only [CustomerBalanceService.createAccount, CustomerBalanceRepositoryImpl.create, hroute,
    bind, Except.bind, hnumeric, hmem, ↓reduceIte]

theorem credit_eq_ok (hroute : route db .customerBalance customerId = .ok shard)
    (hbalance : (db shard).customerBalance.lookup customerId = some balance)
    (hfits : FitsNumeric (balance + cents)) :
    CustomerBalanceService.credit db customerId (cents / 100) =
      .ok (db.putBalance shard customerId (balance + cents)) := by
  have hnumeric : toNumeric ((balance : ℚ) / 100 + (cents : ℚ) / 100) = some (balance + cents) := by
    rw [← add_div, ← Int.cast_add, toNumeric_cents]
    exact if_pos hfits
  simp only [CustomerBalanceService.credit, CustomerBalanceRepositoryImpl.credit,
    CustomerBalanceRepositoryImpl.update, hroute, bind, Except.bind, hbalance, hnumeric, ↓reduceIte]

theorem eq_of_toNumeric {amount : ℤ} (h : toNumeric ((amount : ℚ) / 100) = some cents) :
    cents = amount ∧ FitsNumeric amount := by
  rw [toNumeric_cents] at h
  split_ifs at h with hfits
  exact ⟨(Option.some.inj h).symm, hfits⟩

theorem createAccount_cases (h : CustomerBalanceService.createAccount db customerId (cents / 100) =
    .ok db') :
    ∃ shard, route db .customerBalance customerId = .ok shard ∧ ¬db.Holds shard customerId ∧
      FitsNumeric cents ∧ db' = db.putBalance shard customerId cents := by
  obtain ⟨shard, stored, hroute, hnew, hstored, rfl⟩ := create_ok h
  obtain ⟨rfl, hfits⟩ := eq_of_toNumeric hstored
  exact ⟨shard, hroute, hnew, hfits, rfl⟩

theorem credit_cases (h : CustomerBalanceService.credit db customerId (cents / 100) = .ok db') :
    ∃ shard balance, route db .customerBalance customerId = .ok shard ∧
      (db shard).customerBalance.lookup customerId = some balance ∧
      FitsNumeric (balance + cents) ∧ db' = db.putBalance shard customerId (balance + cents) := by
  obtain ⟨shard, balance, stored, hroute, hbalance, hstored, rfl⟩ := credit_ok h
  rw [← add_div, ← Int.cast_add] at hstored
  obtain ⟨rfl, hfits⟩ := eq_of_toNumeric hstored
  exact ⟨shard, balance, hroute, hbalance, hfits, rfl⟩

theorem debt_cases (h : CustomerBalanceService.debt db customerId (cents / 100) = .ok db') :
    ∃ shard balance, route db .customerBalance customerId = .ok shard ∧
      (db shard).customerBalance.lookup customerId = some balance ∧
      0 ≤ balance - cents ∧ db' = db.putBalance shard customerId (balance - cents) := by
  obtain ⟨shard, balance, stored, hroute, hbalance, hguard, hstored, rfl⟩ := debt_ok h
  rw [← sub_div, ← Int.cast_sub] at hstored hguard
  obtain ⟨rfl, -⟩ := eq_of_toNumeric hstored
  refine ⟨shard, balance, hroute, hbalance, ?_, rfl⟩
  have hnonneg : (0 : ℚ) ≤ (balance - cents : ℤ) := by
    by_contra hneg
    exact absurd hguard (not_le.mpr (div_neg_of_neg_of_pos (not_le.mp hneg) (by norm_num)))
  exact Int.cast_nonneg_iff.mp hnonneg

end Calls

/-- A call that succeeds adds its effect to the balance of its customer, or to zero if there is no
account yet. Where no balance is negative, the new one is not either exactly if the call keeps it
so. -/
theorem perform_accounted {books : Books} {call : BalanceCall} {db' : Database}
    (h : perform books.db call.operation = .ok db') :
    ∃ shard cents, route books.db .customerBalance call.customerId = .ok shard ∧
      cents = ((books.db shard).customerBalance.lookup call.customerId).getD 0 + call.effect ∧
      db' = books.db.putBalance shard call.customerId cents ∧
      ((∀ balance, (books.db shard).customerBalance.lookup call.customerId = some balance →
        0 ≤ balance) → (0 ≤ cents ↔ KeepsNonnegative books call)) := by
  cases call with
  | createAccount customerId cents =>
    obtain ⟨shard, hroute, hnew, hfits, rfl⟩ := createAccount_cases h
    refine ⟨shard, cents, hroute, ?_, rfl, fun _ =>
      ⟨fun hcents _ _ _ _ => hcents, fun hkeeps => ?_⟩⟩
    · rw [BalanceCall.customerId, AList.lookup_eq_none.mpr hnew]
      exact (zero_add cents).symm
    · exact hkeeps shard hroute hnew hfits
  | credit customerId cents =>
    obtain ⟨shard, balance, hroute, hbalance, hfits, rfl⟩ := credit_cases h
    refine ⟨shard, balance + cents, hroute, ?_, rfl,
      fun _ => ⟨fun hcents other balance' hroute' hbalance' _ => ?_, fun hkeeps => ?_⟩⟩
    · rw [BalanceCall.customerId, hbalance]
      rfl
    · obtain rfl : shard = other := Except.ok.inj (hroute.symm.trans hroute')
      obtain rfl : balance = balance' := Option.some.inj (hbalance.symm.trans hbalance')
      exact hcents
    · exact hkeeps shard balance hroute hbalance hfits
  | debt customerId cents =>
    obtain ⟨shard, balance, hroute, hbalance, hguard, rfl⟩ := debt_cases h
    refine ⟨shard, balance - cents, hroute, ?_, rfl, fun _ => iff_of_true hguard trivial⟩
    rw [BalanceCall.customerId, hbalance]
    exact sub_eq_add_neg balance cents
  | changeBalance customerId cents =>
    have hhundred : (0 : ℚ) < 100 := by norm_num
    have hchange : CustomerBalanceService.changeBalance books.db customerId (cents / 100) =
      .ok db' := h
    rw [CustomerBalanceService.changeBalance] at hchange
    split_ifs at hchange with hpositive hnegative
    · obtain ⟨shard, balance, hroute, hbalance, -, rfl⟩ := credit_cases hchange
      refine ⟨shard, balance + cents, hroute, ?_, rfl, fun hold => iff_of_true ?_ trivial⟩
      · rw [BalanceCall.customerId, hbalance]
        rfl
      · have hcents : 0 < cents :=
          Int.cast_pos.mp ((div_pos_iff_of_pos_right hhundred).mp hpositive)
        exact add_nonneg (hold balance hbalance) hcents.le
    · -- what is debted is the amount without its sign
      rw [← neg_div, ← Int.cast_neg] at hchange
      obtain ⟨shard, balance, hroute, hbalance, hguard, rfl⟩ := debt_cases hchange
      refine ⟨shard, balance - -cents, hroute, ?_, rfl, fun _ => iff_of_true hguard trivial⟩
      rw [BalanceCall.customerId, hbalance]
      exact sub_neg_eq_add balance cents

/-! ## Runs -/

section Runs

variable {books books' : Books} {call : BalanceCall} {db : Database} {customerId other : UUID}
  {shard holder : Shard} {cents : ℤ}

theorem lookup_putBalance :
    ((db.putBalance shard customerId cents) holder).customerBalance.lookup other =
      if holder = shard ∧ other = customerId then some cents
      else (db holder).customerBalance.lookup other := by
  rw [Database.putBalance]
  by_cases hholder : holder = shard
  · subst hholder
    rw [Function.update_self]
    by_cases hother : other = customerId
    · rw [hother, AList.lookup_insert, if_pos ⟨rfl, rfl⟩]
    · rw [AList.lookup_insert_ne hother, if_neg fun h => hother h.2]
  · rw [Function.update_of_ne hholder, if_neg fun h => hholder h.1]

theorem total_append (ledger : List BalanceCall) (call : BalanceCall) (customerId : UUID) :
    Books.total { db, ledger := ledger ++ [call] } customerId =
      Books.total { db, ledger } customerId +
        if call.customerId = customerId then call.effect else 0 := by
  unfold Books.total
  rw [List.filter_append, List.map_append, List.sum_append]
  congr 1
  by_cases h : call.customerId = customerId
  · simp [h]
  · simp [h]

/-- The step of a call: it fails and changes nothing, or it is entered and adds its effect to the
balance of its customer. -/
theorem post_cases (hpost : books.post call = some books') :
    (books' = books ∧ ∃ failure, perform books.db call.operation = .error failure) ∨
    ∃ shard cents, route books.db .customerBalance call.customerId = .ok shard ∧
      cents = ((books.db shard).customerBalance.lookup call.customerId).getD 0 + call.effect ∧
      books' = { db := books.db.putBalance shard call.customerId cents,
                 ledger := books.ledger ++ [call] } ∧
      ((∀ balance, (books.db shard).customerBalance.lookup call.customerId = some balance →
        0 ≤ balance) → (0 ≤ cents ↔ KeepsNonnegative books call)) := by
  rw [Books.post] at hpost
  cases hperform : perform books.db call.operation with
  | error failure =>
    rw [hperform] at hpost
    exact Or.inl ⟨(Option.some.inj hpost).symm, failure, rfl⟩
  | ok db =>
    rw [hperform] at hpost
    obtain rfl := Option.some.inj hpost
    obtain ⟨shard, cents, hroute, hcents, rfl, hsign⟩ := perform_accounted hperform
    exact Or.inr ⟨shard, cents, hroute, hcents, rfl, hsign⟩

theorem Accounted.post (h : Accounted books) (hpost : books.post call = some books') :
    Accounted books' := by
  rcases post_cases hpost with ⟨rfl, -⟩ | ⟨shard, cents, hroute, hcents, rfl, -⟩
  · exact h
  · constructor
    · intro customerId holder hholds
      refine (route_congr (findRegion_putBalance cents)).trans ?_
      rcases (holds_putBalance cents).mp hholds with hholds | ⟨rfl, rfl⟩
      · exact h.routed customerId holder hholds
      · exact hroute
    · intro customerId holder hholder
      have hholder : route books.db .customerBalance customerId = .ok holder :=
        (route_congr (findRegion_putBalance cents)).symm.trans hholder
      have htotal := h.total customerId holder hholder
      rw [total_append, lookup_putBalance]
      by_cases hcustomer : call.customerId = customerId
      · -- the balance written is that of the customer's only shard
        subst hcustomer
        obtain rfl : shard = holder := Except.ok.inj (hroute.symm.trans hholder)
        rw [if_pos ⟨rfl, rfl⟩, if_pos rfl, hcents, htotal]
        rfl
      · rw [if_neg fun h => hcustomer h.2.symm, if_neg hcustomer, add_zero]
        exact htotal

theorem accounted_opened (regions : Shard → AList fun _ : UUID => Text) :
    Accounted (Books.opened regions) where
  routed customerId shard hholds := by cases hholds
  total customerId shard _ := rfl

/-- In books that are accounted, the sign is all that can be wrong. -/
theorem Accounted.sound_iff_nonneg (h : Accounted books) :
    Sound books ↔ ∀ shard customerId cents,
      (books.db shard).customerBalance.lookup customerId = some cents → 0 ≤ cents := by
  refine forall₄_congr fun shard customerId cents hcents => and_iff_left ?_
  have hroute := h.routed customerId shard (AList.lookup_isSome.mp (by rw [hcents]; rfl))
  rw [← h.total customerId shard hroute, hcents]
  rfl

theorem keepsNonnegative_of_fails {failure : Failure}
    (h : perform books.db call.operation = .error failure) : KeepsNonnegative books call := by
  cases call with
  | createAccount customerId cents =>
    intro shard hroute hnew hfits
    cases (createAccount_eq_ok hroute hnew hfits).symm.trans h
  | credit customerId cents =>
    intro shard balance hroute hbalance hfits
    cases (credit_eq_ok hroute hbalance hfits).symm.trans h
  | debt customerId cents => trivial
  | changeBalance customerId cents => trivial

theorem post_sound_iff (haccounted : Accounted books) (hsound : Sound books)
    (hpost : books.post call = some books') : Sound books' ↔ KeepsNonnegative books call := by
  have hnonneg := haccounted.sound_iff_nonneg.mp hsound
  rw [(haccounted.post hpost).sound_iff_nonneg]
  rcases post_cases hpost with ⟨rfl, failure, hfailure⟩ | ⟨shard, cents, hroute, hcents, rfl, hsign⟩
  · exact iff_of_true hnonneg (keepsNonnegative_of_fails hfailure)
  · rw [← hsign (hnonneg shard call.customerId)]
    constructor
    · intro h
      refine h shard call.customerId cents ?_
      rw [lookup_putBalance, if_pos ⟨rfl, rfl⟩]
    · intro hnew holder customerId balance hbalance
      rw [lookup_putBalance] at hbalance
      split_ifs at hbalance with hwritten
      · exact Option.some.inj hbalance ▸ hnew
      · exact hnonneg holder customerId balance hbalance

end Runs

/-- A run of calls is sound throughout exactly if no account is created with less than zero and no
credit takes a balance below zero. -/
theorem sound_iff (regions : Shard → AList fun _ : UUID => Text) (calls : List BalanceCall) :
    Transition.Throughout Books.post Sound (Books.opened regions) calls ↔
      Transition.Along Books.post KeepsNonnegative (Books.opened regions) calls := by
  apply Transition.throughout_iff_along
  · exact fun books call books' h hpost => Accounted.post h hpost
  · exact fun books call books' h hsound hpost => post_sound_iff h hsound hpost
  · exact accounted_opened regions
  · intro shard customerId cents hcents
    cases hcents

/-- An account is created with nothing and credited a negative amount. -/
def negativeCredit : List BalanceCall := [.createAccount zero 0, .credit zero (-500)]

/-- Its balance is negative then. -/
theorem not_sound_negativeCredit :
    ¬∀ (regions : Shard → AList fun _ : UUID => Text) (calls : List BalanceCall),
      Transition.Throughout Books.post Sound (Books.opened regions) calls := by
  intro h
  have hsound := Transition.throughout_iff_initial.mp (h (fun _ => ∅) negativeCredit)
  have hrow : (Transition.run Books.post (Books.opened fun _ => ∅) negativeCredit).map
      (fun books => (books.db .r1).customerBalance.lookup zero) = some (some (-500)) := by
    decide +kernel
  obtain ⟨books, hrun, hbalance⟩ := Option.map_eq_some_iff.mp hrow
  obtain ⟨hnonneg, -⟩ := hsound negativeCredit books (List.prefix_refl _) hrun .r1 zero _ hbalance
  omega

end Sharding
