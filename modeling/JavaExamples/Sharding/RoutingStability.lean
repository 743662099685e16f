import JavaExamples.Common.Transition
import JavaExamples.Sharding.CustomerBalance

/-!
# Routing stability

The shard of a customer's row is chosen when the account is created, the shard of every later
statement when that statement runs. A region recorded in between may send them elsewhere.

* `StablyRouted`: every row is where a statement on its customer would go now, and no customer has
  rows on both shards.
* `stablyRouted_iff`: a run of service calls keeps this throughout exactly when no call records a
  region that differs from where the customer's row is.
-/

namespace Sharding

/-- The customer has a balance row on the shard. -/
def Database.Holds (db : Database) (shard : Shard) (customerId : UUID) : Prop :=
  customerId ∈ (db shard).customerBalance

instance (db : Database) (shard : Shard) (customerId : UUID) :
    Decidable (db.Holds shard customerId) :=
  inferInstanceAs (Decidable (customerId ∈ (db shard).customerBalance))

/-- A balance statement on a customer goes to the shard that holds the row, and only one does. -/
structure StablyRouted (db : Database) : Prop where
  routed : ∀ customerId shard, db.Holds shard customerId →
    route db .customerBalance customerId = .ok shard
  oneShard : ∀ customerId shard other, db.Holds shard customerId → db.Holds other customerId →
    shard = other

/-- One call; a call that fails is rolled back. -/
def step (db : Database) (op : Operation) : Option Database :=
  match perform db op with
  | .ok db' => some db'
  | .error _ => some db

/-- If the call records the first region of a customer who has an account, the region is blank or
names the shard that holds the row. -/
def KeepsRoute (db : Database) : Operation → Prop
  | .createRegion customerId region => ∀ name, region.bind toVarchar10 = some name →
      CustomerRegionService.findRegionNameByCustomerId db customerId = none →
      ∀ shard, db.Holds shard customerId → Text.isBlank name ∨ name = shard.name
  | _ => True

/-- Each shard is found by its name, and by no other. -/
theorem resolve_eq_ok_iff {name : Text} {shard : Shard} :
    Shard.resolve name = .ok shard ↔ name = shard.name := by
  constructor
  · intro h
    unfold Shard.resolve at h
    split_ifs at h with hr1 hr2
    · exact Except.ok.inj h ▸ hr1
    · exact Except.ok.inj h ▸ hr2
  · rintro rfl
    cases shard with
    | r1 => exact if_pos rfl
    | r2 => exact (if_neg (by decide)).trans (if_pos rfl)

section Writes

variable {db db' : Database} {customerId other : UUID} {shard holder : Shard}

/-- The routing depends on the recorded region only. -/
theorem route_congr
    (h : CustomerRegionService.findRegionNameByCustomerId db' customerId =
      CustomerRegionService.findRegionNameByCustomerId db customerId) :
    route db' .customerBalance customerId = route db .customerBalance customerId := by
  simp only [route, RegionDiscoverAlgorithm.doSharding, h]

/-- A blank region routes like none. -/
theorem route_of_isBlank {name : Text}
    (h : CustomerRegionService.findRegionNameByCustomerId db' customerId = some name)
    (hblank : Text.isBlank name)
    (hnone : CustomerRegionService.findRegionNameByCustomerId db customerId = none) :
    route db' .customerBalance customerId = route db .customerBalance customerId := by
  simp only [route, RegionDiscoverAlgorithm.doSharding, h, hblank, hnone, ↓reduceIte]

/-- Any other region routes to the shard of that name. -/
theorem route_of_not_isBlank {name : Text}
    (h : CustomerRegionService.findRegionNameByCustomerId db customerId = some name)
    (hblank : ¬Text.isBlank name) :
    route db .customerBalance customerId = .ok shard ↔ name = shard.name := by
  have hsharding : RegionDiscoverAlgorithm.doSharding db availableTargetNames .customerBalance
      customerId = .ok name := by
    simp only [RegionDiscoverAlgorithm.doSharding, h, hblank, reduceCtorEq, ↓reduceIte]
  rw [route, hsharding]
  exact resolve_eq_ok_iff

theorem findRegion_putBalance (cents : ℤ) :
    CustomerRegionService.findRegionNameByCustomerId (db.putBalance shard other cents) customerId =
      CustomerRegionService.findRegionNameByCustomerId db customerId := by
  cases shard <;> rfl

theorem holds_putBalance (cents : ℤ) :
    (db.putBalance shard other cents).Holds holder customerId ↔
      db.Holds holder customerId ∨ (holder = shard ∧ customerId = other) := by
  rw [Database.Holds, Database.putBalance, Database.Holds]
  -- the other shard keeps its rows
  by_cases hshard : holder = shard
  · subst hshard
    rw [Function.update_self, AList.mem_insert]
    tauto
  · rw [Function.update_of_ne hshard]
    tauto

theorem findRegion_putRegion_self (name : Text) :
    CustomerRegionService.findRegionNameByCustomerId (db.putRegion .r1 customerId name) customerId =
      some name := by
  rw [CustomerRegionService.findRegionNameByCustomerId, Database.putRegion, Function.update_self,
    AList.lookup_insert]

theorem findRegion_putRegion_ne (name : Text) (h : customerId ≠ other) :
    CustomerRegionService.findRegionNameByCustomerId (db.putRegion .r1 other name) customerId =
      CustomerRegionService.findRegionNameByCustomerId db customerId := by
  rw [CustomerRegionService.findRegionNameByCustomerId, Database.putRegion, Function.update_self,
    AList.lookup_insert_ne h, CustomerRegionService.findRegionNameByCustomerId]

theorem holds_putRegion (name : Text) :
    (db.putRegion shard other name).Holds holder customerId ↔ db.Holds holder customerId := by
  rw [Database.Holds, Database.putRegion, Database.Holds]
  by_cases hshard : holder = shard
  · rw [hshard, Function.update_self]
  · rw [Function.update_of_ne hshard]

/-- A row only one shard can be asked for is on one shard only. -/
theorem StablyRouted.of_routed (h : ∀ customerId shard, db.Holds shard customerId →
    route db .customerBalance customerId = .ok shard) : StablyRouted db where
  routed := h
  oneShard customerId shard other hshard hother :=
    Except.ok.inj ((h customerId shard hshard).symm.trans (h customerId other hother))

/-- A balance written on the chosen shard is where the next statement goes. -/
theorem StablyRouted.putBalance (h : StablyRouted db) (cents : ℤ)
    (hroute : route db .customerBalance other = .ok shard) :
    StablyRouted (db.putBalance shard other cents) := by
  refine .of_routed fun customerId holder hholds => ?_
  -- a balance changes no region, so that all routes stay
  rw [route_congr (findRegion_putBalance cents)]
  rcases (holds_putBalance cents).mp hholds with hholds | ⟨rfl, rfl⟩
  · exact h.routed customerId holder hholds
  · exact hroute

/-- A first region keeps the rows where they are asked for exactly when it is blank or names the
shard of the customer's row. -/
theorem StablyRouted.putRegion_iff (h : StablyRouted db) {name : Text}
    (hnone : CustomerRegionService.findRegionNameByCustomerId db customerId = none) :
    StablyRouted (db.putRegion .r1 customerId name) ↔
      ∀ shard, db.Holds shard customerId → Text.isBlank name ∨ name = shard.name := by
  have hself : CustomerRegionService.findRegionNameByCustomerId
      (db.putRegion .r1 customerId name) customerId = some name := findRegion_putRegion_self name
  constructor
  · intro hstable shard hholds
    -- a blank region is ignored and keeps the hash, any other has to name the shard
    by_cases hblank : Text.isBlank name
    · exact Or.inl hblank
    · exact Or.inr ((route_of_not_isBlank hself hblank).mp
        (hstable.routed customerId shard ((holds_putRegion name).mpr hholds)))
  · intro hname
    refine .of_routed fun other shard hholds => ?_
    rw [holds_putRegion] at hholds
    -- only the customer whose region it is can be routed elsewhere
    by_cases hother : other = customerId
    · subst hother
      by_cases hblank : Text.isBlank name
      · rw [route_of_isBlank hself hblank hnone]
        exact h.routed other shard hholds
      · exact (route_of_not_isBlank hself hblank).mpr
          ((hname shard hholds).resolve_left hblank)
    · rw [route_congr (findRegion_putRegion_ne name hother)]
      exact h.routed other shard hholds

/-- A call keeps the rows where they are asked for exactly when it keeps the route. -/
theorem step_stablyRouted_iff {op : Operation} (h : StablyRouted db)
    (hstep : step db op = some db') :
    StablyRouted db' ↔ KeepsRoute db op := by
  rw [step] at hstep
  cases hperform : perform db op with
  | error failure =>
    rw [hperform] at hstep
    obtain rfl := Option.some.inj hstep
    refine iff_of_true h ?_
    -- a region that could be recorded would not have failed
    cases op with
    | createRegion customerId region =>
      intro name hname hnone
      have hok : perform db (.createRegion customerId region) =
          .ok (db.putRegion .r1 customerId name) :=
        createRegion_eq_ok.mpr ⟨name, hname, hnone, rfl⟩
      rw [hok] at hperform
      cases hperform
    | _ => trivial
  | ok done =>
    rw [hperform] at hstep
    obtain rfl := Option.some.inj hstep
    -- a balance always keeps the route, a region by what it is
    rcases perform_cases hperform with
      ⟨customerId, shard, cents, hop, hroute, rfl⟩ |
      ⟨customerId, region, name, rfl, hname, hnone, rfl⟩
    · refine iff_of_true (h.putBalance cents hroute) ?_
      cases op with
      | createRegion customerId region => exact absurd rfl (hop customerId region)
      | _ => trivial
    · rw [h.putRegion_iff hnone]
      constructor
      · intro hkeeps other hother _
        rw [hname, Option.some.injEq] at hother
        exact hother ▸ hkeeps
      · exact fun hkeeps => hkeeps name hname hnone

end Writes

/-- **Routing stability.** From empty shards, a run of service calls keeps every row where the next
statement on its customer goes exactly when no call records a first region, neither blank nor the
name of the shard that holds the row, for a customer who has an account. -/
theorem stablyRouted_iff (ops : List Operation) :
    Transition.Throughout step StablyRouted Database.empty ops ↔
      Transition.Along step KeepsRoute Database.empty ops := by
  refine Transition.throughout_iff_along (J := fun _ => True)
    (fun _ _ _ _ _ => trivial) ?_ trivial ?_
  · exact fun db op db' _ hstable hstep => step_stablyRouted_iff hstable hstep
  -- there are no rows at the start
  · refine .of_routed fun customerId shard hholds => ?_
    cases hholds

/-- The customer whose id is all zeros; the hash puts them on `r1`. -/
def zero : UUID := ⟨0, 0⟩

/-- An account, then a region elsewhere, then a second account for the same customer. -/
def reroutedRun : List Operation :=
  [.createAccount zero 0, .createRegion zero (some Shard.r2.name), .createAccount zero 0]

/-- The customer ends with a row on each shard. -/
theorem not_stablyRouted_reroutedRun :
    ∃ db, Transition.run step Database.empty reroutedRun = some db ∧
      db.Holds .r1 zero ∧ db.Holds .r2 zero ∧ ¬StablyRouted db := by
  have hrows : (Transition.run step Database.empty reroutedRun).map
      (fun db => decide (db.Holds .r1 zero ∧ db.Holds .r2 zero)) = some true := by
    decide +kernel
  obtain ⟨db, hdb, hholds⟩ := Option.map_eq_some_iff.mp hrows
  obtain ⟨hr1, hr2⟩ := of_decide_eq_true hholds
  refine ⟨db, hdb, hr1, hr2, fun h => ?_⟩
  have hsame := h.oneShard zero .r1 .r2 hr1 hr2
  cases hsame

end Sharding
