import JavaExamples.Common.HashBucket
import JavaExamples.Sharding.CustomerBalance

/-!
# Partitions by hash code

`PartitionCalc.calcPartition` and the hash fallback of `RegionDiscoverAlgorithm.doSharding` both
take `Math.abs` of a hash code modulo the number of partitions.

* `assigned_iff`, `routed_iff`: when each of them finds an existing partition.
* `bucketed_iff`: both together, for one hash code and one number of partitions.
-/

namespace HashBuckets

open Sharding

/-- Objects with their `hashCode()`. -/
class Hashed (Object : Type) where
  hashCode : Object → BitVec 32

export Hashed (hashCode)

instance : Hashed UUID := ⟨UUID.hashCode⟩

namespace PartitionCalc

/-- `ArithmeticException`. -/
inductive Failure where
  | divisionByZero

variable {Object : Type} [Hashed Object]

def calcPartition (o : Object) (n : BitVec 32) : Except Failure (BitVec 32) :=
  -- `Math.abs` returns the least `int` unchanged
  if n = 0 then .error .divisionByZero else .ok ((hashCode o).abs.srem n)

end PartitionCalc

open PartitionCalc

/-- A hash code has an absolute value, or the number of partitions divides that of the least
`int`. -/
def Bucketable (hash : BitVec 32) (n : ℕ) : Prop := hash ≠ BitVec.intMin 32 ∨ n ∣ 2 ^ 31

section Words

variable {hash : BitVec 32} {n : ℕ}

theorem toInt_ofNat_of_lt (h : n < 2 ^ 31) : (BitVec.ofNat 32 n).toInt = n := by
  have htoNat : (BitVec.ofNat 32 n).toNat = n := by
    rw [BitVec.toNat_ofNat]
    exact Nat.mod_eq_of_lt (by omega)
  rw [BitVec.toInt_eq_toNat_of_lt (by omega), htoNat]

theorem toInt_ofNat_pos (hn : 0 < n) (hmax : n < 2 ^ 31) : 0 < (BitVec.ofNat 32 n).toInt := by
  rw [toInt_ofNat_of_lt hmax]
  exact Int.natCast_pos.mpr hn

/-- The bucket of a hash code is one of `n` partitions. -/
theorem bucket_nonneg_iff (hn : 0 < n) (hmax : n < 2 ^ 31) :
    0 ≤ (HashBucket.bucket hash (BitVec.ofNat 32 n)).toInt ↔ Bucketable hash n := by
  rw [HashBucket.toInt_bucket_nonneg_iff (toInt_ofNat_pos hn hmax), toInt_ofNat_of_lt hmax,
    Bucketable]
  exact or_congr_right (Int.natCast_dvd_natCast (n := 2 ^ 31))

theorem bucket_lt (hash : BitVec 32) (hn : 0 < n) (hmax : n < 2 ^ 31) :
    (HashBucket.bucket hash (BitVec.ofNat 32 n)).toInt < n := by
  have hlt := HashBucket.toInt_bucket_lt hash (toInt_ofNat_pos hn hmax)
  rwa [toInt_ofNat_of_lt hmax] at hlt

end Words

/-! ## `calcPartition` -/

section CalcPartition

variable {Object : Type} [Hashed Object] {o : Object} {n : ℕ}

/-- The object is assigned to one of the partitions `0, …, n - 1`, and so is every object with the
same hash code. -/
def Assigned (o : Object) (n : BitVec 32) : Prop :=
  ∃ partition : BitVec 32, 0 ≤ partition.toInt ∧ partition.toInt < n.toInt ∧
    ∀ o' : Object, hashCode o' = hashCode o → calcPartition o' n = .ok partition

theorem calcPartition_eq (hn : 0 < n) (hmax : n < 2 ^ 31) (o : Object) :
    calcPartition o (BitVec.ofNat 32 n) =
      .ok (HashBucket.bucket (hashCode o) (BitVec.ofNat 32 n)) := by
  have hzero : BitVec.ofNat 32 n ≠ 0 := by
    intro h
    have hpos := toInt_ofNat_pos hn hmax
    rw [h] at hpos
    exact absurd hpos (by decide)
  rw [calcPartition, if_neg hzero]
  rfl

theorem assigned_iff (hn : 0 < n) (hmax : n < 2 ^ 31) :
    Assigned o (BitVec.ofNat 32 n) ↔ Bucketable (hashCode o) n := by
  rw [← bucket_nonneg_iff hn hmax]
  constructor
  · rintro ⟨partition, hnonneg, -, hall⟩
    have hpartition := (calcPartition_eq hn hmax o).symm.trans (hall o rfl)
    rwa [Except.ok.inj hpartition]
  · intro hnonneg
    refine ⟨_, hnonneg, ?_, fun o' ho' => ?_⟩
    · rw [toInt_ofNat_of_lt hmax]
      exact bucket_lt _ hn hmax
    · rw [calcPartition_eq hn hmax, ho']

end CalcPartition

/-! ## The hash fallback -/

section Fallback

variable {db : Database} {targets : List Text} {customerId : UUID}

/-- No region is recorded for the customer, or a blank one. -/
def FallsBack (db : Database) (customerId : UUID) : Prop :=
  ∀ regionName ∈ CustomerRegionService.findRegionNameByCustomerId db customerId,
    Text.isBlank regionName

/-- Balance statements on the customer go to an existing target, and so do those on every customer
with the same hash code that falls back. -/
def Routed (db : Database) (targets : List Text) (customerId : UUID) : Prop :=
  ∃ (i : ℕ) (hi : i < targets.length), ∀ customerId',
    customerId'.hashCode = customerId.hashCode → FallsBack db customerId' →
      RegionDiscoverAlgorithm.index customerId' targets.length = i ∧
        RegionDiscoverAlgorithm.doSharding db targets .customerBalance customerId' =
          .ok (targets.get ⟨i, hi⟩)

/-- The fallback is an access to the list of targets. -/
theorem doSharding_of_fallsBack (h : FallsBack db customerId) :
    RegionDiscoverAlgorithm.doSharding db targets .customerBalance customerId =
      if RegionDiscoverAlgorithm.index customerId targets.length < 0 then
        .error (.undeterminedShard customerId)
      else
        match targets[(RegionDiscoverAlgorithm.index customerId targets.length).toNat]? with
        | some region => .ok region
        | none => .error (.undeterminedShard customerId) := by
  unfold RegionDiscoverAlgorithm.doSharding
  rw [if_neg (by decide)]
  cases hregion : CustomerRegionService.findRegionNameByCustomerId db customerId with
  | none => rfl
  | some regionName =>
    have hblank := h regionName hregion
    exact if_pos hblank

theorem doSharding_of_index {i : ℕ} (h : FallsBack db customerId) (hi : i < targets.length)
    (hindex : RegionDiscoverAlgorithm.index customerId targets.length = i) :
    RegionDiscoverAlgorithm.doSharding db targets .customerBalance customerId =
      .ok (targets.get ⟨i, hi⟩) := by
  rw [doSharding_of_fallsBack h, hindex, if_neg (by omega), Int.toNat_natCast,
    List.getElem?_eq_getElem hi]
  rfl

theorem routed_iff (hn : 0 < targets.length) (hmax : targets.length < 2 ^ 31)
    (h : FallsBack db customerId) :
    Routed db targets customerId ↔ Bucketable customerId.hashCode targets.length := by
  rw [← bucket_nonneg_iff hn hmax]
  constructor
  · rintro ⟨i, hi, hall⟩
    have hindex : (HashBucket.bucket customerId.hashCode
        (BitVec.ofNat 32 targets.length)).toInt = i := (hall customerId rfl h).1
    rw [hindex]
    exact Int.natCast_nonneg i
  · intro hnonneg
    obtain ⟨i, hi⟩ := Int.eq_ofNat_of_zero_le hnonneg
    -- the index is what the list of targets is asked for
    have hlt : i < targets.length := by
      have hbucket := bucket_lt customerId.hashCode hn hmax
      rw [hi] at hbucket
      exact Int.ofNat_lt.mp hbucket
    refine ⟨i, hlt, fun customerId' hhash h' => ?_⟩
    -- the index depends on the hash code only
    have hindex : RegionDiscoverAlgorithm.index customerId' targets.length = i := by
      rw [← hi, ← hhash]
      rfl
    exact ⟨hindex, doSharding_of_index h' hlt hindex⟩

end Fallback

/-- Every object and every customer of a hash code is assigned to one of `n` partitions exactly if
the hash code is not the least `int` or `n` divides `2 ^ 31`. -/
theorem bucketed_iff (hash : BitVec 32) {n : ℕ} (hn : 0 < n) (hmax : n < 2 ^ 31) :
    (∀ (Object : Type) [Hashed Object] (o : Object), hashCode o = hash →
      (Assigned o (BitVec.ofNat 32 n) ↔ Bucketable hash n)) ∧
    ∀ (db : Database) (targets : List Text) (customerId : UUID), targets.length = n →
      customerId.hashCode = hash → FallsBack db customerId →
      (Routed db targets customerId ↔ Bucketable hash n) := by
  constructor
  · rintro Object _ o rfl
    exact assigned_iff hn hmax
  · rintro db targets customerId rfl rfl h
    exact routed_iff hn hmax h

theorem bucketed_iff_intMin_five :
    (∀ (Object : Type) [Hashed Object] (o : Object), hashCode o = BitVec.intMin 32 →
      (Assigned o (BitVec.ofNat 32 5) ↔ Bucketable (BitVec.intMin 32) 5)) ∧
    ∀ (db : Database) (targets : List Text) (customerId : UUID), targets.length = 5 →
      customerId.hashCode = BitVec.intMin 32 → FallsBack db customerId →
      (Routed db targets customerId ↔ Bucketable (BitVec.intMin 32) 5) :=
  bucketed_iff (BitVec.intMin 32) (by decide) (by decide)

/-- The id 00000000-0000-0000-0000-000080000000, whose hash code is the least `int`. -/
def lowest : UUID := ⟨0, 0x80000000⟩

/-- It is assigned to partition `-3` of five, and with three targets its shard cannot be
determined. -/
theorem not_bucketed_lowest :
    calcPartition lowest 5 = .ok (-3) ∧ ¬Assigned lowest 5 ∧
      RegionDiscoverAlgorithm.doSharding Database.empty
        ["r1".toList, "r2".toList, "r3".toList] .customerBalance lowest =
          .error (.undeterminedShard lowest) ∧
      ¬Routed Database.empty ["r1".toList, "r2".toList, "r3".toList] lowest := by
  have hpartition : calcPartition lowest 5 = .ok (-3) := by rfl
  have hshard : RegionDiscoverAlgorithm.doSharding Database.empty
      ["r1".toList, "r2".toList, "r3".toList] .customerBalance lowest =
        .error (.undeterminedShard lowest) := by rfl
  refine ⟨hpartition, ?_, hshard, ?_⟩
  · rintro ⟨partition, hnonneg, -, hall⟩
    have heq := Except.ok.inj (hpartition.symm.trans (hall lowest rfl))
    rw [← heq] at hnonneg
    exact absurd hnonneg (by decide)
  · rintro ⟨i, hi, hall⟩
    -- no region is recorded in an empty database
    have hnone : FallsBack Database.empty lowest := by
      intro regionName hregion
      cases hregion
    cases hshard.symm.trans (hall lowest rfl hnone).2

end HashBuckets
