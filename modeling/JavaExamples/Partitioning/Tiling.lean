import Mathlib.Data.Int.ConditionallyCompleteOrder
import Mathlib.Data.Nat.SuccPred
import Mathlib.Data.Prod.Lex
import Mathlib.Order.CompletePartialOrder
import Mathlib.Order.SuccPred.IntervalSucc
import JavaExamples.Common.IsoDateTime
import JavaExamples.Partitioning.SkinPrice

/-!
# Partitions in a row

`createPartition` of the two DAOs names the bounds of a partition by text: the first date, and the
last nanosecond of the day or month. The database rounds the latter up to the next midnight, which
is where the next partition begins.

* `rows_byDay`, `rows_byMonth`: the bounds of a partition in microseconds.
* `tile_of_bounds`: partitions whose bounds follow on each other tile the time they cover.
* `partitions_tile`: the partitions of days in a row, and of months in a row, do.
-/

namespace Partitioning

/-- `getCode`, the value of the column `IND_TYPE`. -/
def SkinPriceType.code : SkinPriceType → ℤ
  | .RAW => 1
  | .DAY_SUMMARIZED => 2

/-- A partition by range of `(DAT_OCCURRENCE, IND_TYPE)`, with timestamps in microseconds. -/
structure RangePartition where
  table : Text
  name : Text
  lower : ℤ × ℤ
  upper : ℤ × ℤ
deriving DecidableEq

/-- The rows it takes: from the lower bound on and below the upper one, in lexicographic order. -/
def RangePartition.rows (partition : RangePartition) : Set (ℤ ×ₗ ℤ) :=
  Set.Ico (toLex partition.lower) (toLex partition.upper)

/-! ## The functions of the database -/

section Create

-- how the database reads the text of a timestamp
variable (timestampIn : Text → Option ℤ)

/-- `CREATE TABLE <name> PARTITION OF <table> FOR VALUES FROM (<dateFrom>, <type>) TO (<dateTo>,
<type>)`, and the text that the functions return. -/
def createRangePartition (table namePrefix dateFrom dateTo : Text) (type : ℤ) :
    Option (RangePartition × Text) := do
  let name := namePrefix ++ Text.ofInt type ++
    '_' :: dateFrom.map fun c => if c = '-' then '_' else c
  let lower ← timestampIn dateFrom
  let upper ← timestampIn dateTo
  return (⟨table, name, (lower, type), (upper, type)⟩, "partition created: ".toList ++ name)

def createSkinSaleByDayPartition : Text → Text → ℤ → Option (RangePartition × Text) :=
  createRangePartition timestampIn "BSK_SKIN_SALE_HISTORY_BY_DAY".toList
    "BSK_SKIN_SALE_HISTORY_BY_DAY".toList

def createSkinSalePartition : Text → Text → ℤ → Option (RangePartition × Text) :=
  createRangePartition timestampIn "BSK_SKIN_SALE_HISTORY".toList "BSK_SKIN_SALE_HISTORY_".toList

/-! ## The DAOs -/

def SkinPriceByDayDAOPg.createPartition (date : LocalDate) (type : SkinPriceType) :
    Option (RangePartition × Text) :=
  createSkinSaleByDayPartition timestampIn date.toString
    (LocalDateTime.atStartOfDay date.plusDay).minusNano.toString type.code

def SkinPriceDAOPg.createPartition (date : LocalDate) (type : SkinPriceType) :
    Option (RangePartition × Text) :=
  createSkinSalePartition timestampIn date.withDayOfMonthOne.toString
    (LocalDateTime.atStartOfDay date.lastDayOfMonth.plusDay).minusNano.toString type.code

end Create

/-! ## Time -/

/-- The microsecond `t` lies on the day `d`. -/
def OnDate (t : ℤ) (d : LocalDate) : Prop := d.midnight ≤ t ∧ t < d.midnight + 86400000000

/-- The microsecond `t` lies on some day of the month of `d`. -/
def InMonth (t : ℤ) (d : LocalDate) : Prop :=
  ∃ date : LocalDate, OnDate t date ∧ date.year = d.year ∧ date.month = d.month

/-- The first `n` partitions do not overlap, and a raw row of the `i`-th period, which holds the
timestamps `covers i`, belongs to the `i`-th of them and to no other. -/
def Tile (n : ℕ) (partitions : ℕ → RangePartition) (covers : ℕ → ℤ → Prop) : Prop :=
  (∀ i < n, ∀ j < n, i ≠ j → Disjoint (partitions i).rows (partitions j).rows) ∧
    ∀ (t : ℤ), ∀ i < n, covers i t → ∀ j < n,
      toLex (t, SkinPriceType.RAW.code) ∈ (partitions j).rows ↔ j = i

theorem midnight_plusDay (d : LocalDate) : d.plusDay.midnight = d.midnight + 86400000000 := by
  rw [LocalDate.midnight, LocalDate.midnight, LocalDate.toEpochDay_plusDay]
  ring

/-- The days of a month lie between its first day and the first of the next one. -/
theorem InMonth.bounds {t : ℤ} {d : LocalDate} (h : InMonth t d) :
    d.withDayOfMonthOne.midnight ≤ t ∧ t < d.firstOfNextMonth.midnight := by
  obtain ⟨date, ⟨hlow, hhigh⟩, hyear, hmonth⟩ := h
  have hfirst : d.withDayOfMonthOne = date.withDayOfMonthOne := by
    ext
    · exact hyear.symm
    · exact hmonth.symm
    · rfl
  have hnext : d.firstOfNextMonth = date.firstOfNextMonth := by
    simp only [LocalDate.firstOfNextMonth, hyear, hmonth]
  have hday := date.day_le
  have hday' := date.day_pos
  have hfirstDay := date.toEpochDay_withDayOfMonthOne
  have hnextDay := date.toEpochDay_firstOfNextMonth
  rw [hfirst, hnext]
  simp only [LocalDate.midnight] at hlow hhigh ⊢
  constructor
  · omega
  · omega

/-! ## The bounds -/

variable {timestampIn : Text → Option ℤ} {date : LocalDate} {partition : RangePartition}

/-- The last nanosecond of a day is rounded to the start of the next one. -/
theorem timestampIn_lastNano (hread : ReadsIsoText timestampIn) {t : ℤ}
    (h : timestampIn (LocalDateTime.atStartOfDay date.plusDay).minusNano.toString = some t) :
    t = date.plusDay.midnight := by
  rw [LocalDateTime.minusNano_atStartOfDay_plusDay] at h
  have hnearest := hread.dateTime _ _ h
  dsimp only at hnearest
  have hbounds : |1000 * (t - date.midnight) - ((86399999999999 : ℕ) : ℤ)| ≤ 500 := by omega
  rw [abs_le] at hbounds
  rw [midnight_plusDay]
  omega

/-- A created partition goes from the one bound to the other. -/
theorem rows_createRangePartition {table namePrefix dateFrom dateTo : Text} {type lower upper : ℤ}
    (hlower : ∀ t, timestampIn dateFrom = some t → t = lower)
    (hupper : ∀ t, timestampIn dateTo = some t → t = upper)
    (h : (createRangePartition timestampIn table namePrefix dateFrom dateTo type).map Prod.fst =
      some partition) :
    partition.rows = Set.Ico (toLex (lower, type)) (toLex (upper, type)) := by
  obtain ⟨⟨created, text⟩, hcreated, rfl⟩ := Option.map_eq_some_iff.mp h
  simp only [createRangePartition, bind, Option.bind_eq_some_iff] at hcreated
  obtain ⟨from', hfrom, to', hto, heq⟩ := hcreated
  obtain ⟨rfl, -⟩ := Prod.mk.inj (Option.some.inj heq)
  rw [RangePartition.rows, hlower from' hfrom, hupper to' hto]

theorem rows_byDay (hread : ReadsIsoText timestampIn) {type : SkinPriceType}
    (h : (SkinPriceByDayDAOPg.createPartition timestampIn date type).map Prod.fst =
      some partition) :
    partition.rows =
      Set.Ico (toLex (date.midnight, type.code)) (toLex (date.plusDay.midnight, type.code)) :=
  rows_createRangePartition (fun t ht => hread.date date t ht)
    (fun _ ht => timestampIn_lastNano hread ht) h

theorem rows_byMonth (hread : ReadsIsoText timestampIn) {type : SkinPriceType}
    (h : (SkinPriceDAOPg.createPartition timestampIn date type).map Prod.fst = some partition) :
    partition.rows = Set.Ico (toLex (date.withDayOfMonthOne.midnight, type.code))
      (toLex (date.plusMonth.withDayOfMonthOne.midnight, type.code)) := by
  rw [LocalDate.withDayOfMonthOne_plusMonth, ← LocalDate.plusDay_lastDayOfMonth]
  exact rows_createRangePartition (fun t ht => hread.date date.withDayOfMonthOne t ht)
    (fun _ ht => timestampIn_lastNano hread ht) h

/-! ## Tiling -/

/-- Partitions tile where each begins at the bound where the one before it ends. -/
theorem tile_of_bounds {n : ℕ} {partitions : ℕ → RangePartition} {covers : ℕ → ℤ → Prop}
    (bound : ℕ → ℤ) (hmono : Monotone bound)
    (hrows : ∀ i < n, (partitions i).rows = Set.Ico (toLex (bound i, SkinPriceType.RAW.code))
      (toLex (bound (i + 1), SkinPriceType.RAW.code)))
    (hcovers : ∀ i t, covers i t → bound i ≤ t ∧ t < bound (i + 1)) :
    Tile n partitions covers := by
  have hlex : Monotone fun i => toLex (bound i, SkinPriceType.RAW.code) :=
    fun i j hij => Prod.Lex.toLex_mono (Prod.mk_le_mk.mpr ⟨hmono hij, le_refl _⟩)
  have hdisjoint : ∀ i < n, ∀ j < n, i ≠ j →
      Disjoint (partitions i).rows (partitions j).rows := by
    intro i hi j hj hij
    rw [hrows i hi, hrows j hj]
    exact hlex.pairwise_disjoint_on_Ico_succ hij
  refine ⟨hdisjoint, fun t i hi ht j hj => ?_⟩
  -- a raw row lies between two bounds just if its timestamp does
  have hmem : toLex (t, SkinPriceType.RAW.code) ∈ (partitions i).rows := by
    obtain ⟨hlow, hhigh⟩ := hcovers i t ht
    rw [hrows i hi, Set.mem_Ico, Prod.Lex.toLex_le_toLex, Prod.Lex.toLex_lt_toLex]
    refine ⟨?_, Or.inl hhigh⟩
    rcases hlow.lt_or_eq with hlt | heq
    · exact Or.inl hlt
    · exact Or.inr ⟨heq, le_refl _⟩
  constructor
  · intro hmem'
    by_contra hne
    exact Set.disjoint_left.mp (hdisjoint j hj i hi hne) hmem' hmem
  · rintro rfl
    exact hmem

/-- The partitions of `n` days in a row from any date on, and those of `n` months in a row, tile. -/
theorem partitions_tile (hread : ReadsIsoText timestampIn) (start : LocalDate) (n : ℕ)
    (partitions : ℕ → RangePartition) :
    ((∀ i < n, (SkinPriceByDayDAOPg.createPartition timestampIn (LocalDate.plusDay^[i] start)
        .RAW).map Prod.fst = some (partitions i)) →
      Tile n partitions fun i t => OnDate t (LocalDate.plusDay^[i] start)) ∧
    ((∀ i < n, (SkinPriceDAOPg.createPartition timestampIn (LocalDate.plusMonth^[i] start)
        .RAW).map Prod.fst = some (partitions i)) →
      Tile n partitions fun i t => InMonth t (LocalDate.plusMonth^[i] start)) := by
  constructor
  · intro hcreated
    have hnext : ∀ i, (LocalDate.plusDay^[i + 1] start).midnight =
        (LocalDate.plusDay^[i] start).midnight + 86400000000 := by
      intro i
      rw [Function.iterate_succ_apply', midnight_plusDay]
    apply tile_of_bounds fun i => (LocalDate.plusDay^[i] start).midnight
    · refine monotone_nat_of_le_succ fun i => ?_
      rw [hnext]
      omega
    · intro i hi
      rw [rows_byDay hread (hcreated i hi), Function.iterate_succ_apply']
    · intro i t ht
      rw [hnext]
      exact ht
  · intro hcreated
    apply tile_of_bounds fun i => (LocalDate.plusMonth^[i] start).withDayOfMonthOne.midnight
    · refine monotone_nat_of_le_succ fun i => ?_
      rw [Function.iterate_succ_apply', LocalDate.withDayOfMonthOne_plusMonth]
      have hfirst := (LocalDate.plusMonth^[i] start).toEpochDay_withDayOfMonthOne
      have hfollowing := (LocalDate.plusMonth^[i] start).toEpochDay_firstOfNextMonth
      have hday := (LocalDate.plusMonth^[i] start).day_le
      simp only [LocalDate.midnight]
      omega
    · intro i hi
      rw [rows_byMonth hread (hcreated i hi), Function.iterate_succ_apply']
    · intro i t ht
      rw [Function.iterate_succ_apply', LocalDate.withDayOfMonthOne_plusMonth]
      exact ht.bounds

/-- The day before the last of February in a leap year. -/
def leapEve : LocalDate := ⟨2024, 2, 28, by decide, by decide, by decide, by decide⟩

/-- The partitions of the three days from then on. -/
def leapPartition (i : ℕ) : RangePartition where
  table := "BSK_SKIN_SALE_HISTORY_BY_DAY".toList
  name := (["BSK_SKIN_SALE_HISTORY_BY_DAY1_2024_02_28", "BSK_SKIN_SALE_HISTORY_BY_DAY1_2024_02_29",
    "BSK_SKIN_SALE_HISTORY_BY_DAY1_2024_03_01"].getD i "").toList
  lower := ((19781 + i) * 86400000000, 1)
  upper := ((19782 + i) * 86400000000, 1)

/-- The partitions of its month and the two that follow. -/
def leapMonthPartition (i : ℕ) : RangePartition where
  table := "BSK_SKIN_SALE_HISTORY".toList
  name := (["BSK_SKIN_SALE_HISTORY_1_2024_02_01", "BSK_SKIN_SALE_HISTORY_1_2024_03_01",
    "BSK_SKIN_SALE_HISTORY_1_2024_04_01"].getD i "").toList
  lower := ([19754, 19783, 19814].getD i 0 * 86400000000, 1)
  upper := ([19783, 19814, 19844].getD i 0 * 86400000000, 1)

/-- Over the last of February, days and months. -/
theorem partitions_tile_leapEve :
    (Tile 3 leapPartition fun i t => OnDate t (LocalDate.plusDay^[i] leapEve)) ∧
      Tile 3 leapMonthPartition fun i t => InMonth t (LocalDate.plusMonth^[i] leapEve) := by
  constructor
  · refine (partitions_tile IsoTimestamp.readsIsoText_isoTimestamp leapEve 3 leapPartition).1 ?_
    decide +kernel
  · apply (partitions_tile IsoTimestamp.readsIsoText_isoTimestamp leapEve 3 leapMonthPartition).2
    decide +kernel

end Partitioning
