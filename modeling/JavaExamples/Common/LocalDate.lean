import Mathlib.Data.Int.Order.Basic
import Mathlib.Order.Iterate
import Mathlib.Order.Monotone.Basic
import Mathlib.Tactic.Common

/-!
# Calendar dates

Dates of the proleptic Gregorian calendar, with the operations that walk along them.

* `LocalDate` — a date, with its validity as fields.
* `plusDay`, `plusMonth` — the next day, and the same day of the next month or the last one it has.
* `ordinal` — a number that orders dates as the calendar does.

The days and the months from a date on are pairwise distinct (`iterate_plusDay_injective`,
`iterate_plusMonth_injective`).
-/

/-- Every fourth year, except the centuries that are not divisible by 400. -/
def isLeapYear (year : ℤ) : Bool := year % 4 = 0 ∧ (year % 100 ≠ 0 ∨ year % 400 = 0)

def lengthOfMonth (year : ℤ) (month : ℕ) : ℕ :=
  if month = 2 then if isLeapYear year then 29 else 28
  else if month = 4 ∨ month = 6 ∨ month = 9 ∨ month = 11 then 30
  else 31

theorem lengthOfMonth_pos (year : ℤ) (month : ℕ) : 1 ≤ lengthOfMonth year month := by
  unfold lengthOfMonth
  split_ifs <;> omega

theorem lengthOfMonth_le (year : ℤ) (month : ℕ) : lengthOfMonth year month ≤ 31 := by
  unfold lengthOfMonth
  split_ifs <;> omega

/-- A date of the calendar. -/
@[ext]
structure LocalDate where
  year : ℤ
  month : ℕ
  day : ℕ
  month_pos : 1 ≤ month
  month_le : month ≤ 12
  day_pos : 1 ≤ day
  day_le : day ≤ lengthOfMonth year month
deriving DecidableEq

namespace LocalDate

/-- The first day of a month. -/
def firstOfMonth (year : ℤ) (month : ℕ) (hpos : 1 ≤ month) (hle : month ≤ 12) : LocalDate where
  year := year
  month := month
  day := 1
  month_pos := hpos
  month_le := hle
  day_pos := Nat.le_refl 1
  day_le := lengthOfMonth_pos year month

/-- `withDayOfMonth(1)`. -/
def withDayOfMonthOne (d : LocalDate) : LocalDate :=
  firstOfMonth d.year d.month d.month_pos d.month_le

/-- `plusDays(1)`. -/
def plusDay (d : LocalDate) : LocalDate :=
  if h : d.day < lengthOfMonth d.year d.month then
    { d with day := d.day + 1, day_pos := by omega, day_le := h }
  else if hm : d.month < 12 then
    firstOfMonth d.year (d.month + 1) (by omega) hm
  else
    firstOfMonth (d.year + 1) 1 (Nat.le_refl 1) (by omega)

/-- The day-of-month `day` in a month, or the month's last day if it is shorter. -/
def resolvePreviousValid (year : ℤ) (month day : ℕ) (hpos : 1 ≤ month) (hle : month ≤ 12)
    (hday : 1 ≤ day) : LocalDate where
  year := year
  month := month
  day := min day (lengthOfMonth year month)
  month_pos := hpos
  month_le := hle
  day_pos := le_min hday (lengthOfMonth_pos year month)
  day_le := min_le_right _ _

/-- `plusMonths(1)`. -/
def plusMonth (d : LocalDate) : LocalDate :=
  if hm : d.month < 12 then
    resolvePreviousValid d.year (d.month + 1) d.day (by omega) hm d.day_pos
  else
    resolvePreviousValid (d.year + 1) 1 d.day (Nat.le_refl 1) (by omega) d.day_pos

/-- A number that orders dates by year, then month, then day. -/
def ordinal (d : LocalDate) : ℤ := (d.year * 12 + d.month) * 32 + d.day

theorem ordinal_lt_plusDay (d : LocalDate) : d.ordinal < d.plusDay.ordinal := by
  have hday := d.day_le
  have hlen := lengthOfMonth_le d.year d.month
  have hmonth := d.month_le
  -- a new month or year outweighs the days that are lost: a month has fewer than 32
  unfold plusDay
  split_ifs <;> simp only [ordinal, firstOfMonth] <;> push_cast <;> omega

theorem ordinal_lt_plusMonth (d : LocalDate) : d.ordinal < d.plusMonth.ordinal := by
  have hday := d.day_le
  have hlen := lengthOfMonth_le d.year d.month
  have hmonth := d.month_le
  have hpos := d.day_pos
  unfold plusMonth
  split_ifs with hm
  · have hmin : 1 ≤ min d.day (lengthOfMonth d.year (d.month + 1)) :=
      le_min hpos (lengthOfMonth_pos _ _)
    simp only [ordinal, resolvePreviousValid]
    push_cast
    omega
  · have hmin : 1 ≤ min d.day (lengthOfMonth (d.year + 1) 1) :=
      le_min hpos (lengthOfMonth_pos _ _)
    simp only [ordinal, resolvePreviousValid]
    push_cast
    omega

/-- A walk that goes forward in the calendar meets no date twice. -/
theorem iterate_injective {next : LocalDate → LocalDate}
    (hnext : ∀ d, d.ordinal < (next d).ordinal) (start : LocalDate) :
    Function.Injective fun i => next^[i] start := by
  -- the numbers of the dates grow along the walk
  have hmono : StrictMono fun i => (next^[i] start).ordinal := by
    refine strictMono_nat_of_lt_succ fun i => ?_
    rw [Function.iterate_succ_apply']
    exact hnext _
  exact fun i j h => hmono.injective (congrArg ordinal h)

theorem iterate_plusDay_injective (start : LocalDate) :
    Function.Injective fun i => plusDay^[i] start :=
  iterate_injective ordinal_lt_plusDay start

theorem iterate_plusMonth_injective (start : LocalDate) :
    Function.Injective fun i => plusMonth^[i] start :=
  iterate_injective ordinal_lt_plusMonth start

end LocalDate
