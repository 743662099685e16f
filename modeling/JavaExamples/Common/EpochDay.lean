import Mathlib.Tactic.LinearCombination
import Mathlib.Tactic.Ring
import JavaExamples.Common.LocalDate

/-!
# Days of the calendar in a row

The number of a date in the sequence of all days, and the dates around it.

* `toEpochDay_firstOfNextMonth`: the first of the next month is as many days later as are left of
  the month.
* `toEpochDay_plusDay`: the next date has the next number.
* `minusDay_plusDay`: going back a day after going on a day.
* `plusDay_lastDayOfMonth`: after the last day of a month comes the first of the next.
-/

namespace LocalDate

/-- The days of the years before `year`, counted from the year 0. -/
def daysBeforeYear (year : ℤ) : ℤ :=
  365 * year + (year + 3) / 4 - (year + 99) / 100 + (year + 399) / 400

/-- The days of a year before `month`, where February is taken to have 30 days and `leapDays` takes
back what it has fewer. -/
def daysBeforeMonth (month : ℕ) : ℤ := (367 * month - 362) / 12

def leapDays (leap : Bool) (month : ℕ) : ℤ := if month > 2 then if leap then 1 else 2 else 0

/-- `toEpochDay`: the number of the day, counted from the first day of 1970. -/
def toEpochDay (d : LocalDate) : ℤ :=
  daysBeforeYear d.year + daysBeforeMonth d.month + (d.day - 1)
    - leapDays (isLeapYear d.year) d.month - 719528

/-- A year has 365 days, or 366. -/
theorem daysBeforeYear_succ (year : ℤ) :
    daysBeforeYear (year + 1) = daysBeforeYear year + if isLeapYear year then 366 else 365 := by
  unfold daysBeforeYear isLeapYear
  split
  · next hleap =>
    simp only [decide_eq_true_eq] at hleap
    omega
  · next hleap =>
    simp only [decide_eq_true_eq] at hleap
    omega

/-- The days before a month and before the next one differ by its length. -/
theorem daysBeforeMonth_succ (year : ℤ) {month : ℕ} (hpos : 1 ≤ month) (hlt : month < 12) :
    daysBeforeMonth (month + 1) - leapDays (isLeapYear year) (month + 1) =
      daysBeforeMonth month - leapDays (isLeapYear year) month + lengthOfMonth year month := by
  have hall : ∀ leap : Bool, ∀ m < 12, 1 ≤ m →
      daysBeforeMonth (m + 1) - leapDays leap (m + 1) = daysBeforeMonth m - leapDays leap m +
        ((if m = 2 then if leap then 29 else 28
          else if m = 4 ∨ m = 6 ∨ m = 9 ∨ m = 11 then 30 else 31 : ℕ) : ℤ) := by decide
  exact hall (isLeapYear year) month hlt hpos

theorem one_le_twelve : 1 ≤ 12 := by decide

theorem twelve_le_twelve : 12 ≤ 12 := Nat.le_refl 12

/-- The first day of the month after that of `d`. -/
def firstOfNextMonth (d : LocalDate) : LocalDate :=
  if hm : d.month < 12 then firstOfMonth d.year (d.month + 1) (Nat.succ_pos d.month) hm
  else firstOfMonth (d.year + 1) 1 Nat.one_pos one_le_twelve

/-- A day and the first of the next month are apart by what is left of the month. -/
theorem toEpochDay_firstOfNextMonth (d : LocalDate) :
    d.firstOfNextMonth.toEpochDay =
      d.toEpochDay + (lengthOfMonth d.year d.month - d.day + 1) := by
  by_cases hm : d.month < 12
  · have hmonth := daysBeforeMonth_succ d.year d.month_pos hm
    rw [firstOfNextMonth, dif_pos hm]
    show daysBeforeYear d.year + daysBeforeMonth (d.month + 1) + ((1 : ℕ) - 1)
      - leapDays (isLeapYear d.year) (d.month + 1) - 719528 = _
    rw [toEpochDay]
    push_cast
    linear_combination hmonth
  · have hyear := daysBeforeYear_succ d.year
    have hdec : d.month = 12 := by
      have hle := d.month_le
      omega
    rw [firstOfNextMonth, dif_neg hm]
    show daysBeforeYear (d.year + 1) + daysBeforeMonth 1 + ((1 : ℕ) - 1)
      - leapDays (isLeapYear (d.year + 1)) 1 - 719528 = _
    rw [toEpochDay, hyear, hdec]
    cases isLeapYear d.year with
    | true => simp [daysBeforeMonth, leapDays, lengthOfMonth]; ring
    | false => simp [daysBeforeMonth, leapDays, lengthOfMonth]; ring

/-! ## The next day -/

theorem plusDay_of_lt {d : LocalDate} (h : d.day < lengthOfMonth d.year d.month)
    (hpos : 1 ≤ d.day + 1) :
    d.plusDay = { d with day := d.day + 1, day_pos := hpos, day_le := h } := by
  rw [plusDay, dif_pos h]

theorem plusDay_of_eq {d : LocalDate} (h : d.day = lengthOfMonth d.year d.month) :
    d.plusDay = d.firstOfNextMonth := by
  rw [plusDay, dif_neg (by omega), firstOfNextMonth]

theorem toEpochDay_plusDay (d : LocalDate) : d.plusDay.toEpochDay = d.toEpochDay + 1 := by
  rcases Nat.lt_or_eq_of_le d.day_le with hlt | heq
  · rw [plusDay_of_lt hlt (Nat.succ_pos d.day), toEpochDay, toEpochDay]
    push_cast
    ring
  · rw [plusDay_of_eq heq, toEpochDay_firstOfNextMonth, ← heq]
    ring

/-- `minusDays(1)`. -/
def minusDay (d : LocalDate) : LocalDate :=
  if h : 1 < d.day then
    { d with
      day := d.day - 1
      day_pos := by omega
      day_le := (Nat.sub_le d.day 1).trans d.day_le }
  else if hm : 1 < d.month then
    { year := d.year
      month := d.month - 1
      day := lengthOfMonth d.year (d.month - 1)
      month_pos := by omega
      month_le := (Nat.sub_le d.month 1).trans d.month_le
      day_pos := lengthOfMonth_pos _ _
      day_le := Nat.le_refl _ }
  else
    { year := d.year - 1
      month := 12
      day := lengthOfMonth (d.year - 1) 12
      month_pos := one_le_twelve
      month_le := twelve_le_twelve
      day_pos := lengthOfMonth_pos _ _
      day_le := Nat.le_refl _ }

theorem minusDay_plusDay (d : LocalDate) : d.plusDay.minusDay = d := by
  have hday := d.day_pos
  have hmonth := d.month_pos
  have hle := d.month_le
  rcases Nat.lt_or_eq_of_le d.day_le with hlt | heq
  · rw [plusDay_of_lt hlt (Nat.succ_pos d.day), minusDay, dif_pos (by dsimp only; omega)]
    ext
    · rfl
    · rfl
    · exact Nat.add_sub_cancel d.day 1
  · -- the first of a month goes back to the end of the month before
    rw [plusDay_of_eq heq, firstOfNextMonth]
    by_cases hm : d.month < 12
    · rw [dif_pos hm, minusDay, dif_neg (by simp [firstOfMonth]),
        dif_pos (by simp [firstOfMonth]; omega)]
      ext
      · rfl
      · exact Nat.add_sub_cancel d.month 1
      · simp [firstOfMonth, heq]
    · rw [dif_neg hm, minusDay, dif_neg (by simp [firstOfMonth]),
        dif_neg (by simp [firstOfMonth])]
      have hdec : d.month = 12 := by omega
      ext
      · simp [firstOfMonth]
      · exact hdec.symm
      · simp [firstOfMonth, heq, hdec]

/-! ## The last day of the month -/

/-- `with(lastDayOfMonth())`. -/
def lastDayOfMonth (d : LocalDate) : LocalDate where
  year := d.year
  month := d.month
  day := lengthOfMonth d.year d.month
  month_pos := d.month_pos
  month_le := d.month_le
  day_pos := lengthOfMonth_pos _ _
  day_le := Nat.le_refl _

theorem plusDay_lastDayOfMonth (d : LocalDate) :
    d.lastDayOfMonth.plusDay = d.firstOfNextMonth := plusDay_of_eq rfl

theorem toEpochDay_withDayOfMonthOne (d : LocalDate) :
    d.withDayOfMonthOne.toEpochDay = d.toEpochDay - (d.day - 1) := by
  show daysBeforeYear d.year + daysBeforeMonth d.month + ((1 : ℕ) - 1)
    - leapDays (isLeapYear d.year) d.month - 719528 = _
  rw [toEpochDay]
  push_cast
  ring

/-- A month on from any day of a month, the month is the next one. -/
theorem withDayOfMonthOne_plusMonth (d : LocalDate) :
    d.plusMonth.withDayOfMonthOne = d.firstOfNextMonth := by
  rw [plusMonth, firstOfNextMonth]
  by_cases hm : d.month < 12
  · rw [dif_pos hm, dif_pos hm]
    rfl
  · rw [dif_neg hm, dif_neg hm]
    rfl

end LocalDate
