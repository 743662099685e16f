import Mathlib.Data.Int.ConditionallyCompleteOrder
import Mathlib.Order.Lattice
import Mathlib.Order.SuccPred.Basic
import JavaExamples.Common.EpochDay

/-!
# The order of dates

Dates are ordered by year, month and day, and numbered in that order.

* `toEpochDay_strictMono`: the later date has the greater number.
-/

namespace LocalDate

theorem ordinal_injective : Function.Injective ordinal := by
  intro a b h
  have hdayA := a.day_le.trans (lengthOfMonth_le a.year a.month)
  have hdayB := b.day_le.trans (lengthOfMonth_le b.year b.month)
  obtain ⟨hposA, hposB⟩ := And.intro a.day_pos b.day_pos
  obtain ⟨hmonthA, hmonthA'⟩ := And.intro a.month_pos a.month_le
  obtain ⟨hmonthB, hmonthB'⟩ := And.intro b.month_pos b.month_le
  unfold ordinal at h
  ext
  · omega
  · omega
  · omega

/-- `compareTo`. -/
instance : LinearOrder LocalDate := LinearOrder.lift' ordinal ordinal_injective

theorem lt_iff_ordinal_lt {a b : LocalDate} : a < b ↔ a.ordinal < b.ordinal := Iff.rfl

/-- The number of the day in its year. -/
def dayOfYear (d : LocalDate) : ℤ :=
  daysBeforeMonth d.month + (d.day - 1) - leapDays (isLeapYear d.year) d.month

theorem toEpochDay_eq (d : LocalDate) :
    d.toEpochDay = daysBeforeYear d.year + d.dayOfYear - 719528 := by
  unfold toEpochDay dayOfYear
  ring

/-- The days before a later month include those of an earlier one. -/
theorem daysBeforeMonth_add_le (year : ℤ) {m n : ℕ} (hm : 1 ≤ m) (hmn : m < n) (hn : n ≤ 12) :
    daysBeforeMonth m - leapDays (isLeapYear year) m + lengthOfMonth year m ≤
      daysBeforeMonth n - leapDays (isLeapYear year) n := by
  induction n, hmn using Nat.le_induction with
  | base => exact (daysBeforeMonth_succ year hm hn).ge
  | succ n hmn ih =>
    have hprevious := ih (by omega)
    have hnext := daysBeforeMonth_succ year (by omega : 1 ≤ n) hn
    omega

theorem dayOfYear_nonneg (d : LocalDate) : 0 ≤ d.dayOfYear := by
  have hday := d.day_pos
  have hstart : ∀ leap : Bool, ∀ m < 13, 1 ≤ m → 0 ≤ daysBeforeMonth m - leapDays leap m := by
    decide
  have hmonth := hstart (isLeapYear d.year) d.month (Nat.lt_succ_of_le d.month_le) d.month_pos
  unfold dayOfYear
  omega

theorem dayOfYear_lt (d : LocalDate) :
    d.dayOfYear < if isLeapYear d.year then 366 else 365 := by
  have hday := d.day_le
  have hend : ∀ leap : Bool, ∀ m < 13, 1 ≤ m → daysBeforeMonth m - leapDays leap m +
      ((if m = 2 then if leap then 29 else 28
        else if m = 4 ∨ m = 6 ∨ m = 9 ∨ m = 11 then 30 else 31 : ℕ) : ℤ) ≤
      if leap then 366 else 365 := by decide
  have hmonth := hend (isLeapYear d.year) d.month (Nat.lt_succ_of_le d.month_le) d.month_pos
  unfold dayOfYear
  unfold lengthOfMonth at hday
  omega

theorem daysBeforeYear_strictMono : StrictMono daysBeforeYear := by
  apply strictMono_int_of_lt_succ
  intro year
  rw [daysBeforeYear_succ]
  split_ifs <;> omega

theorem toEpochDay_strictMono : StrictMono toEpochDay := by
  intro a b h
  have hlt := lt_iff_ordinal_lt.mp h
  have hdayA := a.day_le
  have hdayB := b.day_le.trans (lengthOfMonth_le b.year b.month)
  obtain ⟨hposA, hposB⟩ := And.intro a.day_pos b.day_pos
  obtain ⟨hmonthA, hmonthB⟩ := And.intro a.month_pos b.month_le
  unfold ordinal at hlt
  rcases lt_trichotomy a.year b.year with hyear | hyear | hyear
  · -- the year of `a` is over before `b`
    have hover : daysBeforeYear (a.year + 1) ≤ daysBeforeYear b.year :=
      daysBeforeYear_strictMono.monotone hyear
    have hlength := daysBeforeYear_succ a.year
    have hbefore := a.dayOfYear_lt
    have hnonneg := b.dayOfYear_nonneg
    rw [toEpochDay_eq, toEpochDay_eq]
    omega
  · -- in one year the months decide, and in one month the days
    rcases lt_trichotomy a.month b.month with hmonth | hmonth | hmonth
    · -- so is its month, in the same year
      have hover := daysBeforeMonth_add_le a.year a.month_pos hmonth b.month_le
      rw [toEpochDay_eq, toEpochDay_eq, dayOfYear, dayOfYear, ← hyear]
      omega
    · rw [toEpochDay_eq, toEpochDay_eq, dayOfYear, dayOfYear, ← hyear, ← hmonth]
      omega
    · omega
  · omega

theorem toEpochDay_injective : Function.Injective toEpochDay := toEpochDay_strictMono.injective

end LocalDate
