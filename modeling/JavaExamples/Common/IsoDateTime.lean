import JavaExamples.Common.EpochDay
import JavaExamples.Common.Text

/-!
# Date-times and their ISO texts

Date-times with nanoseconds, the texts that `toString` gives of dates and date-times, and what a
database with microseconds makes of these texts.

* `minusNano_atStartOfDay_plusDay`: a nanosecond before the start of the next day.
* `ReadsIsoText`: a reader of timestamps that, where it accepts such a text, returns the start of
  the day or the nearest microsecond.
* `readsIsoText_isoTimestamp`: `isoTimestamp`, for years of four digits, is one.
-/

/-- The number of a day's first microsecond. -/
def LocalDate.midnight (d : LocalDate) : ℤ := d.toEpochDay * 86400000000

/-- A date and the nanoseconds since its start. -/
structure LocalDateTime where
  date : LocalDate
  nanoOfDay : ℕ
  nanoOfDay_lt : nanoOfDay < 86400000000000

namespace LocalDateTime

/-- `LocalDate.atStartOfDay`. -/
def atStartOfDay (date : LocalDate) : LocalDateTime := ⟨date, 0, by omega⟩

/-- `minusNanos(1)`. -/
def minusNano (dt : LocalDateTime) : LocalDateTime :=
  if 0 < dt.nanoOfDay then
    ⟨dt.date, dt.nanoOfDay - 1, (Nat.sub_le _ 1).trans_lt dt.nanoOfDay_lt⟩
  else ⟨dt.date.minusDay, 86399999999999, by omega⟩

theorem minusNano_atStartOfDay_plusDay (date : LocalDate) :
    (atStartOfDay date.plusDay).minusNano = ⟨date, 86399999999999, by omega⟩ := by
  rw [minusNano, if_neg (by simp [atStartOfDay])]
  simp only [atStartOfDay, LocalDate.minusDay_plusDay]

end LocalDateTime

/-! ## Texts -/

/-- The decimal digits of `n`, filled up with zeros. -/
def Text.pad (width n : ℕ) : Text := (Nat.toDigits 10 n).leftpad width '0'

namespace LocalDate

/-- Years of other than four digits have a sign. -/
def yearText (year : ℤ) : Text :=
  if year < 0 then '-' :: Text.pad 4 year.natAbs
  else if year > 9999 then '+' :: Nat.toDigits 10 year.natAbs
  else Text.pad 4 year.natAbs

/-- `LocalDate.toString`. -/
def toString (d : LocalDate) : Text :=
  yearText d.year ++ '-' :: (Text.pad 2 d.month ++ '-' :: Text.pad 2 d.day)

end LocalDate

namespace LocalDateTime

/-- The digits of a second's fraction: three, six or nine. -/
def fractionText (nano : ℕ) : Text :=
  if nano % 1000000 = 0 then Text.pad 3 (nano / 1000000)
  else if nano % 1000 = 0 then Text.pad 6 (nano / 1000)
  else Text.pad 9 nano

/-- `LocalTime.toString` of a time with whole minutes `minutes` and further nanoseconds. -/
def secondText (second nano : ℕ) : Text :=
  if nano = 0 then Text.pad 2 second else Text.pad 2 second ++ '.' :: fractionText nano

/-- `LocalTime.toString`, which leaves out seconds and fractions that are zero. -/
def timeText (nanoOfDay : ℕ) : Text :=
  let minute := nanoOfDay / 60000000000
  let rest := nanoOfDay % 60000000000
  let text := Text.pad 2 (minute / 60) ++ ':' :: Text.pad 2 (minute % 60)
  if rest = 0 then text
  else text ++ ':' :: secondText (rest / 1000000000) (rest % 1000000000)

/-- `LocalDateTime.toString`. -/
def toString (dt : LocalDateTime) : Text :=
  dt.date.toString ++ 'T' :: timeText dt.nanoOfDay

end LocalDateTime

/-! ## Timestamps -/

/-- A reader of timestamps returns, if anything, the start of the day for a date, and for a
date-time a nearest microsecond. -/
structure ReadsIsoText (timestampIn : Text → Option ℤ) : Prop where
  date : ∀ (d : LocalDate) (t : ℤ), timestampIn d.toString = some t → t = d.midnight
  dateTime : ∀ (dt : LocalDateTime) (t : ℤ), timestampIn dt.toString = some t →
    2 * |1000 * (t - dt.date.midnight) - dt.nanoOfDay| ≤ 1000

namespace IsoTimestamp

/-- The value of a text of digits. -/
def number (s : Text) : Option ℕ :=
  if s ≠ [] ∧ s.all Char.isDigit then some (Nat.ofDigitChars 10 s 0) else none

def readDate (s : Text) : Option LocalDate :=
  match s.splitOn '-' with
  | [y, m, d] => do
    let year ← number y
    let month ← number m
    let day ← number d
    if h : (1 ≤ month ∧ month ≤ 12) ∧ 1 ≤ day ∧ day ≤ lengthOfMonth year month then
      some ⟨year, month, day, h.1.1, h.1.2, h.2.1, h.2.2⟩
    else none
  | _ => none

/-- Microseconds from seconds with up to nine decimals. -/
def readSecond (s : Text) : Option ℕ :=
  match Text.cut '.' s with
  | none => do
    let second ← number s
    return second * 1000000
  | some (second, fraction) => do
    let second ← number second
    let digits ← number fraction
    return second * 1000000 + (digits * 10 ^ (9 - fraction.length) + 500) / 1000

def readTime (s : Text) : Option ℕ :=
  match s.splitOn ':' with
  | [h, m] => do
    let hour ← number h
    let minute ← number m
    return (hour * 60 + minute) * 60000000
  | [h, m, s] => do
    let hour ← number h
    let minute ← number m
    let micros ← readSecond s
    return (hour * 60 + minute) * 60000000 + micros
  | _ => none

end IsoTimestamp

/-- The timestamp of an ISO text, in microseconds. -/
def isoTimestamp (text : Text) : Option ℤ :=
  match Text.cut 'T' text with
  | none => LocalDate.midnight <$> IsoTimestamp.readDate text
  | some (date, time) => do
    let date ← IsoTimestamp.readDate date
    let micros ← IsoTimestamp.readTime time
    return date.midnight + micros

namespace IsoTimestamp

theorem isDigit_of_mem_pad {width n : ℕ} {c : Char} (h : c ∈ Text.pad width n) : c.isDigit := by
  rw [Text.pad, List.leftpad, List.mem_append] at h
  rcases h with hzero | hdigit
  · rw [List.eq_of_mem_replicate hzero]
    decide
  · exact Nat.isDigit_of_mem_toDigits (by decide) (by decide) hdigit

/-- No other character stands among digits. -/
theorem notMem_pad {width n : ℕ} {c : Char} (h : c.isDigit = false) : c ∉ Text.pad width n := by
  intro hmem
  rw [isDigit_of_mem_pad hmem] at h
  cases h

theorem pad_ne_nil (width n : ℕ) : Text.pad width n ≠ [] := by
  intro h
  rw [Text.pad, List.leftpad, List.append_eq_nil_iff] at h
  exact Nat.toDigits_ne_nil h.2

/-- Zeros in front do not change the number. -/
theorem number_pad (width n : ℕ) : number (Text.pad width n) = some n := by
  have hdigits : (Text.pad width n).all Char.isDigit = true :=
    List.all_eq_true.mpr fun c hc => isDigit_of_mem_pad hc
  rw [number, if_pos ⟨pad_ne_nil width n, hdigits⟩, Text.pad,
    List.leftpad, Nat.ofDigitChars_append, Nat.ofDigitChars_replicate_zero, Nat.mul_zero,
    Nat.ofDigitChars_ten_toDigits]

theorem notMem_yearText {c : Char} (h : c.isDigit = false) (hminus : c ≠ '-') (hplus : c ≠ '+')
    (year : ℤ) : c ∉ LocalDate.yearText year := by
  unfold LocalDate.yearText
  intro hmem
  split at hmem
  · rcases List.mem_cons.mp hmem with rfl | hmem
    · exact hminus rfl
    · exact notMem_pad h hmem
  · split at hmem
    · rcases List.mem_cons.mp hmem with rfl | hmem
      · exact hplus rfl
      · rw [Nat.isDigit_of_mem_toDigits (by decide) (by decide) hmem] at h
        cases h
    · exact notMem_pad h hmem

theorem notMem_toString {c : Char} (h : c.isDigit = false) (hminus : c ≠ '-') (hplus : c ≠ '+')
    (d : LocalDate) : c ∉ d.toString := by
  intro hmem
  simp only [LocalDate.toString, List.mem_append, List.mem_cons] at hmem
  rcases hmem with hyear | hsep | hmonth | hsep | hday
  · exact notMem_yearText h hminus hplus _ hyear
  · exact hminus hsep
  · exact notMem_pad h hmonth
  · exact hminus hsep
  · exact notMem_pad h hday

/-- A date is read as itself, if at all. -/
theorem readDate_toString {d d' : LocalDate} (h : readDate d.toString = some d') : d' = d := by
  have hdash : Char.isDigit '-' = false := by decide
  have hsplit : d.toString.splitOn '-' =
      (LocalDate.yearText d.year).splitOn '-' ++ [Text.pad 2 d.month, Text.pad 2 d.day] := by
    rw [LocalDate.toString, List.splitOn_append_cons_self, List.splitOn_append_cons_self,
      List.splitOn_eq_singleton (notMem_pad hdash), List.splitOn_eq_singleton (notMem_pad hdash)]
    rfl
  rw [readDate, hsplit, LocalDate.yearText] at h
  split at h
  · -- the sign is one more separator
    next parts y m day hparts =>
    by_cases hneg : d.year < 0
    · have hyear : ('-' :: Text.pad 4 d.year.natAbs).splitOn '-' =
          [[], Text.pad 4 d.year.natAbs] := by
        have happend := List.splitOn_append_cons_self (a := '-') [] (Text.pad 4 d.year.natAbs)
        rw [List.nil_append, List.splitOn_nil, List.splitOn_eq_singleton (notMem_pad hdash)]
          at happend
        exact happend
      rw [if_pos hneg, hyear] at hparts
      simp at hparts
    rw [if_neg hneg] at hparts
    by_cases hlong : d.year > 9999
    · -- a plus is no digit
      have hplus : '-' ∉ '+' :: Nat.toDigits 10 d.year.natAbs := by
        intro hmem
        rcases List.mem_cons.mp hmem with heq | hmem
        · exact absurd heq (by decide)
        · have hdigit := Nat.isDigit_of_mem_toDigits (by decide) (by decide) hmem
          rw [hdash] at hdigit
          cases hdigit
      rw [if_pos hlong, List.splitOn_eq_singleton hplus] at hparts
      obtain ⟨rfl, -⟩ := List.cons.inj hparts
      have hnone : number ('+' :: Nat.toDigits 10 d.year.natAbs) = none := by
        rw [number, if_neg]
        rintro ⟨-, hall⟩
        exact absurd (List.all_eq_true.mp hall '+' List.mem_cons_self) (by decide)
      rw [hnone] at h
      cases h
    · rw [if_neg hlong, List.splitOn_eq_singleton (notMem_pad hdash)] at hparts
      simp only [List.singleton_append, List.cons.injEq, and_true] at hparts
      obtain ⟨rfl, rfl, rfl⟩ := hparts
      simp only [number_pad, bind, Option.bind_some] at h
      split at h
      · obtain rfl := Option.some.inj h
        ext
        · show ((d.year.natAbs : ℕ) : ℤ) = d.year
          omega
        · rfl
        · rfl
      · cases h
  · cases h

theorem length_pad {width n : ℕ} (hwidth : 0 < width) (h : n < 10 ^ width) :
    (Text.pad width n).length = width := by
  have hdigits : (Nat.toDigits 10 n).length ≤ width :=
    (Nat.length_toDigits_le_iff (by decide) hwidth).mpr h
  rw [Text.pad, List.length_leftpad, max_eq_left hdigits]

/-- Three, six or nine decimals stand for the nanoseconds. -/
theorem number_fractionText {nano : ℕ} (hnano : nano < 1000000000) :
    ∃ digits, number (LocalDateTime.fractionText nano) = some digits ∧
      digits * 10 ^ (9 - (LocalDateTime.fractionText nano).length) = nano := by
  unfold LocalDateTime.fractionText
  split
  · refine ⟨nano / 1000000, number_pad _ _, ?_⟩
    rw [length_pad (by decide) (by omega)]
    omega
  · split
    · refine ⟨nano / 1000, number_pad _ _, ?_⟩
      rw [length_pad (by decide) (by omega)]
      omega
    · refine ⟨nano, number_pad _ _, ?_⟩
      rw [length_pad (by decide) (by omega)]
      omega

theorem notMem_fractionText {c : Char} (h : c.isDigit = false) (nano : ℕ) :
    c ∉ LocalDateTime.fractionText nano := by
  unfold LocalDateTime.fractionText
  split
  · exact notMem_pad h
  · split
    · exact notMem_pad h
    · exact notMem_pad h

/-- Seconds are read with their fraction rounded to microseconds. -/
theorem readSecond_secondText {second nano : ℕ} (hnano : nano < 1000000000) :
    readSecond (LocalDateTime.secondText second nano) =
      some (second * 1000000 + (nano + 500) / 1000) := by
  have hdot : Char.isDigit '.' = false := by decide
  rw [readSecond, LocalDateTime.secondText]
  by_cases hzero : nano = 0
  · subst hzero
    rw [if_pos rfl, Text.cut_eq_none (notMem_pad hdot)]
    simp [number_pad]
  · obtain ⟨digits, hdigits, hvalue⟩ := number_fractionText hnano
    rw [if_neg hzero, Text.cut_append_cons (notMem_pad hdot)]
    simp [number_pad, hdigits, hvalue]

theorem notMem_secondText {c : Char} (h : c.isDigit = false) (hdot : c ≠ '.') (second nano : ℕ) :
    c ∉ LocalDateTime.secondText second nano := by
  unfold LocalDateTime.secondText
  split
  · exact notMem_pad h
  · intro hmem
    rcases List.mem_append.mp hmem with hsecond | hfraction
    · exact notMem_pad h hsecond
    · rcases List.mem_cons.mp hfraction with heq | hfraction
      · exact hdot heq
      · exact notMem_fractionText h nano hfraction

/-- A time is read as its nearest microsecond. -/
theorem readTime_timeText (nanoOfDay : ℕ) :
    readTime (LocalDateTime.timeText nanoOfDay) = some ((nanoOfDay + 500) / 1000) := by
  have hcolon : Char.isDigit ':' = false := by decide
  have hhour : ':' ∉ Text.pad 2 (nanoOfDay / 60000000000 / 60) := notMem_pad hcolon
  have hminute : ':' ∉ Text.pad 2 (nanoOfDay / 60000000000 % 60) := notMem_pad hcolon
  unfold LocalDateTime.timeText readTime
  simp only
  by_cases hzero : nanoOfDay % 60000000000 = 0
  · rw [if_pos hzero, List.splitOn_append_cons_self, List.splitOn_eq_singleton hhour,
      List.splitOn_eq_singleton hminute]
    simp only [List.singleton_append, number_pad, bind, Option.bind_some]
    congr 1
    omega
  · have hsecond := notMem_secondText (c := ':') hcolon (by decide)
      (nanoOfDay % 60000000000 / 1000000000) (nanoOfDay % 60000000000 % 1000000000)
    rw [if_neg hzero, List.append_assoc, List.cons_append, List.splitOn_append_cons_self,
      List.splitOn_append_cons_self, List.splitOn_eq_singleton hhour,
      List.splitOn_eq_singleton hminute, List.splitOn_eq_singleton hsecond]
    simp only [List.singleton_append, number_pad, bind, Option.bind_some,
      readSecond_secondText (Nat.mod_lt _ (by decide : 0 < 1000000000))]
    congr 1
    omega

theorem readsIsoText_isoTimestamp : ReadsIsoText isoTimestamp where
  date := by
    intro d t h
    have hcut : Text.cut 'T' d.toString = none :=
      Text.cut_eq_none (notMem_toString (by decide) (by decide) (by decide) d)
    rw [isoTimestamp, hcut] at h
    obtain ⟨d', hd', rfl⟩ := Option.map_eq_some_iff.mp h
    rw [readDate_toString hd']
  dateTime := by
    intro dt t h
    have hcut : Text.cut 'T' dt.toString =
        some (dt.date.toString, LocalDateTime.timeText dt.nanoOfDay) :=
      Text.cut_append_cons (notMem_toString (by decide) (by decide) (by decide) dt.date)
    rw [isoTimestamp, hcut] at h
    simp only [bind, Option.bind_eq_some_iff] at h
    obtain ⟨d, hd, micros, hmicros, ht⟩ := h
    obtain rfl := readDate_toString hd
    obtain rfl := Option.some.inj ((readTime_timeText _).symm.trans hmicros)
    obtain rfl := Option.some.inj ht
    -- rounding half up is off by half a microsecond at most
    rw [add_sub_cancel_left]
    have habs : |1000 * (((dt.nanoOfDay + 500) / 1000 : ℕ) : ℤ) - dt.nanoOfDay| ≤ 500 := by
      rw [abs_le]
      push_cast
      omega
    omega

end IsoTimestamp
