import JavaExamples.Common.FillLoop
import JavaExamples.Common.LocalDate
import JavaExamples.Common.Text
import JavaExamples.Common.Transition

/-!
# Partition maintenance of the skin price tables

`SkinPriceByDayService.createPartitions` walks 400 days ahead and
`SkinPriceService.createPartitions` 18 months, creating a partition for each; `PartitionCreatorJob`
runs both. A creation that fails with "already exists" is skipped by a `continue` that also skips
the step to the next date, so the walk ends at the first partition that was there already.

* `createPartitionsLoop_eq_fill`: the loop computes `FillLoop.fill`.
* `createPartitions_filled_iff`: a run fills its horizon exactly when the partitions that were there
  already are a final segment of it, for both services and for every sequence of job runs.
* `createPartitions_of_today_exists`: where today's partition is there, the run adds nothing.
-/

namespace Partitioning

inductive SkinPriceType where
  | RAW
  | DAY_SUMMARIZED
deriving DecidableEq

/-- An exception, by what `getMessage()` returns (`none` for `null`). -/
structure JavaException where
  message : Option Text

/-- The partitions of a table, by type and first date. -/
abbrev Partitions := Finset (SkinPriceType × LocalDate)

/-- `createPartition(date, type)` of a DAO, on the partitions that exist; a failed creation is
rolled back. -/
abbrev CreatePartition := LocalDate → SkinPriceType → Partitions → Except JavaException Partitions

/-- What the loops catch by. -/
def alreadyExists : Text := "already exists".toList

/-! ## The services and the job -/

/-- The loop of both services from the date `currentDate` on: the outcome and the partitions left
behind. -/
def createPartitionsLoop (createPartition : CreatePartition) (next : LocalDate → LocalDate) :
    ℕ → LocalDate → Partitions → Except JavaException Unit × Partitions
  | 0, _, partitions => (.ok (), partitions)
  | i + 1, currentDate, partitions =>
    match createPartition currentDate .RAW partitions with
    | .ok created => createPartitionsLoop createPartition next i (next currentDate) created
    | .error e =>
      match e.message with
      | none => (.error ⟨none⟩, partitions)  -- `null.contains(..)` throws in the handler
      | some message =>
        if alreadyExists <:+: message then
          -- `continue`: the statement that moves `currentDate` on is skipped
          createPartitionsLoop createPartition next i currentDate partitions
        else (.error e, partitions)

namespace SkinPriceByDayService

def createPartitions (createPartition : CreatePartition) (now : LocalDate)
    (partitions : Partitions) : Except JavaException Unit × Partitions :=
  createPartitionsLoop createPartition LocalDate.plusDay 400 now partitions

end SkinPriceByDayService

namespace SkinPriceService

def createPartitions (createPartition : CreatePartition) (now : LocalDate)
    (partitions : Partitions) : Except JavaException Unit × Partitions :=
  createPartitionsLoop createPartition LocalDate.plusMonth 18 now.withDayOfMonthOne partitions

end SkinPriceService

/-- The partitions of the two tables, and the date of the job's last run. -/
structure JobState where
  byMonth : Partitions
  byDay : Partitions
  lastRun : Option LocalDate

/-- The task of `PartitionCreatorJob`, run at the date `now`: the daily service runs only if the
monthly one returned. -/
def PartitionCreatorJob (createByMonth createByDay : CreatePartition) (st : JobState)
    (now : LocalDate) : JobState :=
  let monthly := SkinPriceService.createPartitions createByMonth now st.byMonth
  match monthly.1 with
  | .error _ => { st with byMonth := monthly.2, lastRun := some now }
  | .ok () =>
    { byMonth := monthly.2
      byDay := (SkinPriceByDayService.createPartitions createByDay now st.byDay).2
      lastRun := some now }

/-! ## The loop as a walk with a cursor -/

/-- `createPartition` fails with an "already exists" message exactly when the partition for the date
exists, and creates it otherwise. -/
structure CreatesPartitions (createPartition : CreatePartition) : Prop where
  fails : ∀ date type partitions, (type, date) ∈ partitions →
    ∃ message, createPartition date type partitions = .error ⟨some message⟩ ∧
      alreadyExists <:+: message
  creates : ∀ date type partitions, (type, date) ∉ partitions →
    createPartition date type partitions = .ok (insert (type, date) partitions)

/-- The partition that the loops create at a date. -/
def rawPartition (date : LocalDate) : SkinPriceType × LocalDate := (.RAW, date)

/-- The loop never throws, and leaves the walk's set behind. -/
theorem createPartitionsLoop_eq_fill {createPartition : CreatePartition}
    (hcreate : CreatesPartitions createPartition) (next : LocalDate → LocalDate) (n : ℕ)
    (date : LocalDate) (partitions : Partitions) :
    createPartitionsLoop createPartition next n date partitions =
      (.ok (), FillLoop.fill rawPartition next n partitions date) := by
  induction n generalizing date partitions with
  | zero => rfl
  | succ n ih =>
    rw [createPartitionsLoop, FillLoop.fill, Function.iterate_succ_apply, FillLoop.fillStep]
    -- the walk stays where a partition exists and moves on where it creates one
    by_cases hmem : rawPartition date ∈ partitions
    · obtain ⟨message, herr, hmsg⟩ := hcreate.fails date .RAW partitions hmem
      simp only [herr, hmsg, ↓reduceIte, hmem, ih]
      rfl
    · rw [hcreate.creates date .RAW partitions hmem, if_neg hmem]
      exact ih _ _

/-- Where the partition of the first date exists, the loop changes nothing. -/
theorem createPartitionsLoop_of_mem {createPartition : CreatePartition}
    (hcreate : CreatesPartitions createPartition) (next : LocalDate → LocalDate) (n : ℕ)
    {date : LocalDate} {partitions : Partitions} (hmem : rawPartition date ∈ partitions) :
    createPartitionsLoop createPartition next n date partitions = (.ok (), partitions) := by
  rw [createPartitionsLoop_eq_fill hcreate, FillLoop.fill_of_mem n hmem]

theorem iterate_rawPartition_injective {next : LocalDate → LocalDate} {start : LocalDate}
    (hinj : Function.Injective fun i => next^[i] start) :
    Function.Injective fun i => rawPartition (next^[i] start) :=
  fun _ _ h => hinj (congrArg Prod.snd h)

/-! ## Horizons -/

/-- A partition for each of the 400 days from `now` on. -/
def DaysFilled (now : LocalDate) (partitions : Partitions) : Prop :=
  FillLoop.Filled rawPartition LocalDate.plusDay 400 partitions now

/-- A partition for each of the 18 months from the month of `now` on. -/
def MonthsFilled (now : LocalDate) (partitions : Partitions) : Prop :=
  FillLoop.Filled rawPartition LocalDate.plusMonth 18 partitions now.withDayOfMonthOne

/-- Of the 400 days from `now` on, those with a partition are the last ones. -/
def DaysFinalSegment (now : LocalDate) (partitions : Partitions) : Prop :=
  FillLoop.FinalSegment rawPartition LocalDate.plusDay 400 partitions now

/-- Of the 18 months from the month of `now` on, those with a partition are the last ones. -/
def MonthsFinalSegment (now : LocalDate) (partitions : Partitions) : Prop :=
  FillLoop.FinalSegment rawPartition LocalDate.plusMonth 18 partitions now.withDayOfMonthOne

/-- The horizons of the last run are filled. -/
def JobState.HorizonsFilled (st : JobState) : Prop :=
  ∀ now, st.lastRun = some now → MonthsFilled now st.byMonth ∧ DaysFilled now st.byDay

section Services

variable {createByMonth createByDay : CreatePartition}

theorem byDay_createPartitions (hcreate : CreatesPartitions createByDay) (now : LocalDate)
    (partitions : Partitions) :
    ∃ after, SkinPriceByDayService.createPartitions createByDay now partitions = (.ok (), after) ∧
      (DaysFilled now after ↔ DaysFinalSegment now partitions) :=
  ⟨_, createPartitionsLoop_eq_fill hcreate _ _ _ _,
    FillLoop.filled_iff (iterate_rawPartition_injective (LocalDate.iterate_plusDay_injective now))
      400⟩

theorem byMonth_createPartitions (hcreate : CreatesPartitions createByMonth) (now : LocalDate)
    (partitions : Partitions) :
    ∃ after, SkinPriceService.createPartitions createByMonth now partitions = (.ok (), after) ∧
      (MonthsFilled now after ↔ MonthsFinalSegment now partitions) :=
  ⟨_, createPartitionsLoop_eq_fill hcreate _ _ _ _,
    FillLoop.filled_iff
      (iterate_rawPartition_injective (LocalDate.iterate_plusMonth_injective _)) 18⟩

/-- Where the partition of today exists, the daily service adds none, and where that of the current
month exists, the monthly service adds none. -/
theorem createPartitions_of_today_exists (hmonth : CreatesPartitions createByMonth)
    (hday : CreatesPartitions createByDay) (now : LocalDate) (byMonth byDay : Partitions) :
    (rawPartition now ∈ byDay →
      SkinPriceByDayService.createPartitions createByDay now byDay = (.ok (), byDay)) ∧
    (rawPartition now.withDayOfMonthOne ∈ byMonth →
      SkinPriceService.createPartitions createByMonth now byMonth = (.ok (), byMonth)) :=
  ⟨createPartitionsLoop_of_mem hday _ _, createPartitionsLoop_of_mem hmonth _ _⟩

/-- One run of the job fills both horizons exactly when both tables' partitions are final segments
of theirs. -/
theorem job_horizonsFilled_iff (hmonth : CreatesPartitions createByMonth)
    (hday : CreatesPartitions createByDay) (st : JobState) (now : LocalDate) :
    (PartitionCreatorJob createByMonth createByDay st now).HorizonsFilled ↔
      MonthsFinalSegment now st.byMonth ∧ DaysFinalSegment now st.byDay := by
  obtain ⟨months, hmonths, hmonthsIff⟩ := byMonth_createPartitions hmonth now st.byMonth
  obtain ⟨days, hdays, hdaysIff⟩ := byDay_createPartitions hday now st.byDay
  simp only [PartitionCreatorJob, hmonths, hdays, JobState.HorizonsFilled, Option.some.injEq,
    forall_eq', hmonthsIff, hdaysIff]

end Services

/-- **Partition maintenance.** Both services return normally; each fills its horizon exactly when
the partitions of the horizon that existed before are its last ones; and in a sequence of job runs
on any dates every run leaves both horizons filled exactly when this holds before every run. -/
theorem createPartitions_filled_iff (createByMonth createByDay : CreatePartition)
    (hmonth : CreatesPartitions createByMonth) (hday : CreatesPartitions createByDay) :
    (∀ now partitions, ∃ after,
      SkinPriceByDayService.createPartitions createByDay now partitions = (.ok (), after) ∧
        (DaysFilled now after ↔ DaysFinalSegment now partitions)) ∧
    (∀ now partitions, ∃ after,
      SkinPriceService.createPartitions createByMonth now partitions = (.ok (), after) ∧
        (MonthsFilled now after ↔ MonthsFinalSegment now partitions)) ∧
    (∀ byMonth byDay (runs : List LocalDate),
      Transition.Throughout
          (fun st now => some (PartitionCreatorJob createByMonth createByDay st now))
          JobState.HorizonsFilled ⟨byMonth, byDay, none⟩ runs ↔
        Transition.Along
          (fun st now => some (PartitionCreatorJob createByMonth createByDay st now))
          (fun st now => MonthsFinalSegment now st.byMonth ∧ DaysFinalSegment now st.byDay)
          ⟨byMonth, byDay, none⟩ runs) := by
  refine ⟨byDay_createPartitions hday, byMonth_createPartitions hmonth,
    fun byMonth byDay runs => ?_⟩
  -- one run of the job decides its own horizons, so that no invariant is needed
  refine Transition.throughout_iff_along (J := fun _ => True)
    (fun _ _ _ _ _ => trivial) ?_ trivial ?_
  · intro st now st' _ _ hstep
    obtain rfl := Option.some.inj hstep
    exact job_horizonsFilled_iff hmonth hday st now
  -- before the first run there is no horizon to fill
  · intro now hnow
    cases hnow

/-! ## A creation that behaves as assumed -/

/-- `createPartition` on a table that holds nothing else: the relation of the partition exists or
is created. -/
def createTable : CreatePartition := fun date type partitions =>
  if (type, date) ∈ partitions then .error ⟨some ("relation already exists".toList)⟩
  else .ok (insert (type, date) partitions)

theorem createsPartitions_createTable : CreatesPartitions createTable where
  fails date type partitions hmem :=
    ⟨"relation already exists".toList, by rw [createTable, if_pos hmem], by decide⟩
  creates date type partitions hmem := by rw [createTable, if_neg hmem]

/-- 1 December 2018. -/
def december : LocalDate := LocalDate.firstOfMonth 2018 12 (by decide) (by decide)

theorem createPartitions_filled_iff_createTable :
    ∃ after, SkinPriceByDayService.createPartitions createTable december ∅ = (.ok (), after) ∧
      (DaysFilled december after ↔ DaysFinalSegment december ∅) :=
  (createPartitions_filled_iff createTable createTable createsPartitions_createTable
    createsPartitions_createTable).1 december ∅

/-- With today's partition there and tomorrow's missing, the daily run returns normally and leaves
tomorrow's missing; and the same with months. -/
theorem not_filled_of_today_only :
    (∃ after, SkinPriceByDayService.createPartitions createTable december
        {rawPartition december} = (.ok (), after) ∧ ¬DaysFilled december after) ∧
    (∃ after, SkinPriceService.createPartitions createTable december
        {rawPartition december} = (.ok (), after) ∧ ¬MonthsFilled december after) := by
  obtain ⟨hdays, hmonths⟩ := createPartitions_of_today_exists createsPartitions_createTable
    createsPartitions_createTable december {rawPartition december} {rawPartition december}
  refine ⟨⟨_, hdays (Finset.mem_singleton_self _), fun h => ?_⟩,
    ⟨_, hmonths (Finset.mem_singleton_self _), fun h => ?_⟩⟩
  -- both walks stay on their first date
  · have htomorrow := h 1 (by decide)
    revert htomorrow
    decide
  · have hjanuary := h 1 (by decide)
    revert hjanuary
    decide

end Partitioning
