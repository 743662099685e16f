import JavaExamples.Common.Tally
import JavaExamples.Jira.Changelog
import Mathlib.Algebra.Order.BigOperators.Group.List
import Mathlib.Algebra.Ring.Int.Defs
import Mathlib.Data.Option.Basic

/-!
# Time in status

`IssueAppService.calcStatusTimes` adds up, by status, the time from each status transition of an
issue to the next one. It takes the status from `fromString`, which is the status that the
transition leaves.

* `StatusHistory`: status transitions, each out of the status that the one before has led to.
* `timeIn`: the time between transitions, by the status that a function reads off the first of the
  two.
* `calcStatusTimes_eq`: what is returned, in terms of the history.
* `Credited`: the time goes to the status the issue was in.
* `credited_iff`: the histories of which it does.
* `not_credited_startedAndDone`: a history of which it does not.
-/

namespace Jira

structure StatusTime where
  status : Text
  duration : ℤ
  deriving DecidableEq

/-- The exceptions of `calcStatusTimes`. -/
inductive CalcFailure where
  | noSuchElement
  | nullPointer

namespace IssueAppService

/-- The loop of `calcStatusTimes`; the key `none` stands for null, which the map takes. -/
def accumulate : List Changelog → List (Option Text × ℤ) →
    Except CalcFailure (List (Option Text × ℤ))
  | [], accumulated => return accumulated
  | current :: rest, accumulated => do
    let statusItem ← match current.items.find? ChangeItem.isStatus with
      | some statusItem => pure statusItem
      | none => throw .noSuchElement
    match rest.head?.bind Changelog.created with
    | some leftAt =>
      match current.created with
      | some enteredAt =>
        accumulate rest (Tally.merge statusItem.fromString (leftAt - enteredAt) accumulated)
      | none => throw .nullPointer
    | none => accumulate rest accumulated

/-- `StatusTime` has no null in it. -/
def toStatusTime (entry : Option Text × ℤ) : Except CalcFailure StatusTime :=
  match entry with
  | (some status, duration) => return { status, duration }
  | (none, _) => throw .nullPointer

def calcStatusTimes (transitions : List Changelog) : Except CalcFailure (List StatusTime) := do
  let accumulated ← accumulate transitions []
  accumulated.mapM toStatusTime

end IssueAppService

/-! ## Histories -/

/-- A status transition. -/
structure StatusTransition where
  fromString : Text
  toStr : Text
  created : ℤ

/-- At least one transition, each out of the status and not before the time of the one before it. -/
structure StatusHistory where
  first : StatusTransition
  rest : List StatusTransition
  chained : List.IsChain (fun a b => b.fromString = a.toStr) (first :: rest)
  chronological : List.IsChain (fun a b => a.created ≤ b.created) (first :: rest)

namespace StatusHistory

def transitions (history : StatusHistory) : List StatusTransition := history.first :: history.rest

def last (history : StatusHistory) : StatusTransition := history.rest.getLastD history.first

/-- Each transition that is followed by another one, with that. -/
def intervals (history : StatusHistory) : List (StatusTransition × StatusTransition) :=
  history.transitions.zip history.rest

/-- The time from transitions to the next one, of those transitions of which `status` gives `s`. -/
def timeIn (history : StatusHistory) (status : StatusTransition → Text) (s : Text) : ℤ :=
  ((history.intervals.filter fun interval => status interval.1 = s).map
    fun interval => interval.2.created - interval.1.created).sum

end StatusHistory

/-- The changelog says what the transition is. -/
structure Changelog.Describes (changelog : Changelog) (transition : StatusTransition) : Prop where
  item : ∃ item, changelog.items.find? ChangeItem.isStatus = some item ∧
    item.fromString = some transition.fromString ∧ item.toStr = some transition.toStr
  created : changelog.created = some transition.created

/-- Each status that a transition has led to, unless this is the last one, has the time from there
to the next transition; the times are not negative and add up to the time between the first
transition and the last. -/
structure Credited (history : StatusHistory) (times : List StatusTime) : Prop where
  nodup : (times.map StatusTime.status).Nodup
  statuses : ∀ s, s ∈ times.map StatusTime.status ↔
    ∃ interval ∈ history.intervals, interval.1.toStr = s
  durations : ∀ time ∈ times, time.duration = history.timeIn StatusTransition.toStr time.status
  nonneg : ∀ time ∈ times, 0 ≤ time.duration
  total : (times.map StatusTime.duration).sum = history.last.created - history.first.created

/-- Of the transitions that another one follows, some leave a status exactly if some lead to it, and
the times to the next transitions add up to the same. -/
structure StatusHistory.Balanced (history : StatusHistory) : Prop where
  statuses : ∀ s, (∃ interval ∈ history.intervals, interval.1.fromString = s) ↔
    ∃ interval ∈ history.intervals, interval.1.toStr = s
  times : ∀ s, history.timeIn StatusTransition.fromString s =
    history.timeIn StatusTransition.toStr s

/-! ## What is returned -/

section Result

open IssueAppService

/-- The intervals as amounts of time by status. -/
def amounts (status : StatusTransition → Text)
    (intervals : List (StatusTransition × StatusTransition)) : List (Text × ℤ) :=
  intervals.map fun interval => (status interval.1, interval.2.created - interval.1.created)

/-- The loop merges the time from each transition to the next one. -/
theorem accumulate_eq {changelogs : List Changelog} {transitions : List StatusTransition}
    (h : List.Forall₂ Changelog.Describes changelogs transitions)
    (accumulated : List (Option Text × ℤ)) :
    accumulate changelogs accumulated = .ok (Tally.mergeAll
      ((amounts StatusTransition.fromString (transitions.zip transitions.tail)).map
        (Prod.map some id)) accumulated) := by
  induction h generalizing accumulated with
  | nil => rfl
  | cons hfirst hrest ih =>
    obtain ⟨item, hitem, hfrom, -⟩ := hfirst.item
    rw [accumulate, hitem]
    cases hrest with
    | nil => exact ih accumulated
    | cons hnext hrest =>
      show (match Option.bind (some _) Changelog.created with
        | some leftAt => _
        | none => _) = _
      rw [Option.bind_some, hnext.created, hfirst.created, hfrom]
      exact ih _

theorem mapM_toStatusTime (entries : List (Text × ℤ)) :
    (entries.map (Prod.map some id)).mapM toStatusTime =
      .ok (entries.map fun entry => ⟨entry.1, entry.2⟩) := by
  induction entries with
  | nil => rfl
  | cons entry entries ih =>
    rw [List.map_cons, List.mapM_cons, ih]
    rfl

/-- The times by the status that the transitions leave, in the order of their first entries. -/
theorem calcStatusTimes_eq {history : StatusHistory} {changelogs : List Changelog}
    (h : List.Forall₂ Changelog.Describes changelogs history.transitions) :
    calcStatusTimes changelogs =
      .ok ((Tally.mergeAll (amounts StatusTransition.fromString history.intervals) []).map
        fun entry => ⟨entry.1, entry.2⟩) := by
  rw [calcStatusTimes, accumulate_eq h]
  refine Eq.trans ?_ (mapM_toStatusTime _)
  rw [← Tally.mergeAll_map (Option.some_injective Text)]
  rfl

/-- The sum of the times is the time from the first transition to the last one. -/
theorem sum_amounts (status : StatusTransition → Text) (first : StatusTransition)
    (rest : List StatusTransition) :
    ((amounts status ((first :: rest).zip rest)).map Prod.snd).sum =
      (rest.getLastD first).created - first.created := by
  induction rest generalizing first with
  | nil => simp [amounts]
  | cons next rest ih =>
    have hrest := ih next
    rw [List.zip_cons_cons, amounts, List.map_cons, List.map_cons, List.sum_cons]
    rw [amounts] at hrest
    rw [hrest, List.getLastD_cons]
    exact sub_add_sub_cancel' _ _ _

theorem total_amounts (history : StatusHistory) (status : StatusTransition → Text) (s : Text) :
    Tally.total (amounts status history.intervals) s = history.timeIn status s := by
  rw [Tally.total, amounts, List.filter_map, List.map_map]
  rfl

theorem mem_keys_amounts (history : StatusHistory) (status : StatusTransition → Text) (s : Text) :
    s ∈ (amounts status history.intervals).map Prod.fst ↔
      ∃ interval ∈ history.intervals, status interval.1 = s := by
  rw [amounts, List.map_map, List.mem_map]
  rfl

/-- No transition follows one that is later. -/
theorem created_le_of_mem_zip {first : StatusTransition} {rest : List StatusTransition}
    (h : List.IsChain (fun a b => a.created ≤ b.created) (first :: rest))
    {interval : StatusTransition × StatusTransition} (hmem : interval ∈ (first :: rest).zip rest) :
    interval.1.created ≤ interval.2.created := by
  induction rest generalizing first with
  | nil => cases hmem
  | cons next rest ih =>
    obtain ⟨hle, hrest⟩ := List.isChain_cons_cons.mp h
    rcases List.mem_cons.mp hmem with rfl | hmem
    · exact hle
    · exact ih hrest hmem

theorem timeIn_nonneg (history : StatusHistory) (status : StatusTransition → Text) (s : Text) :
    0 ≤ history.timeIn status s := by
  apply List.sum_nonneg
  intro time htime
  obtain ⟨interval, hinterval, rfl⟩ := List.mem_map.mp htime
  have hle := created_le_of_mem_zip history.chronological (List.mem_filter.mp hinterval).1
  exact Int.sub_nonneg_of_le hle

variable {history : StatusHistory} {changelogs : List Changelog}

/-- What is returned has an entry for each status that is left, with the times added up. -/
theorem mem_calcStatusTimes (h : List.Forall₂ Changelog.Describes changelogs history.transitions) :
    ∃ times, calcStatusTimes changelogs = .ok times ∧ (times.map StatusTime.status).Nodup ∧
      (∀ s, s ∈ times.map StatusTime.status ↔
        ∃ interval ∈ history.intervals, interval.1.fromString = s) ∧
      (∀ time ∈ times,
        time.duration = history.timeIn StatusTransition.fromString time.status) ∧
      (times.map StatusTime.duration).sum = history.last.created - history.first.created := by
  let entries := Tally.mergeAll (amounts StatusTransition.fromString history.intervals) []
  have hnodup : (entries.map Prod.fst).Nodup := Tally.nodup_keys_mergeAll List.nodup_nil
  refine ⟨_, calcStatusTimes_eq h, ?_, fun s => ?_, fun time htime => ?_, ?_⟩
  · rw [List.map_map]
    exact hnodup
  · rw [List.map_map]
    refine Tally.mem_keys_mergeAll.trans ?_
    rw [mem_keys_amounts, List.map_nil, or_iff_left List.not_mem_nil]
  · obtain ⟨entry, hentry, rfl⟩ := List.mem_map.mp htime
    have htotal := Tally.eq_total_of_mem hnodup hentry
    rw [Tally.total_mergeAll, Tally.total_nil, zero_add, total_amounts] at htotal
    exact htotal
  · rw [List.map_map]
    refine (Tally.sum_mergeAll _ []).trans ?_
    rw [List.map_nil, List.sum_nil, zero_add]
    exact sum_amounts _ _ _

/-- The time goes to the statuses the issue was in exactly if the history is balanced. -/
theorem credited_iff (h : List.Forall₂ Changelog.Describes changelogs history.transitions) :
    (∃ times, calcStatusTimes changelogs = .ok times ∧ Credited history times) ↔
      history.Balanced := by
  obtain ⟨times, hok, hnodup, hstatuses, hdurations, htotal⟩ := mem_calcStatusTimes h
  constructor
  · rintro ⟨times', hok', hcredited⟩
    obtain rfl : times = times' := Except.ok.inj (hok.symm.trans hok')
    have hsame : ∀ s, (∃ interval ∈ history.intervals, interval.1.fromString = s) ↔
        ∃ interval ∈ history.intervals, interval.1.toStr = s :=
      fun s => (hstatuses s).symm.trans (hcredited.statuses s)
    refine ⟨hsame, fun s => ?_⟩
    by_cases hs : s ∈ times.map StatusTime.status
    · obtain ⟨time, htime, rfl⟩ := List.mem_map.mp hs
      exact (hdurations time htime).symm.trans (hcredited.durations time htime)
    · -- a status without an entry has no time of either kind
      have hfrom : history.timeIn StatusTransition.fromString s = 0 := by
        rw [← total_amounts]
        exact Tally.total_eq_zero (mt (mem_keys_amounts history _ s).mp (mt (hstatuses s).mpr hs))
      have hto : history.timeIn StatusTransition.toStr s = 0 := by
        rw [← total_amounts]
        exact Tally.total_eq_zero
          (mt (mem_keys_amounts history _ s).mp (mt (hcredited.statuses s).mpr hs))
      exact hfrom.trans hto.symm
  · intro hbalanced
    have hcredited : ∀ time ∈ times,
        time.duration = history.timeIn StatusTransition.toStr time.status :=
      fun time htime => (hdurations time htime).trans (hbalanced.times time.status)
    exact ⟨times, hok, hnodup, fun s => (hstatuses s).trans (hbalanced.statuses s), hcredited,
      fun time htime => hcredited time htime ▸ timeIn_nonneg history _ _, htotal⟩

end Result

/-! ## Two histories -/

/-- The changelog of a transition. -/
def StatusTransition.changelog (transition : StatusTransition) : Changelog :=
  { created := some transition.created
    items := [⟨some "status".toList, some transition.fromString, some transition.toStr⟩] }

theorem describes_changelog (transitions : List StatusTransition) :
    List.Forall₂ Changelog.Describes (transitions.map StatusTransition.changelog) transitions := by
  induction transitions with
  | nil => exact List.Forall₂.nil
  | cons transition transitions ih =>
    have hitem : transition.changelog.items.find? ChangeItem.isStatus =
        some ⟨some "status".toList, some transition.fromString, some transition.toStr⟩ :=
      List.find?_cons_of_pos (decide_eq_true rfl)
    exact List.Forall₂.cons ⟨⟨_, hitem, rfl, rfl⟩, rfl⟩ ih

/-- To review and back, as long in the one as in the other. -/
def backAndForth : StatusHistory where
  first := ⟨"Doing".toList, "Review".toList, 0⟩
  rest := [⟨"Review".toList, "Doing".toList, 5⟩, ⟨"Doing".toList, "Review".toList, 10⟩]
  chained := by decide
  chronological := by decide

/-- Started, and done ten units of time later. -/
def startedAndDone : StatusHistory where
  first := ⟨"To Do".toList, "Doing".toList, 0⟩
  rest := [⟨"Doing".toList, "Done".toList, 10⟩]
  chained := by decide
  chronological := by decide

/-- Of the first history the times are credited to the statuses the issue was in. -/
theorem credited_backAndForth :
    ∃ times, IssueAppService.calcStatusTimes
        (backAndForth.transitions.map StatusTransition.changelog) = .ok times ∧
      Credited backAndForth times := by
  refine (credited_iff (describes_changelog backAndForth.transitions)).mpr
    ⟨fun s => ?_, fun s => ?_⟩
  · -- both statuses are left and led to
    simp only [StatusHistory.intervals, StatusHistory.transitions, backAndForth, List.zip_cons_cons,
      List.zip_nil_right, List.exists_mem_cons_iff, List.not_mem_nil, false_and, exists_false,
      or_false]
    exact or_comm
  · rw [← total_amounts, ← total_amounts]
    show Tally.total [("Doing".toList, 5), ("Review".toList, 5)] s =
      Tally.total [("Review".toList, 5), ("Doing".toList, 5)] s
    rw [Tally.total_cons, Tally.total_cons, Tally.total_cons, Tally.total_cons]
    exact add_left_comm _ _ _

/-- Of the second one they are not. -/
theorem not_credited_startedAndDone :
    ¬∀ (history : StatusHistory) (changelogs : List Changelog),
      List.Forall₂ Changelog.Describes changelogs history.transitions →
      ∃ times, IssueAppService.calcStatusTimes changelogs = .ok times ∧ Credited history times := by
  intro h
  obtain ⟨times, hok, hcredited⟩ := h startedAndDone _ (describes_changelog _)
  -- the time is credited to the status that the issue has left
  obtain rfl : [⟨"To Do".toList, 10⟩] = times := Except.ok.inj hok
  have hdoing := (hcredited.statuses "Doing".toList).mpr ⟨_, List.mem_cons_self, rfl⟩
  revert hdoing
  decide

end Jira
