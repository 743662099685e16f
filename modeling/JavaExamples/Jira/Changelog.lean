import JavaExamples.Common.Text
import Mathlib.Data.List.Basic

/-!
# Changelogs of an issue

`IssueAppService.findAllStatusTransitions` asks for the changelogs of an issue page by page and
keeps those with an item for the field `status`. The next page is asked for at the offset of this
one plus the `maxResults` it reports.

* `Serves`: a server that answers with windows of a list, of any sizes, as long as it is asked for
  offsets within the list. The loop asks for no others, so that the offsets, which are `int`s in the
  source, do not overflow where the list has as many elements as an `Integer` can count.
* `findAllStatusTransitions_eq`: what is returned, and after how many pages at most.
-/

namespace Jira

structure ChangeItem where
  field : Option Text
  fromString : Option Text
  toStr : Option Text

/-- `created` in any unit of time since a fixed point. -/
structure Changelog where
  created : Option ℤ
  items : List ChangeItem

structure IssueChangelogRes where
  isLast : Option Bool
  maxResults : ℕ
  values : List Changelog

/-- `"status".equals(field)`. -/
def ChangeItem.isStatus (item : ChangeItem) : Bool := item.field = some "status".toList

def Changelog.isStatusTransition (changelog : Changelog) : Bool :=
  changelog.items.any ChangeItem.isStatus

namespace IssueAppService

/-- The loop of `findAllStatusTransitions` with at most `fuel` pages. The answer to a request may
depend on the number of those before it. -/
def findPages (findChangelog : ℕ → ℕ → IssueChangelogRes) :
    ℕ → ℕ → ℕ → List Changelog → Option (List Changelog)
  | 0, _, _, _ => none
  | fuel + 1, request, startAt, result =>
    let page := findChangelog request startAt
    let result := result ++ page.values.filter Changelog.isStatusTransition
    if page.isLast ≠ some true then
      findPages findChangelog fuel (request + 1) (startAt + page.maxResults) result
    else some result

def findAllStatusTransitions (findChangelog : ℕ → ℕ → IssueChangelogRes) (fuel : ℕ) :
    Option (List Changelog) :=
  findPages findChangelog fuel 0 0 []

end IssueAppService

/-! ## The server -/

/-- The page of `maxResults` changelogs at an offset; `isLast` says whether it reaches the end. -/
def window (changelogs : List Changelog) (startAt maxResults : ℕ) : IssueChangelogRes :=
  { isLast := some (changelogs.length ≤ startAt + maxResults)
    maxResults
    values := (changelogs.drop startAt).take maxResults }

/-- Every request at the beginning or within the list is answered with a page that is not empty
unless the list is. Nothing is said of other requests. -/
def Serves (changelogs : List Changelog) (findChangelog : ℕ → ℕ → IssueChangelogRes) : Prop :=
  ∀ request startAt, startAt = 0 ∨ startAt < changelogs.length →
    ∃ maxResults, 1 ≤ maxResults ∧ findChangelog request startAt =
      window changelogs startAt maxResults

section Serves

open IssueAppService

variable {changelogs : List Changelog} {findChangelog : ℕ → ℕ → IssueChangelogRes}

/-- What a page adds to what has been found before it. -/
theorem filter_take_append_window (changelogs : List Changelog) (startAt maxResults : ℕ) :
    (changelogs.take startAt).filter Changelog.isStatusTransition ++
        (window changelogs startAt maxResults).values.filter Changelog.isStatusTransition =
      (changelogs.take (startAt + maxResults)).filter Changelog.isStatusTransition := by
  rw [List.take_add, List.filter_append]
  rfl

theorem isLast_window_iff {startAt maxResults : ℕ} :
    (window changelogs startAt maxResults).isLast = some true ↔
      changelogs.length ≤ startAt + maxResults := by
  rw [window, Option.some.injEq, decide_eq_true_iff]

/-- From an offset up to which all has been found, the rest is found, in no more pages than there
are changelogs behind the offset and one. -/
theorem findPages_eq (hserves : Serves changelogs findChangelog) (fuel request startAt : ℕ)
    (hstart : startAt = 0 ∨ startAt < changelogs.length)
    (hfuel : changelogs.length - startAt < fuel) :
    findPages findChangelog fuel request startAt
        ((changelogs.take startAt).filter Changelog.isStatusTransition) =
      some (changelogs.filter Changelog.isStatusTransition) := by
  induction fuel generalizing request startAt with
  | zero => exact absurd hfuel (Nat.not_lt_zero _)
  | succ fuel ih =>
    obtain ⟨maxResults, hpositive, hpage⟩ := hserves request startAt hstart
    rw [findPages, hpage]
    rw [filter_take_append_window]
    by_cases hend : changelogs.length ≤ startAt + maxResults
    · rw [if_neg (not_not_intro (isLast_window_iff.mpr hend)), List.take_of_length_le hend]
    · -- the next page begins within the list, and behind this one
      rw [if_pos (mt isLast_window_iff.mp hend)]
      apply ih
      · exact Or.inr (not_le.mp hend)
      · show changelogs.length - (startAt + maxResults) < fuel
        omega

/-- Whatever the sizes of the pages, exactly the changelogs with a status item are returned, in
order, after no more pages than there are changelogs and one. -/
theorem findAllStatusTransitions_eq (hserves : Serves changelogs findChangelog) {fuel : ℕ}
    (hfuel : changelogs.length < fuel) :
    findAllStatusTransitions findChangelog fuel =
      some (changelogs.filter Changelog.isStatusTransition) :=
  findPages_eq hserves fuel 0 0 (Or.inl rfl) hfuel

end Serves

/-- A changelog with one item. -/
def changelogOf (field : Text) (created : ℤ) : Changelog :=
  { created := some created, items := [⟨some field, none, none⟩] }

/-- Five changelogs, two of them of the status. -/
def fiveChangelogs : List Changelog :=
  [changelogOf "status".toList 1, changelogOf "assignee".toList 2, changelogOf "assignee".toList 3,
    changelogOf "status".toList 4, changelogOf "labels".toList 5]

/-- They come in pages of one and of two, the last of which is full. -/
theorem findAllStatusTransitions_fiveChangelogs :
    IssueAppService.findAllStatusTransitions
        (fun request startAt => window fiveChangelogs startAt (request % 2 + 1)) 6 =
      some [changelogOf "status".toList 1, changelogOf "status".toList 4] := by
  have hserves : Serves fiveChangelogs
      fun request startAt => window fiveChangelogs startAt (request % 2 + 1) :=
    fun request startAt _ => ⟨request % 2 + 1, Nat.le_add_left 1 _, rfl⟩
  exact findAllStatusTransitions_eq hserves (by decide)

end Jira
