import Mathlib.Data.Finset.Image
import Mathlib.Data.Finset.Lattice.Basic
import Mathlib.Logic.Function.Iterate
import Mathlib.Tactic.Common

/-!
# Filling a sequence with a cursor

A cursor walks along `start, next start, next (next start), …`; each position has an element. One
step adds the element under the cursor to a set and moves the cursor on, unless the element is there
already: then the step changes nothing, the cursor included.

* `iterate_fillStep`: after `n` steps the cursor stands on the first element that was there
  already, or `n` elements on.
* `filled_iff`: `n` steps leave no gap in the first `n` elements exactly when those that were there
  already are a final segment of them.
-/

namespace FillLoop

variable {α β : Type*} [DecidableEq α] (element : β → α) (next : β → β)

/-- One step of the walk on the set and the cursor. -/
def fillStep (p : Finset α × β) : Finset α × β :=
  if element p.2 ∈ p.1 then p else (insert (element p.2) p.1, next p.2)

/-- The set after `n` steps. -/
def fill (n : ℕ) (existing : Finset α) (start : β) : Finset α :=
  ((fillStep element next)^[n] (existing, start)).1

/-- Of the first `n` elements, those in `existing` are a final segment. -/
def FinalSegment (n : ℕ) (existing : Finset α) (start : β) : Prop :=
  ∀ i j, i ≤ j → j < n → element (next^[i] start) ∈ existing → element (next^[j] start) ∈ existing

/-- The first `n` elements are all in `s`. -/
def Filled (n : ℕ) (s : Finset α) (start : β) : Prop :=
  ∀ i < n, element (next^[i] start) ∈ s

variable {element next} {existing : Finset α} {start : β}

/-- A cursor on an element that is there stays, and the set with it. -/
theorem fill_of_mem (n : ℕ) (h : element start ∈ existing) :
    fill element next n existing start = existing := by
  rw [fill, Function.iterate_fixed (by simp [fillStep, h]) n]

/-- `n` steps walk over `k ≤ n` missing elements, and over fewer than `n` only if the next one was
there. -/
theorem iterate_fillStep (existing : Finset α)
    (hinj : Function.Injective fun i => element (next^[i] start)) (n : ℕ) :
    ∃ k ≤ n, (fillStep element next)^[n] (existing, start) =
        (existing ∪ (Finset.range k).image (fun i => element (next^[i] start)), next^[k] start) ∧
      (∀ i < k, element (next^[i] start) ∉ existing) ∧
      (k < n → element (next^[k] start) ∈ existing) := by
  induction n with
  | zero => exact ⟨0, Nat.le_refl 0, by simp, by simp, by simp⟩
  | succ n ih =>
    obtain ⟨k, hk, hstate, hmissing, hstop⟩ := ih
    rw [Function.iterate_succ_apply', hstate]
    -- the walked elements are distinct, so the cursor only ever meets elements of `existing`
    have hcursor : element (next^[k] start) ∈
        existing ∪ (Finset.range k).image (fun i => element (next^[i] start)) ↔
          element (next^[k] start) ∈ existing := by
      simp only [Finset.mem_union, Finset.mem_image, Finset.mem_range, or_iff_left_iff_imp]
      rintro ⟨i, hi, heq⟩
      exact absurd (hinj heq) (Nat.ne_of_lt hi)
    -- the cursor stays on an element that was there, and walks on only if it has always walked
    by_cases hmem : element (next^[k] start) ∈ existing
    · refine ⟨k, Nat.le_succ_of_le hk, ?_, hmissing, fun _ => hmem⟩
      rw [fillStep, if_pos (hcursor.mpr hmem)]
    · have hkn : k = n := by
        rcases Nat.lt_or_eq_of_le hk with hlt | heq
        · exact absurd (hstop hlt) hmem
        · exact heq
      refine ⟨k + 1, by omega, ?_, ?_, fun h => absurd h (by omega)⟩
      · rw [fillStep, if_neg (mt hcursor.mp hmem), Finset.range_add_one, Finset.image_insert,
          Finset.union_insert, Function.iterate_succ_apply' next k]
      · intro i hi
        rcases Nat.lt_succ_iff_lt_or_eq.mp hi with hlt | rfl
        · exact hmissing i hlt
        · exact hmem

/-- `n` steps leave no gap exactly when what was there is a final segment. -/
theorem filled_iff (hinj : Function.Injective fun i => element (next^[i] start)) (n : ℕ) :
    Filled element next n (fill element next n existing start) start ↔
      FinalSegment element next n existing start := by
  obtain ⟨k, -, hstate, hmissing, hstop⟩ :=
    iterate_fillStep existing hinj n
  have hmem : ∀ j, element (next^[j] start) ∈ fill element next n existing start ↔
      element (next^[j] start) ∈ existing ∨ j < k := by
    intro j
    rw [fill, hstate]
    simp only [Finset.mem_union, Finset.mem_image, Finset.mem_range]
    refine or_congr_right ⟨?_, fun hj => ⟨j, hj, rfl⟩⟩
    rintro ⟨i, hi, heq⟩
    exact hinj heq ▸ hi
  constructor
  · intro hfilled i j hij hj hi
    -- the cursor stopped before or at the first element that was there
    have hki : k ≤ i := by
      by_contra hlt
      exact hmissing i (Nat.lt_of_not_le hlt) hi
    exact ((hmem j).mp (hfilled j hj)).resolve_right (by omega)
  · intro hfinal i hi
    rw [hmem]
    -- what was not walked over lies behind an element that was there
    rcases Nat.lt_or_ge i k with hik | hki
    · exact Or.inr hik
    · exact Or.inl (hfinal k i hki hi (hstop (Nat.lt_of_le_of_lt hki hi)))

end FillLoop
