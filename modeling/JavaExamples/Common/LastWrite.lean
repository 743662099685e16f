import Mathlib.Data.List.Induction
import Mathlib.Tactic.Common

/-!
# The last write

What a sequence of writes leaves to be read.

* `Writes step read writes value a` — the step of `a` either writes `value a` or leaves what is
  read.
* `read_foldl` — after a sequence of steps, the value of the last one that writes is read.
-/

namespace LastWrite

variable {σ α β : Type} {step : σ → α → σ} {read : σ → β} {writes : α → Bool} {value : α → β}

/-- The step of `a` writes `value a`, or leaves what is read alone. -/
def Writes (step : σ → α → σ) (read : σ → β) (writes : α → Bool) (value : α → β) (a : α) : Prop :=
  ∀ s, read (step s a) = if writes a then value a else read s

/-- The value of the last element that writes is read, or what was there before if none does. -/
theorem read_foldl {xs : List α} (h : ∀ a ∈ xs, Writes step read writes value a) (s : σ) :
    read (xs.foldl step s) = ((xs.filter writes).getLast?.map value).getD (read s) := by
  induction xs using List.reverseRecOn with
  | nil => rfl
  | append_singleton xs a ih =>
    have hlast : read (step (xs.foldl step s) a) =
        if writes a then value a else read (xs.foldl step s) := h a (by simp) _
    rw [List.foldl_append, List.filter_append, List.foldl_cons, List.foldl_nil, hlast,
      ih fun b hb => h b (List.mem_append_left _ hb)]
    by_cases hwrites : writes a = true
    · simp [hwrites]
    · simp [hwrites]

end LastWrite
