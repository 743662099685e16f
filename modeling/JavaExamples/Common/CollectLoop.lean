import Mathlib.Data.List.Forall2
import Mathlib.Tactic.Common

/-!
# Loops that collect results

A loop over a list that appends what a fallible function makes of each element, and stops at the
first failure.

* `foldlM_append_eq_ok`: one result an element. The loop returns the list of the results exactly if
  the function fails nowhere.
* `foldlM_append_eq_flatMap`: a list of results an element.
-/

namespace CollectLoop

variable {ε α β : Type}

/-- A loop that appends the result for each element returns their list, and only if there are no
failures. -/
theorem foldlM_append_eq_ok {f : α → Except ε β} {xs : List α} (acc : List β) {ys : List β} :
    xs.foldlM (fun acc x => return acc ++ [← f x]) acc = .ok ys ↔
      ∃ zs, ys = acc ++ zs ∧ List.Forall₂ (fun x z => f x = .ok z) xs zs := by
  induction xs generalizing acc with
  | nil =>
    constructor
    · intro h
      obtain rfl := Except.ok.inj h
      exact ⟨[], (List.append_nil acc).symm, .nil⟩
    · rintro ⟨zs, rfl, hzs⟩
      cases hzs
      rw [List.append_nil]
      rfl
  | cons x xs ih =>
    rw [List.foldlM_cons]
    cases hx : f x with
    | error e =>
      -- the loop has stopped, and the failure has no counterpart among the results
      refine ⟨fun h => (by cases h), ?_⟩
      rintro ⟨zs, -, hzs⟩
      cases hzs with
      | cons hz _ => cases hx.symm.trans hz
    | ok y =>
      refine (ih (acc ++ [y])).trans ⟨?_, ?_⟩
      · rintro ⟨zs, rfl, hzs⟩
        exact ⟨y :: zs, by simp, .cons hx hzs⟩
      · rintro ⟨zs, rfl, hzs⟩
        cases hzs with
        | cons hz hzs =>
          obtain rfl := Except.ok.inj (hx.symm.trans hz)
          exact ⟨_, by simp, hzs⟩

/-- A loop that appends a list for each element returns their concatenation. -/
theorem foldlM_append_eq_flatMap {f : α → Except ε (List β)} {g : α → List β} {xs : List α}
    (h : ∀ x ∈ xs, f x = .ok (g x)) (acc : List β) :
    xs.foldlM (fun acc x => return acc ++ (← f x)) acc = .ok (acc ++ xs.flatMap g) := by
  induction xs generalizing acc with
  | nil =>
    rw [List.flatMap_nil, List.append_nil]
    rfl
  | cons x xs ih =>
    obtain ⟨hx, hrest⟩ := List.forall_mem_cons.mp h
    rw [List.foldlM_cons, hx, List.flatMap_cons, ← List.append_assoc]
    exact ih hrest (acc ++ g x)

end CollectLoop
