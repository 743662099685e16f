import Mathlib.Data.List.Basic

/-!
# Filtering in place

A loop over a collection that removes the elements a test does not accept, through the iterator and
so one after the other. The test may fail, and then the loop ends with what has been removed so far.

* `filter_eq`: a test that never fails leaves the elements it accepts.
* `filter_eq_error`: up to the first failure, and nothing after it.
* `filter_cases`: one of the two.
* `filter_map`: filtering keys of elements, or the elements.
* `allM_eq`: a conjunction of tests that never fail.
* `allM_eq_ok_true_iff`: one that is met.
-/

namespace FallibleFilter

variable {ε α : Type}

/-- The loop from the elements kept so far on: the number of those removed, and the collection. -/
def filterFrom (test : α → Except ε Bool) (removed : ℕ) (kept : List α) :
    List α → Except ε ℕ × List α
  | [] => (.ok removed, kept)
  | it :: rest =>
    match test it with
    | .error e => (.error e, kept ++ it :: rest)
    | .ok true => filterFrom test removed (kept ++ [it]) rest
    | .ok false => filterFrom test (removed + 1) kept rest

def filter (test : α → Except ε Bool) (l : List α) : Except ε ℕ × List α := filterFrom test 0 [] l

/-- The test returns, and accepts. -/
def accepts (test : α → Except ε Bool) (a : α) : Bool :=
  match test a with
  | .ok accepted => accepted
  | .error _ => false

/-- The test returns. -/
def Decides (test : α → Except ε Bool) (a : α) : Prop := ∃ accepted, test a = .ok accepted

variable {test : α → Except ε Bool}

theorem Decides.eq_accepts {a : α} (h : Decides test a) : test a = .ok (accepts test a) := by
  obtain ⟨accepted, haccepted⟩ := h
  simp [accepts, haccepted]

/-- What has been tested has been kept or counted, and the loop goes on. -/
theorem filterFrom_append (removed : ℕ) (kept : List α) {l : List α} (rest : List α)
    (h : ∀ a ∈ l, Decides test a) :
    filterFrom test removed kept (l ++ rest) =
      filterFrom test (removed + l.countP fun a => !accepts test a)
        (kept ++ l.filter (accepts test)) rest := by
  induction l generalizing removed kept with
  | nil => simp
  | cons a l ih =>
    obtain ⟨ha, hl⟩ := List.forall_mem_cons.mp h
    rw [List.cons_append, filterFrom, ha.eq_accepts]
    cases haccepts : accepts test a with
    | true =>
      simp only [ih _ _ hl, List.append_assoc, List.countP_cons, List.filter_cons, haccepts]
      simp
    | false =>
      simp only [ih _ _ hl, List.countP_cons, List.filter_cons, haccepts]
      simp [Nat.add_assoc, Nat.add_comm]

theorem filter_eq {l : List α} (h : ∀ a ∈ l, Decides test a) :
    filter test l = (.ok (l.countP fun a => !accepts test a), l.filter (accepts test)) := by
  have happend := filterFrom_append 0 [] [] h
  rw [List.append_nil, List.nil_append, Nat.zero_add] at happend
  exact happend

/-- Where the test fails, the elements before have been filtered, and the others are as they
were. -/
theorem filter_eq_error {l rest : List α} {a : α} {e : ε} (h : ∀ b ∈ l, Decides test b)
    (ha : test a = .error e) :
    filter test (l ++ a :: rest) = (.error e, l.filter (accepts test) ++ a :: rest) := by
  rw [filter, filterFrom_append 0 [] (a :: rest) h, List.nil_append, filterFrom, ha]

theorem filterFrom_map {β : Type} (f : β → α) (removed : ℕ) (kept l : List β) :
    filterFrom test removed (kept.map f) (l.map f) =
      (filterFrom (fun b => test (f b)) removed kept l).map id (List.map f) := by
  induction l generalizing removed kept with
  | nil => rfl
  | cons b l ih =>
    rw [List.map_cons, filterFrom, filterFrom]
    cases test (f b) with
    | error e => simp
    | ok accepted =>
      cases accepted with
      | true =>
        rw [← ih, List.map_append]
        rfl
      | false => exact ih _ _

theorem filter_map {β : Type} (f : β → α) (l : List β) :
    filter test (l.map f) = (filter (fun b => test (f b)) l).map id (List.map f) :=
  filterFrom_map f 0 [] l

/-- What is left is not filtered any further. -/
theorem filter_filter {l : List α} (h : ∀ a ∈ l, Decides test a) :
    filter test (l.filter (accepts test)) = (.ok 0, l.filter (accepts test)) := by
  have hkept : ∀ a ∈ l.filter (accepts test), Decides test a := fun a ha =>
    h a (List.mem_of_mem_filter ha)
  have hcount : (l.filter (accepts test)).countP (fun a => !accepts test a) = 0 := by
    rw [List.countP_eq_zero]
    intro a ha
    simp [List.of_mem_filter ha]
  rw [filter_eq hkept, hcount, List.filter_filter]
  simp

theorem countP_add_length_filter (p : α → Bool) (l : List α) :
    l.countP (fun a => !p a) + (l.filter p).length = l.length := by
  have h := List.length_eq_countP_add_countP p (l := l)
  simp only [Bool.not_eq_true, Bool.decide_eq_false] at h
  rw [h, ← List.countP_eq_length_filter (p := p), Nat.add_comm]

/-- The test decides on all elements, or there is a first one on which it fails. -/
theorem decides_or_fails (test : α → Except ε Bool) (l : List α) :
    (∀ a ∈ l, Decides test a) ∨
      ∃ before a after e, l = before ++ a :: after ∧ (∀ b ∈ before, Decides test b) ∧
        test a = .error e := by
  induction l with
  | nil =>
    left
    simp
  | cons a l ih =>
    cases ha : test a with
    -- the first element the test fails on is the head or the first one of the tail
    | error e => exact .inr ⟨[], a, l, e, rfl, by simp, ha⟩
    | ok accepted =>
      have hdecides : Decides test a := ⟨accepted, ha⟩
      rcases ih with hall | ⟨before, b, after, e, rfl, hbefore, hb⟩
      · exact .inl (List.forall_mem_cons.mpr ⟨hdecides, hall⟩)
      · exact .inr ⟨a :: before, b, after, e, rfl, List.forall_mem_cons.mpr ⟨hdecides, hbefore⟩, hb⟩

theorem filter_cases (test : α → Except ε Bool) (l : List α) :
    ((∀ a ∈ l, Decides test a) ∧
      filter test l = (.ok (l.countP fun a => !accepts test a), l.filter (accepts test))) ∨
    ∃ before a after e, l = before ++ a :: after ∧ (∀ b ∈ before, Decides test b) ∧
      test a = .error e ∧
      filter test l = (.error e, before.filter (accepts test) ++ a :: after) := by
  rcases decides_or_fails test l with hall | ⟨before, a, after, e, rfl, hbefore, ha⟩
  · exact .inl ⟨hall, filter_eq hall⟩
  · exact .inr ⟨before, a, after, e, rfl, hbefore, ha, filter_eq_error hbefore ha⟩

/-! ## Conjunctions -/

theorem allM_eq {b : α → Bool} {l : List α} (h : ∀ a ∈ l, test a = .ok (b a)) :
    l.allM test = .ok (l.all b) := by
  induction l with
  | nil => rfl
  | cons a l ih =>
    obtain ⟨ha, hl⟩ := List.forall_mem_cons.mp h
    rw [List.allM, ha, List.all_cons]
    cases b a with
    | true => exact ih hl
    | false => rfl

theorem accepts_eq_true_iff {a : α} : accepts test a = true ↔ test a = .ok true := by
  unfold accepts
  cases test a with
  | ok accepted => simp
  | error e => simp

/-- All tests are made, and each of them accepts. -/
theorem allM_eq_ok_true_iff {l : List α} :
    l.allM test = .ok true ↔ ∀ a ∈ l, test a = .ok true := by
  induction l with
  | nil => exact iff_of_true rfl fun _ ha => absurd ha List.not_mem_nil
  | cons a l ih =>
    rw [List.allM, List.forall_mem_cons, ← ih]
    -- a test that fails or rejects is the last one made
    cases ha : test a with
    | error e => exact iff_of_false (fun h => by cases h) fun h => by cases h.1
    | ok accepted =>
      cases accepted with
      | true => exact (and_iff_right rfl).symm
      | false => exact iff_of_false (fun h => by cases h) fun h => by cases h.1

theorem bind_eq_ok_iff {β : Type} {x : Except ε α} {f : α → Except ε β} {b : β} :
    (do let a ← x; f a) = .ok b ↔ ∃ a, x = .ok a ∧ f a = .ok b := by
  cases x with
  | ok a => exact ⟨fun h => ⟨a, rfl, h⟩, fun ⟨_, ha, h⟩ => Except.ok.inj ha ▸ h⟩
  | error e => exact iff_of_false (fun h => by cases h) fun ⟨_, ha, _⟩ => by cases ha

end FallibleFilter
