import Mathlib.Algebra.BigOperators.Group.List.Basic
import Mathlib.Algebra.Order.Group.Defs
import Mathlib.Data.List.Forall2
import Mathlib.Data.List.Infix
import Mathlib.Order.Bounds.Image

/-!
# The heaviest run

Each element of a list has a weight, and the weight of a run of neighbours is the sum of theirs.
One pass finds the heaviest run: it keeps the heaviest run that ends at the current element and the
heaviest one so far, the empty run of weight zero included.

* `isGreatest_ending`, `isGreatest_overall`: what the pass keeps.
* `exists_le_weight_iff`: a run of some weight exists iff the heaviest one has it.
* `best_mono`: heavier elements make a heavier run.
-/

namespace HeaviestRun

variable {α G : Type*} [AddCommGroup G] [LinearOrder G]

/-- The weights of the runs that end with the list. -/
def suffixWeights (weight : α → G) (l : List α) : Set G :=
  {s | ∃ run, run <:+ l ∧ (run.map weight).sum = s}

/-- The weights of all runs. -/
def runWeights (weight : α → G) (l : List α) : Set G :=
  {s | ∃ run, run <:+: l ∧ (run.map weight).sum = s}

/-- What the pass keeps. -/
@[ext]
structure Best (G : Type*) where
  /-- The heaviest run that ends here. -/
  ending : G
  /-- The heaviest run so far. -/
  overall : G

/-- One step of the pass: the run that ended here goes on, unless the empty one is heavier. -/
def extend (b : Best G) (w : G) : Best G :=
  let ending := max 0 (b.ending + w)
  ⟨ending, max b.overall ending⟩

def best (weight : α → G) (l : List α) : Best G :=
  l.foldl (fun b a => extend b (weight a)) ⟨0, 0⟩

@[simp]
theorem best_concat (weight : α → G) (l : List α) (a : α) :
    best weight (l ++ [a]) = extend (best weight l) (weight a) := by
  simp [best]

/-! ## Runs of a longer list -/

omit [LinearOrder G] in
@[simp]
theorem suffixWeights_nil (weight : α → G) : suffixWeights weight [] = {0} := by
  ext s
  simp [suffixWeights, eq_comm]

omit [LinearOrder G] in
@[simp]
theorem runWeights_nil (weight : α → G) : runWeights weight [] = {0} := by
  ext s
  simp [runWeights, eq_comm]

omit [LinearOrder G] in
/-- A run that ends with the new element is empty or a run that ended before it, continued. -/
theorem suffixWeights_concat (weight : α → G) (l : List α) (a : α) :
    suffixWeights weight (l ++ [a]) =
      insert 0 ((fun s => s + weight a) '' suffixWeights weight l) := by
  ext s
  simp only [suffixWeights, Set.mem_insert_iff, Set.mem_image, Set.mem_ofPred_eq,
    List.suffix_concat_iff]
  constructor
  · rintro ⟨run, rfl | ⟨run, rfl, hrun⟩, rfl⟩
    · left
      simp
    · right
      refine ⟨_, ⟨run, hrun, rfl⟩, ?_⟩
      simp
  · rintro (rfl | ⟨_, ⟨run, hrun, rfl⟩, rfl⟩)
    · exact ⟨[], .inl rfl, by simp⟩
    · exact ⟨run ++ [a], .inr ⟨run, rfl, hrun⟩, by simp⟩

omit [LinearOrder G] in
/-- A run ends before the new element or with it. -/
theorem runWeights_concat (weight : α → G) (l : List α) (a : α) :
    runWeights weight (l ++ [a]) = runWeights weight l ∪ suffixWeights weight (l ++ [a]) := by
  ext s
  simp only [runWeights, suffixWeights, Set.mem_union, Set.mem_ofPred_eq, List.infix_concat_iff]
  constructor
  · rintro ⟨run, hrun | hrun, hs⟩
    · exact .inr ⟨run, hrun, hs⟩
    · exact .inl ⟨run, hrun, hs⟩
  · rintro (⟨run, hrun, hs⟩ | ⟨run, hrun, hs⟩)
    · exact ⟨run, .inr hrun, hs⟩
    · exact ⟨run, .inl hrun, hs⟩

/-! ## The pass -/

section Optimum

variable [IsOrderedAddMonoid G]

theorem isGreatest_ending (weight : α → G) (l : List α) :
    IsGreatest (suffixWeights weight l) (best weight l).ending := by
  induction l using List.reverseRecOn with
  | nil =>
    rw [suffixWeights_nil]
    exact isGreatest_singleton
  | append_singleton l a ih =>
    rw [suffixWeights_concat, best_concat]
    -- continuing the heaviest run with `a` is best unless the empty run is heavier
    have hmono : Monotone fun s => s + weight a := fun _ _ h => add_le_add_left h _
    apply IsGreatest.insert
    exact hmono.map_isGreatest ih

theorem isGreatest_overall (weight : α → G) (l : List α) :
    IsGreatest (runWeights weight l) (best weight l).overall := by
  induction l using List.reverseRecOn with
  | nil =>
    rw [runWeights_nil]
    exact isGreatest_singleton
  | append_singleton l a ih =>
    have hending := isGreatest_ending weight (l ++ [a])
    rw [best_concat] at hending ⊢
    rw [runWeights_concat]
    exact ih.union hending

/-- A run of weight at least `h` exists iff the heaviest one is of that weight. -/
theorem exists_le_weight_iff (weight : α → G) (l : List α) (h : G) :
    (∃ run, run <:+: l ∧ h ≤ (run.map weight).sum) ↔ h ≤ (best weight l).overall := by
  obtain ⟨⟨heaviest, hmem, hsum⟩, hupper⟩ := isGreatest_overall weight l
  constructor
  · rintro ⟨run, hrun, hle⟩
    exact hle.trans (hupper ⟨run, hrun, rfl⟩)
  · intro hle
    exact ⟨heaviest, hmem, by rwa [hsum]⟩

/-- A step keeps the order of what the pass keeps. -/
theorem extend_mono {b b' : Best G} {w w' : G} (hending : b.ending ≤ b'.ending)
    (hoverall : b.overall ≤ b'.overall) (hw : w ≤ w') :
    (extend b w).ending ≤ (extend b' w').ending ∧
      (extend b w).overall ≤ (extend b' w').overall := by
  have h : max 0 (b.ending + w) ≤ max 0 (b'.ending + w') := by gcongr
  exact ⟨h, max_le_max hoverall h⟩

theorem foldl_extend_mono {weight weight' : α → G} {l l' : List α} {b b' : Best G}
    (hl : List.Forall₂ (fun a a' => weight a ≤ weight' a') l l')
    (hending : b.ending ≤ b'.ending) (hoverall : b.overall ≤ b'.overall) :
    (l.foldl (fun b a => extend b (weight a)) b).overall ≤
      (l'.foldl (fun b a => extend b (weight' a)) b').overall := by
  induction hl generalizing b b' with
  | nil => exact hoverall
  | cons hw _ ih =>
    obtain ⟨hending', hoverall'⟩ := extend_mono hending hoverall hw
    exact ih hending' hoverall'

theorem best_mono {weight weight' : α → G} {l l' : List α}
    (h : List.Forall₂ (fun a a' => weight a ≤ weight' a') l l') :
    (best weight l).overall ≤ (best weight' l').overall :=
  foldl_extend_mono h le_rfl le_rfl

end Optimum

end HeaviestRun
