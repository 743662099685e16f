import Mathlib.Algebra.BigOperators.Ring.Finset
import Mathlib.Algebra.Order.BigOperators.Group.Finset
import Mathlib.Algebra.Order.Ring.Defs
import Mathlib.Tactic.Linarith

/-!
# Greedy matchings

Candidates with a left and a right end are taken one after the other, unless an end of theirs is
taken already.

* `pairwise_greedy`: what is taken is a matching.
* `sum_le_two_mul_greedy`: if the heaviest candidates come first, no matching weighs more than twice
  as much.
-/

namespace GreedyMatching

variable {γ α β : Type*} [DecidableEq α] [DecidableEq β] {left : γ → α} {right : γ → β}

/-- What is taken of the candidates whose ends are free. -/
def greedy (left : γ → α) (right : γ → β) (isFree : γ → Bool) : List γ → List γ
  | [] => []
  | c :: cs =>
    if isFree c then
      c :: greedy left right (fun d => isFree d ∧ left d ≠ left c ∧ right d ≠ right c) cs
    else greedy left right isFree cs

/-- Candidates that do not share an end. -/
structure IsMatching (left : γ → α) (right : γ → β) (M : Finset γ) : Prop where
  left_injOn : Set.InjOn left M
  right_injOn : Set.InjOn right M

theorem greedy_sublist (isFree : γ → Bool) (cs : List γ) :
    (greedy left right isFree cs).Sublist cs := by
  induction cs generalizing isFree with
  | nil => exact List.Sublist.refl _
  | cons c cs ih =>
    rw [greedy]
    split
    · exact (ih _).cons_cons c
    · exact (ih _).cons c

theorem isFree_of_mem_greedy {isFree : γ → Bool} {cs : List γ} {d : γ}
    (h : d ∈ greedy left right isFree cs) : isFree d = true := by
  induction cs generalizing isFree with
  | nil => exact absurd h List.not_mem_nil
  | cons c cs ih =>
    rw [greedy] at h
    split at h
    · rename_i hfree
      rcases List.mem_cons.mp h with rfl | h
      · exact hfree
      · exact (of_decide_eq_true (ih h)).1
    · exact ih h

theorem pairwise_greedy (isFree : γ → Bool) (cs : List γ) :
    (greedy left right isFree cs).Pairwise fun c d => left c ≠ left d ∧ right c ≠ right d := by
  induction cs generalizing isFree with
  | nil => exact List.Pairwise.nil
  | cons c cs ih =>
    rw [greedy]
    split
    · refine List.pairwise_cons.mpr ⟨fun d hd => ?_, ih _⟩
      -- what is taken later does not have the ends of `c`
      have hfree := isFree_of_mem_greedy hd
      rw [decide_eq_true_eq] at hfree
      exact ⟨hfree.2.1.symm, hfree.2.2.symm⟩
    · exact ih _

omit [DecidableEq α] [DecidableEq β] in
theorem nodup_map_of_pairwise {cs : List γ}
    (h : cs.Pairwise fun c d => left c ≠ left d ∧ right c ≠ right d) :
    (cs.map left).Nodup ∧ (cs.map right).Nodup :=
  ⟨List.pairwise_map.mpr (h.imp And.left), List.pairwise_map.mpr (h.imp And.right)⟩

omit [DecidableEq α] [DecidableEq β] in
theorem isMatching_toFinset [DecidableEq γ] {cs : List γ}
    (h : cs.Pairwise fun c d => left c ≠ left d ∧ right c ≠ right d) :
    IsMatching left right cs.toFinset := by
  obtain ⟨hleft, hright⟩ := nodup_map_of_pairwise h
  refine ⟨fun c hc d hd heq => ?_, fun c hc d hd heq => ?_⟩
  · exact List.inj_on_of_nodup_map hleft (List.mem_toFinset.mp hc) (List.mem_toFinset.mp hd) heq
  · exact List.inj_on_of_nodup_map hright (List.mem_toFinset.mp hc) (List.mem_toFinset.mp hd) heq

section Weights

variable {G : Type*} [CommRing G] [LinearOrder G] [IsStrictOrderedRing G] {weight : γ → G}

/-- Of candidates that differ in an end, one at most has it, and it is no heavier than `c`. -/
theorem sum_filter_le {ε : Type*} [DecidableEq ε] {ends : γ → ε} {M : Finset γ} {c : γ}
    (hends : Set.InjOn ends M) (hc : 0 ≤ weight c) (hle : ∀ d ∈ M, weight d ≤ weight c) :
    ∑ d ∈ M with ends d = ends c, weight d ≤ weight c := by
  have hcard : (M.filter fun d => ends d = ends c).card ≤ 1 := by
    refine Finset.card_le_one.mpr fun a ha b hb => ?_
    rw [Finset.mem_filter] at ha hb
    exact hends ha.1 hb.1 (ha.2.trans hb.2.symm)
  calc ∑ d ∈ M with ends d = ends c, weight d
      ≤ (M.filter fun d => ends d = ends c).card • weight c :=
        Finset.sum_le_card_nsmul _ _ _ fun d hd => hle d (Finset.mem_filter.mp hd).1
    _ ≤ 1 • weight c := nsmul_le_nsmul_left hc hcard
    _ = weight c := one_nsmul _

/-- A candidate that is taken costs a matching two others at most. -/
theorem sum_le_two_mul_add {M : Finset γ} {c : γ} (hM : IsMatching left right M)
    (hnonneg : ∀ d ∈ M, 0 ≤ weight d) (hc : 0 ≤ weight c) (hle : ∀ d ∈ M, weight d ≤ weight c) :
    ∑ d ∈ M, weight d ≤
      2 * weight c + ∑ d ∈ M with left d ≠ left c ∧ right d ≠ right c, weight d := by
  have hsplit := Finset.sum_filter_add_sum_filter_not M
    (fun d => left d ≠ left c ∧ right d ≠ right c) weight
  -- what shares an end with `c` shares the left or the right one
  have hblocked : ∑ d ∈ M with ¬(left d ≠ left c ∧ right d ≠ right c), weight d ≤
      ∑ d ∈ M with left d = left c, weight d + ∑ d ∈ M with right d = right c, weight d := by
    rw [Finset.sum_filter, Finset.sum_filter, Finset.sum_filter, ← Finset.sum_add_distrib]
    refine Finset.sum_le_sum fun d hd => ?_
    have hweight := hnonneg d hd
    by_cases hleft : left d = left c
    · by_cases hright : right d = right c
      · simpa [hleft, hright] using hweight
      · simp [hleft, hright]
    · by_cases hright : right d = right c
      · simp [hleft, hright]
      · simp [hleft, hright]
  linarith [sum_filter_le hM.left_injOn hc hle, sum_filter_le hM.right_injOn hc hle]

omit [DecidableEq α] [DecidableEq β] in
theorem IsMatching.filter {M : Finset γ} (hM : IsMatching left right M) (p : γ → Prop)
    [DecidablePred p] : IsMatching left right (M.filter p) where
  left_injOn := hM.left_injOn.mono (Finset.coe_subset.mpr (Finset.filter_subset p M))
  right_injOn := hM.right_injOn.mono (Finset.coe_subset.mpr (Finset.filter_subset p M))

/-- No matching of free candidates weighs more than twice as much as what is taken. -/
theorem sum_le_two_mul_greedy {cs : List γ} (hsorted : cs.Pairwise fun c d => weight d ≤ weight c)
    (hnonneg : ∀ c ∈ cs, 0 ≤ weight c) {isFree : γ → Bool} {M : Finset γ}
    (hM : IsMatching left right M) (hmem : ∀ m ∈ M, m ∈ cs) (hfree : ∀ m ∈ M, isFree m = true) :
    ∑ m ∈ M, weight m ≤ 2 * ((greedy left right isFree cs).map weight).sum := by
  induction cs generalizing isFree M with
  | nil =>
    have hempty : M = ∅ := Finset.eq_empty_of_forall_notMem fun m hm =>
      List.not_mem_nil (hmem m hm)
    simp [hempty, greedy]
  | cons c cs ih =>
    rw [List.pairwise_cons] at hsorted
    rw [List.forall_mem_cons] at hnonneg
    rw [greedy]
    split
    · -- the candidate is taken, and the rest of the matching stays away from its ends
      have hnonnegM : ∀ m ∈ M, 0 ≤ weight m := fun m hm => by
        rcases List.mem_cons.mp (hmem m hm) with rfl | hm
        · exact hnonneg.1
        · exact hnonneg.2 m hm
      have hle : ∀ m ∈ M, weight m ≤ weight c := fun m hm => by
        rcases List.mem_cons.mp (hmem m hm) with rfl | hm
        · exact le_rfl
        · exact hsorted.1 m hm
      have hrest : ∀ m ∈ M.filter (fun m => left m ≠ left c ∧ right m ≠ right c),
          m ∈ cs ∧ decide (isFree m ∧ left m ≠ left c ∧ right m ≠ right c) = true := by
        intro m hm
        obtain ⟨hm, hleft, hright⟩ := Finset.mem_filter.mp hm
        refine ⟨?_, decide_eq_true ⟨hfree m hm, hleft, hright⟩⟩
        exact (List.mem_cons.mp (hmem m hm)).resolve_left fun heq => hleft (congrArg left heq)
      have hsum := ih hsorted.2 hnonneg.2
        (hM.filter fun m => left m ≠ left c ∧ right m ≠ right c) (fun m hm => (hrest m hm).1)
        fun m hm => (hrest m hm).2
      have hadd := sum_le_two_mul_add hM hnonnegM hnonneg.1 hle
      rw [List.map_cons, List.sum_cons, mul_add]
      linarith
    · rename_i hblocked
      -- a blocked candidate is not in the matching
      refine ih hsorted.2 hnonneg.2 hM (fun m hm => ?_) hfree
      rcases List.mem_cons.mp (hmem m hm) with rfl | hm'
      · exact absurd (hfree _ hm) hblocked
      · exact hm'

end Weights

end GreedyMatching
