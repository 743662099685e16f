import JavaExamples.Common.GreedyMatching
import JavaExamples.Common.WeightedSum
import JavaExamples.SimMetrics.CostFunctions
import Mathlib.Data.List.Intervals
import Mathlib.Data.Rat.Floor

/-!
# Tag-link tokens

Letters that are the same and not too far apart are candidates for a match, the nearer the better.
They are taken greedily, and what is taken is compared to the lengths of both words.

* `getScore_half`: what is taken is a matching of letters, and no matching of candidates scores more
  than twice as much.
* `tagLinkToken_bounds`: the similarity goes from `0` to `1`, which a word has with itself only, and
  with an empty word there is none.
-/

namespace SimMetrics

open GreedyMatching WeightedSum

/-- A candidate, with its positions in both words. -/
structure Candidates (F : Type*) where
  tPos : ℕ
  uPos : ℕ
  score : F
  deriving DecidableEq

/-- The threshold is `DEF_TR` unless it is set. -/
structure TagLinkToken where
  tr : ℚ := 3 / 10

namespace TagLinkToken

variable {F : Type*}

/-! ## The metric -/

/-- The variables of an inner loop. No distance has been found yet if `lastTr` is `none`. -/
structure Scan (F : Type*) where
  lastTr : Option ℕ := none
  flag : Bool := false
  candidateList : List (Candidates F)

/-- One round of the inner loop. It stops as the distances grow again. -/
def visit (metric : TagLinkToken) (T U : JavaString) (t : ℕ) (scan : Scan ℚ) (u : ℕ) :
    Scan ℚ :=
  let tr2 := (t - u) + (u - t)
  if scan.flag then scan
  else if scan.lastTr.any fun lastTr => lastTr < tr2 then { scan with flag := true }
  else if T[t]? = U[u]? then
    let charScore := 1 - metric.tr * tr2
    { lastTr := some tr2
      flag := charScore = 1
      candidateList := scan.candidateList ++ [⟨t, u, charScore⟩] }
  else scan

def algorithm1 (metric : TagLinkToken) (T U : JavaString) : List (Candidates ℚ) :=
  let bound := ⌊1 / metric.tr⌋₊
  (List.range T.length).foldl (fun candidateList t =>
    ((List.Ico (t - bound) (min (t + bound + 1) U.length)).foldl (metric.visit T U t)
      { candidateList }).candidateList) []

/-- `Collections.sort`, with the best candidates first. -/
def sortList [LinearOrder F] (candidateList : List (Candidates F)) : List (Candidates F) :=
  candidateList.mergeSort fun c d => d.score ≤ c.score

/-- What has been taken, and the ends that are used up. -/
structure Taken (F : Type*) [Zero F] where
  scoreValue : F := 0
  tMap : List ℕ := []
  uMap : List ℕ := []
  largestIndex : ℤ := -1
  matched : ℕ := 0

def take [AddMonoid F] (taken : Taken F) (c : Candidates F) : Taken F :=
  if c.tPos ∉ taken.tMap ∧ c.uPos ∉ taken.uMap then
    { scoreValue := taken.scoreValue + c.score
      tMap := c.tPos :: taken.tMap
      uMap := c.uPos :: taken.uMap
      largestIndex := if taken.largestIndex < c.tPos then c.tPos else taken.largestIndex
      matched := taken.matched + 1 }
  else taken

def getScore [AddMonoid F] (candidateList : List (Candidates F)) : Taken F :=
  candidateList.foldl take {}

def getPrefix (T U : JavaString) : ℕ :=
  let bound := min 4 (min T.length U.length)
  ((List.range bound).find? fun i => T[i]? ≠ U[i]?).getD bound

def winkler (score : ℚ) (T U : JavaString) : ℚ :=
  score + getPrefix T U * (1 / 10) * (1 - score)

/-- A score is divided by both lengths. If one of them is zero, so is the score, and there is no
number. -/
def getSimilarity (metric : TagLinkToken) (T U : JavaString) : Option ℚ :=
  if T = U then some 1
  else
    let (T, U) := if T.length < U.length then (U, T) else (T, U)
    let score := (getScore (sortList (metric.algorithm1 T U))).scoreValue
    if U.length = 0 then none
    else some (winkler ((score / T.length + score / U.length) / 2) T U)

/-! ## Candidates -/

section Candidates

variable {metric : TagLinkToken} {T U : JavaString} {c : Candidates ℚ}

/-- A candidate has the same letter twice, and its score goes down with their distance. -/
structure IsCandidate (metric : TagLinkToken) (T U : JavaString) (c : Candidates ℚ) : Prop where
  tPos_lt : c.tPos < T.length
  uPos_lt : c.uPos < U.length
  same : T[c.tPos]? = U[c.uPos]?
  score_eq : c.score = 1 - metric.tr * ((c.tPos - c.uPos) + (c.uPos - c.tPos) : ℕ)
  near : (c.tPos - c.uPos) + (c.uPos - c.tPos) ≤ ⌊1 / metric.tr⌋₊

theorem isCandidate_visit {t u : ℕ} {scan : Scan ℚ} (ht : t < T.length) (hu : u < U.length)
    (hnear : (t - u) + (u - t) ≤ ⌊1 / metric.tr⌋₊)
    (hscan : ∀ c ∈ scan.candidateList, IsCandidate metric T U c) :
    ∀ c ∈ (metric.visit T U t scan u).candidateList, IsCandidate metric T U c := by
  unfold visit
  dsimp only
  split
  · exact hscan
  split
  · exact hscan
  split
  · rename_i hsame
    intro c hc
    rcases List.mem_append.mp hc with hc | hc
    · exact hscan c hc
    · rw [List.mem_singleton] at hc
      rw [hc]
      exact ⟨ht, hu, hsame, rfl, hnear⟩
  · exact hscan

theorem isCandidate_algorithm1 (metric : TagLinkToken) (T U : JavaString) :
    ∀ c ∈ metric.algorithm1 T U, IsCandidate metric T U c := by
  unfold algorithm1
  refine List.foldlRecOn (motive := fun candidateList =>
    ∀ c ∈ candidateList, IsCandidate metric T U c) _ _ (fun _ hc => absurd hc List.not_mem_nil)
    fun candidateList hlist t ht => ?_
  refine List.foldlRecOn (motive := fun scan : Scan ℚ =>
    ∀ c ∈ scan.candidateList, IsCandidate metric T U c) _ _ (b := { candidateList }) hlist
    fun scan hscan u hu => ?_
  rw [List.Ico.mem, lt_min_iff] at hu
  exact isCandidate_visit (List.mem_range.mp ht) hu.2.2 (by omega) hscan

theorem IsCandidate.score_nonneg (h : IsCandidate metric T U c) (htr : 0 < metric.tr) :
    0 ≤ c.score := by
  have hnear : (((c.tPos - c.uPos) + (c.uPos - c.tPos) : ℕ) : ℚ) ≤ 1 / metric.tr :=
    (Nat.cast_le.mpr h.near).trans (Nat.floor_le (one_div_nonneg.mpr htr.le))
  rw [le_div_iff₀ htr, mul_comm] at hnear
  rw [h.score_eq]
  linarith

theorem IsCandidate.score_le (h : IsCandidate metric T U c) (htr : 0 < metric.tr) :
    c.score ≤ 1 := by
  rw [h.score_eq]
  exact sub_le_self _ (mul_nonneg htr.le (Nat.cast_nonneg _))

/-- The best score is that of letters at the same position. -/
theorem IsCandidate.score_eq_one_iff (h : IsCandidate metric T U c) (htr : 0 < metric.tr) :
    c.score = 1 ↔ c.tPos = c.uPos := by
  rw [h.score_eq, sub_eq_self, mul_eq_zero, or_iff_right htr.ne', Nat.cast_eq_zero]
  omega

end Candidates

/-! ## What is taken -/

section Taken

variable {metric : TagLinkToken} {T U : JavaString}

/-- Whether a candidate may still be taken. -/
def isFree [AddMonoid F] (taken : Taken F) (c : Candidates F) : Bool :=
  c.tPos ∉ taken.tMap ∧ c.uPos ∉ taken.uMap

theorem foldl_take [AddMonoid F] (cs : List (Candidates F)) (taken : Taken F) :
    (cs.foldl take taken).scoreValue = taken.scoreValue +
        ((greedy Candidates.tPos Candidates.uPos (isFree taken) cs).map Candidates.score).sum ∧
      (cs.foldl take taken).matched = taken.matched +
        (greedy Candidates.tPos Candidates.uPos (isFree taken) cs).length := by
  induction cs generalizing taken with
  | nil => simp [greedy]
  | cons c cs ih =>
    rw [List.foldl_cons, greedy]
    obtain ⟨hscore, hmatched⟩ := ih (take taken c)
    rw [hscore, hmatched]
    by_cases hfree : isFree taken c = true
    · have hends : c.tPos ∉ taken.tMap ∧ c.uPos ∉ taken.uMap := of_decide_eq_true hfree
      -- the ends of `c` are used up for the others
      have hrest : isFree (take taken c) =
          fun d => decide (isFree taken d ∧ d.tPos ≠ c.tPos ∧ d.uPos ≠ c.uPos) := by
        funext d
        simp only [isFree, take, if_pos hends, List.mem_cons, not_or, decide_eq_decide,
          decide_eq_true_eq]
        tauto
      rw [if_pos hfree, hrest, take, if_pos hends, List.map_cons, List.sum_cons,
        List.length_cons]
      exact ⟨add_assoc _ _ _, Nat.succ_add_eq_add_succ _ _⟩
    · have hends : ¬(c.tPos ∉ taken.tMap ∧ c.uPos ∉ taken.uMap) := fun h =>
        hfree (decide_eq_true h)
      rw [if_neg hfree, take, if_neg hends]
      exact ⟨rfl, rfl⟩

/-- The candidates that are taken, the best ones first. -/
def takenOf [LinearOrder F] (candidateList : List (Candidates F)) : List (Candidates F) :=
  greedy Candidates.tPos Candidates.uPos (fun _ => true) (sortList candidateList)

theorem getScore_eq [AddMonoid F] [LinearOrder F] (candidateList : List (Candidates F)) :
    (getScore (sortList candidateList)).scoreValue =
        ((takenOf candidateList).map Candidates.score).sum ∧
      (getScore (sortList candidateList)).matched = (takenOf candidateList).length := by
  have hfree : isFree ({} : Taken F) = fun _ => true := by
    funext c
    simp [isFree]
  obtain ⟨hscore, hmatched⟩ := foldl_take (sortList candidateList) {}
  rw [hfree] at hscore hmatched
  exact ⟨hscore.trans (zero_add _), hmatched.trans (Nat.zero_add _)⟩

theorem mem_of_mem_takenOf [LinearOrder F] {candidateList : List (Candidates F)}
    {c : Candidates F} (h : c ∈ takenOf candidateList) : c ∈ candidateList :=
  (List.mergeSort_perm _ _).mem_iff.mp ((greedy_sublist _ _).subset h)

theorem pairwise_sortList [LinearOrder F] (candidateList : List (Candidates F)) :
    (sortList candidateList).Pairwise fun c d => d.score ≤ c.score := by
  have hsorted : (sortList candidateList).Pairwise fun c d => decide (d.score ≤ c.score) = true :=
    List.pairwise_mergeSort (fun a b c hab hbc => decide_eq_true
      ((of_decide_eq_true hbc).trans (of_decide_eq_true hab)))
      (fun a b => by simpa using le_total b.score a.score) candidateList
  exact hsorted.imp fun h => of_decide_eq_true h

theorem pairwise_takenOf [LinearOrder F] (candidateList : List (Candidates F)) :
    (takenOf candidateList).Pairwise fun c d => c.tPos ≠ d.tPos ∧ c.uPos ≠ d.uPos :=
  pairwise_greedy _ _

/-- Candidates no two of which share a letter. -/
def IsLetterMatching (candidateList : List (Candidates F)) (M : Finset (Candidates F)) : Prop :=
  (∀ c ∈ M, c ∈ candidateList) ∧ IsMatching Candidates.tPos Candidates.uPos M

/-- What is taken scores at least half as much as any other choice of candidates. -/
theorem getScore_half (T U : JavaString) :
    let taken := getScore (sortList (algorithm1 {} T U))
    (∃ M, IsLetterMatching (algorithm1 {} T U) M ∧ ∑ c ∈ M, c.score = taken.scoreValue ∧
        M.card = taken.matched) ∧
      ∀ M, IsLetterMatching (algorithm1 {} T U) M → ∑ c ∈ M, c.score ≤ 2 * taken.scoreValue := by
  intro taken
  obtain ⟨hscore, hmatched⟩ := getScore_eq (algorithm1 {} T U)
  have hpairwise := pairwise_takenOf (algorithm1 {} T U)
  have hnodup : (takenOf (algorithm1 {} T U)).Nodup :=
    hpairwise.imp fun h heq => h.1 (congrArg Candidates.tPos heq)
  refine ⟨⟨(takenOf (algorithm1 {} T U)).toFinset, ⟨fun c hc => ?_, isMatching_toFinset hpairwise⟩,
    ?_, ?_⟩, fun M hM => ?_⟩
  · exact mem_of_mem_takenOf (List.mem_toFinset.mp hc)
  · rw [List.sum_toFinset _ hnodup, ← hscore]
  · rw [List.toFinset_card_of_nodup hnodup, ← hmatched]
  · have hmem : ∀ c, c ∈ sortList (algorithm1 {} T U) ↔ c ∈ algorithm1 {} T U := fun c =>
      (List.mergeSort_perm _ _).mem_iff
    have hsum : ∑ c ∈ M, c.score ≤
        2 * ((takenOf (algorithm1 {} T U)).map Candidates.score).sum :=
      sum_le_two_mul_greedy (pairwise_sortList (algorithm1 {} T U))
        (fun c hc => (isCandidate_algorithm1 {} T U c ((hmem c).mp hc)).score_nonneg (by norm_num))
        hM.2 (fun c hc => (hmem c).mpr (hM.1 c hc)) fun _ _ => rfl
    exact hsum.trans_eq (congrArg (2 * ·) hscore.symm)

end Taken

/-! ## The similarity -/

section Similarity

variable {metric : TagLinkToken} {T U : JavaString}

theorem subperm_takenOf [LinearOrder F] {candidateList : List (Candidates F)} {n m : ℕ}
    (h : ∀ c ∈ candidateList, c.tPos < n ∧ c.uPos < m) :
    ((takenOf candidateList).map Candidates.tPos).Subperm (List.range n) ∧
      ((takenOf candidateList).map Candidates.uPos).Subperm (List.range m) := by
  obtain ⟨ht, hu⟩ := nodup_map_of_pairwise (pairwise_takenOf candidateList)
  refine ⟨ht.subperm fun t hmem => ?_, hu.subperm fun u hmem => ?_⟩
  · obtain ⟨c, hc, rfl⟩ := List.mem_map.mp hmem
    exact List.mem_range.mpr (h c (mem_of_mem_takenOf hc)).1
  · obtain ⟨c, hc, rfl⟩ := List.mem_map.mp hmem
    exact List.mem_range.mpr (h c (mem_of_mem_takenOf hc)).2

theorem positions_algorithm1 (metric : TagLinkToken) (T U : JavaString) :
    ∀ c ∈ metric.algorithm1 T U, c.tPos < T.length ∧ c.uPos < U.length := fun c hc =>
  have hcandidate := isCandidate_algorithm1 metric T U c hc
  ⟨hcandidate.tPos_lt, hcandidate.uPos_lt⟩

/-- Every letter of the shorter word counts for `1` at most, and for that it has to stand at the
same position in the longer one. -/
theorem sum_takenOf_bounds (htr : 0 < metric.tr) :
    0 ≤ ((takenOf (metric.algorithm1 T U)).map Candidates.score).sum ∧
      ((takenOf (metric.algorithm1 T U)).map Candidates.score).sum ≤ U.length ∧
      (((takenOf (metric.algorithm1 T U)).map Candidates.score).sum = U.length →
        ∀ u < U.length, T[u]? = U[u]?) := by
  have hcandidate : ∀ c ∈ takenOf (metric.algorithm1 T U), IsCandidate metric T U c := fun c hc =>
    isCandidate_algorithm1 metric T U c (mem_of_mem_takenOf hc)
  have hcapped : ∀ c ∈ takenOf (metric.algorithm1 T U), c.score ≤ 1 := fun c hc =>
    (hcandidate c hc).score_le htr
  have hsubperm := (subperm_takenOf (positions_algorithm1 metric T U)).2
  have hlength : ((takenOf (metric.algorithm1 T U)).length : ℚ) ≤ U.length := by
    simpa using hsubperm.length_le
  have hle := sum_mul_le (fun _ _ => zero_le_one) hcapped
  have hiff := sum_mul_eq_iff (fun _ _ => one_pos) hcapped
  simp only [one_mul, List.map_const', List.sum_replicate, nsmul_eq_mul, mul_one] at hle hiff
  refine ⟨?_, hle.trans hlength, fun heq u hu => ?_⟩
  · exact List.sum_nonneg (List.forall_mem_map.mpr fun c hc => (hcandidate c hc).score_nonneg htr)
  · -- all letters are taken, each at its own position
    have hall := hiff.mp (le_antisymm hle (hlength.trans heq.ge))
    have hfull : (List.range U.length).length ≤
        ((takenOf (metric.algorithm1 T U)).map Candidates.uPos).length := by
      rw [heq, Nat.cast_le] at hle
      rwa [List.length_range, List.length_map]
    have hmem := (hsubperm.perm_of_length_le hfull).mem_iff.mpr (List.mem_range.mpr hu)
    obtain ⟨c, hc, rfl⟩ := List.mem_map.mp hmem
    have hpos := ((hcandidate c hc).score_eq_one_iff htr).mp (hall c hc)
    exact hpos ▸ (hcandidate c hc).same

theorem getPrefix_le (T U : JavaString) : getPrefix T U ≤ 4 := by
  rw [getPrefix]
  rcases hfind : (List.range (min 4 (min T.length U.length))).find? fun i => T[i]? ≠ U[i]? with
    _ | i
  · rw [hfind, Option.getD_none]
    exact min_le_left _ _
  · have hi := List.mem_range.mp (List.mem_of_find?_eq_some hfind)
    rw [hfind, Option.getD_some]
    exact (hi.trans_le (min_le_left _ _)).le

/-- A common beginning takes away a part of what is missing, but never all of it. -/
theorem winkler_bounds {score : ℚ} (hnonneg : 0 ≤ score) (hlt : score < 1) (T U : JavaString) :
    0 ≤ winkler score T U ∧ winkler score T U < 1 := by
  have hbegins : (getPrefix T U : ℚ) ≤ 4 := by exact_mod_cast getPrefix_le T U
  have hprefixNonneg : (0 : ℚ) ≤ getPrefix T U := Nat.cast_nonneg _
  unfold winkler
  constructor
  · have hgain : 0 ≤ getPrefix T U * (1 / 10) * (1 - score) :=
      mul_nonneg (by positivity) (sub_nonneg.mpr hlt.le)
    linarith
  -- four letters of prefix leave six tenths of what is missing
  · have hrest : 0 < (1 - getPrefix T U * (1 / 10)) * (1 - score) :=
      mul_pos (by linarith) (sub_pos.mpr hlt)
    linarith

/-- Both shares are whole only if all letters of both words are taken. -/
theorem share_bounds {score : ℚ} {n m : ℕ} (hm : 0 < m) (hle : m ≤ n) (hnonneg : 0 ≤ score)
    (hscore : score ≤ m) (hfull : score = m → n ≠ m) :
    0 ≤ (score / n + score / m) / 2 ∧ (score / n + score / m) / 2 < 1 := by
  have hmpos : (0 : ℚ) < m := Nat.cast_pos.mpr hm
  have hmn : (m : ℚ) ≤ n := Nat.cast_le.mpr hle
  have hnpos := hmpos.trans_le hmn
  have hshareN := (div_le_one hnpos).mpr (hscore.trans hmn)
  have hshareM := (div_le_one hmpos).mpr hscore
  refine ⟨by positivity, ?_⟩
  by_contra hge
  have hwholeN : score / n = 1 := by linarith
  have hwholeM : score / m = 1 := by linarith
  rw [div_eq_one_iff_eq hnpos.ne'] at hwholeN
  rw [div_eq_one_iff_eq hmpos.ne'] at hwholeM
  exact hfull hwholeM (by exact_mod_cast hwholeN.symm.trans hwholeM)

/-- The words change places so that the longer one comes first. -/
theorem getSimilarity_of_lt (hlt : T.length < U.length) :
    metric.getSimilarity T U = metric.getSimilarity U T := by
  have hne : T ≠ U := fun heq => hlt.ne (congrArg List.length heq)
  unfold getSimilarity
  rw [if_neg hne, if_neg hne.symm, if_pos hlt, if_neg hlt.not_gt]

theorem getSimilarity_of_le (hne : T ≠ U) (hle : U.length ≤ T.length) :
    metric.getSimilarity T U =
      let score := (getScore (sortList (metric.algorithm1 T U))).scoreValue
      if U.length = 0 then none
      else some (winkler ((score / T.length + score / U.length) / 2) T U) := by
  unfold getSimilarity
  rw [if_neg hne, if_neg hle.not_gt]

theorem bounds_of_le (htr : 0 < metric.tr) (hne : T ≠ U) (hle : U.length ≤ T.length) :
    (metric.getSimilarity T U = none ↔ U = []) ∧
      ∀ similarity, metric.getSimilarity T U = some similarity →
        0 ≤ similarity ∧ similarity < 1 := by
  rw [getSimilarity_of_le hne hle, (getScore_eq (metric.algorithm1 T U)).1]
  dsimp only
  by_cases hU : U.length = 0
  · rw [if_pos hU]
    exact ⟨iff_of_true rfl (List.length_eq_zero_iff.mp hU), fun _ h => nomatch h⟩
  · rw [if_neg hU]
    refine ⟨iff_of_false (Option.some_ne_none _) fun h => hU (congrArg List.length h),
      fun similarity h => ?_⟩
    obtain ⟨hscoreNonneg, hscore, hall⟩ := sum_takenOf_bounds (T := T) (U := U) htr
    -- words of one length that agree in all letters are the same
    have hfull : ((takenOf (metric.algorithm1 T U)).map Candidates.score).sum = U.length →
        T.length ≠ U.length := by
      refine fun heq hlength => hne (List.ext_getElem? fun u => ?_)
      rcases Nat.lt_or_ge u U.length with hu | hu
      · exact hall heq u hu
      · rw [List.getElem?_eq_none hu, List.getElem?_eq_none (hlength ▸ hu)]
    obtain ⟨hnonneg, hlt⟩ := share_bounds (Nat.pos_of_ne_zero hU) hle hscoreNonneg hscore hfull
    rw [← Option.some.inj h]
    exact winkler_bounds hnonneg hlt T U

theorem bounds_of_ne (htr : 0 < metric.tr) (hne : T ≠ U) :
    (metric.getSimilarity T U = none ↔ T = [] ∨ U = []) ∧
      ∀ similarity, metric.getSimilarity T U = some similarity →
        0 ≤ similarity ∧ similarity < 1 := by
  -- an empty word is the shorter one
  have hshort : ∀ {T U : JavaString}, T ≠ U → U.length ≤ T.length → T ≠ [] := by
    rintro T U hne hle rfl
    exact hne (List.length_eq_zero_iff.mp (Nat.le_zero.mp hle)).symm
  rcases lt_or_ge T.length U.length with hlt | hle
  · rw [getSimilarity_of_lt hlt, or_iff_left (hshort hne.symm hlt.le)]
    exact bounds_of_le htr hne.symm hlt.le
  · rw [or_iff_right (hshort hne hle)]
    exact bounds_of_le htr hne hle

/-- Words that are not the same are not fully similar. -/
theorem tagLinkToken_bounds (T U : JavaString) :
    (getSimilarity {} T U = none ↔ T ≠ U ∧ (T = [] ∨ U = [])) ∧
      ∀ similarity, getSimilarity {} T U = some similarity →
        0 ≤ similarity ∧ similarity ≤ 1 ∧ (similarity = 1 ↔ T = U) := by
  by_cases heq : T = U
  · have hsome : getSimilarity {} T U = some 1 := if_pos heq
    rw [hsome]
    refine ⟨iff_of_false (Option.some_ne_none 1) fun h => h.1 heq, fun similarity h => ?_⟩
    rw [← Option.some.inj h]
    exact ⟨zero_le_one, le_rfl, iff_of_true rfl heq⟩
  · have htr : (0 : ℚ) < TagLinkToken.tr {} := by norm_num
    obtain ⟨hnone, hsome⟩ := bounds_of_ne htr heq
    refine ⟨hnone.trans (and_iff_right heq).symm, fun similarity h => ?_⟩
    obtain ⟨hnonneg, hlt⟩ := hsome similarity h
    exact ⟨hnonneg, hlt.le, iff_of_false hlt.ne heq⟩

end Similarity

end TagLinkToken

end SimMetrics
