import Mathlib.Data.List.Intervals
import Mathlib.Algebra.Order.Field.Basic
import Mathlib.Tactic.Linarith
import Mathlib.Tactic.Positivity
import Mathlib.Tactic.FieldSimp
import Mathlib.Tactic.Ring
import JavaExamples.SimMetrics.CostFunctions

/-!
# Jaro

The letters that two strings have in common are looked for nearby, but the loop over the second
string ends before its last letter.

* `jaro_bounds`: the similarity goes from `0` to `1`, but without zero letters no two strings come
  closer to `1` than equal strings do, and these do not reach it.
* `extension_eq_zero`: a string and what continues it are not similar at all.
-/

namespace SimMetrics

/-- What is found first in a sorted list is the least of what could be found. -/
theorem le_of_find?_eq_some {l : List ℕ} (hsorted : l.Pairwise (· < ·)) {p : ℕ → Bool} {j : ℕ}
    (h : l.find? p = some j) {k : ℕ} (hk : k ∈ l) (hp : p k = true) : j ≤ k := by
  obtain ⟨-, before, behind, rfl, hbefore⟩ := List.find?_eq_some_iff_append.mp h
  rcases List.mem_append.mp hk with hk | hk
  · have hnot := hbefore k hk
    rw [hp] at hnot
    exact absurd hnot (by decide)
  · rcases List.mem_cons.mp hk with rfl | hk
    · exact le_rfl
    · exact ((List.pairwise_cons.mp (List.pairwise_append.mp hsorted).2.1).1 k hk).le

namespace Jaro

variable {s t : JavaString} {distanceSep : ℕ}

/-- One round of the loop over `string1`: a letter that is found in the copy of `string2` is used up
there. -/
def findCommon (distanceSep : ℕ) (found : JavaString × JavaString) (letter : JavaChar × ℕ) :
    JavaString × JavaString :=
  let (returnCommons, copy) := found
  let (ch, i) := letter
  match (List.Ico (i - distanceSep) (min (i + distanceSep) (copy.length - 1))).find? fun j =>
      copy[j]? = some ch with
  | some j => (returnCommons ++ [ch], copy.set j 0)
  | none => (returnCommons, copy)

/-- The letters in common and what the copy of `string2` is in the end. -/
def scan (string1 string2 : JavaString) (distanceSep : ℕ) : JavaString × JavaString :=
  string1.zipIdx.foldl (findCommon distanceSep) ([], string2)

def getCommonCharacters (string1 string2 : JavaString) (distanceSep : ℕ) : JavaString :=
  (scan string1 string2 distanceSep).1

def halflen (string1 string2 : JavaString) : ℕ :=
  min string1.length string2.length / 2 + min string1.length string2.length % 2

def transpositions (common1 common2 : JavaString) : ℕ :=
  (common1.zip common2).countP (fun letters => letters.1 ≠ letters.2) / 2

def getSimilarity (string1 string2 : JavaString) : ℚ :=
  let common1 := getCommonCharacters string1 string2 (halflen string1 string2)
  let common2 := getCommonCharacters string2 string1 (halflen string1 string2)
  if common1.length = 0 ∨ common2.length = 0 then 0
  else if common1.length ≠ common2.length then 0
  else (common1.length / string1.length + common2.length / string2.length +
    (common1.length - transpositions common1 common2) / common1.length) / 3

/-! ## The loop over the first string -/

/-- What one round does. The letter that is used up is the first one in reach. -/
theorem findCommon_cases (distanceSep : ℕ) (returnCommons copy : JavaString) (ch : JavaChar)
    (i : ℕ) :
    (∃ j < copy.length - 1, copy[j]? = some ch ∧
      (∀ k < copy.length - 1, i - distanceSep ≤ k → k < i + distanceSep → copy[k]? = some ch →
        j ≤ k) ∧
      findCommon distanceSep (returnCommons, copy) (ch, i) =
        (returnCommons ++ [ch], copy.set j 0)) ∨
    (∀ k < copy.length - 1, i - distanceSep ≤ k → k < i + distanceSep → copy[k]? ≠ some ch) ∧
      findCommon distanceSep (returnCommons, copy) (ch, i) = (returnCommons, copy) := by
  unfold findCommon
  rcases hfind : (List.Ico (i - distanceSep) (min (i + distanceSep) (copy.length - 1))).find?
      fun j => copy[j]? = some ch with _ | j
  · refine .inr ⟨fun k hk hfirst hlast hch => ?_, by simp only [hfind]⟩
    have hmem : k ∈ List.Ico (i - distanceSep) (min (i + distanceSep) (copy.length - 1)) :=
      List.Ico.mem.mpr ⟨hfirst, lt_min hlast hk⟩
    have hnot := List.find?_eq_none.mp hfind k hmem
    rw [decide_eq_true_eq] at hnot
    exact hnot hch
  · have hj := List.find?_some hfind
    have hmem : j ∈ List.Ico (i - distanceSep) (min (i + distanceSep) (copy.length - 1)) :=
      List.mem_of_find?_eq_some hfind
    rw [List.Ico.mem, lt_min_iff] at hmem
    rw [decide_eq_true_eq] at hj
    refine .inl ⟨j, hmem.2.2, hj, fun k hk hfirst hlast hch => ?_, by simp only [hfind]⟩
    exact le_of_find?_eq_some (List.Ico.pairwise_lt _ _) hfind
      (List.Ico.mem.mpr ⟨hfirst, lt_min hlast hk⟩) (decide_eq_true hch)

theorem scan_concat (ch : JavaChar) :
    scan (s ++ [ch]) t distanceSep =
      findCommon distanceSep (scan s t distanceSep) (ch, s.length) := by
  simp [scan, List.zipIdx_append]

theorem length_scan : (scan s t distanceSep).2.length = t.length := by
  -- the loop goes to the right, so the induction adds letters behind
  induction s using List.reverseRecOn with
  | nil => rfl
  | append_singleton p ch ih =>
    rw [scan_concat]
    obtain ⟨j, -, -, -, hfound⟩ | ⟨-, hfound⟩ := findCommon_cases distanceSep
      (scan p t distanceSep).1 (scan p t distanceSep).2 ch p.length
    · rw [hfound, List.length_set, ih]
    · rw [hfound, ih]

theorem getCommonCharacters_sublist : (getCommonCharacters s t distanceSep).Sublist s := by
  induction s using List.reverseRecOn with
  | nil => exact List.Sublist.refl _
  | append_singleton p ch ih =>
    rw [getCommonCharacters, scan_concat]
    obtain ⟨j, -, -, -, hfound⟩ | ⟨-, hfound⟩ := findCommon_cases distanceSep
      (scan p t distanceSep).1 (scan p t distanceSep).2 ch p.length
    · rw [hfound]
      exact ih.append_right [ch]
    · rw [hfound]
      exact ih.trans (List.sublist_append_left _ _)

/-- Every letter that is found uses one up, and the last one is out of reach. -/
theorem length_add_countP_scan (t : JavaString) (distanceSep : ℕ) (hs : 0 ∉ s) :
    (scan s t distanceSep).1.length +
        ((scan s t distanceSep).2.take (t.length - 1)).countP (fun ch => ch ≠ 0) =
      (t.take (t.length - 1)).countP (fun ch => ch ≠ 0) := by
  induction s using List.reverseRecOn with
  | nil => exact Nat.zero_add _
  | append_singleton p ch ih =>
    rw [List.mem_append, not_or, List.mem_singleton] at hs
    have hlength : (scan p t distanceSep).2.length = t.length := length_scan
    rw [scan_concat, ← ih hs.1]
    obtain ⟨j, hj, hch, -, hfound⟩ | ⟨-, hfound⟩ := findCommon_cases distanceSep
      (scan p t distanceSep).1 (scan p t distanceSep).2 ch p.length
    · rw [hlength] at hj
      -- a letter that is found stood in front of the last position and was not zero
      have hlt : j < ((scan p t distanceSep).2.take (t.length - 1)).length := by
        rw [List.length_take, hlength]
        omega
      have hget : ((scan p t distanceSep).2.take (t.length - 1))[j] = ch := by
        rw [List.getElem_take]
        exact (List.getElem?_eq_some_iff.mp hch).2
      have hpos : 0 < ((scan p t distanceSep).2.take (t.length - 1)).countP fun ch => ch ≠ 0 :=
        List.countP_pos_iff.mpr ⟨ch, hget ▸ List.getElem_mem hlt, decide_eq_true (Ne.symm hs.2)⟩
      rw [hfound, List.take_set, List.countP_set hlt, hget, if_pos (decide_eq_true (Ne.symm hs.2)),
        if_neg (by simp), List.length_append, List.length_singleton]
      omega
    · rw [hfound]

theorem length_getCommonCharacters_le (t : JavaString) (distanceSep : ℕ) (hs : 0 ∉ s) :
    (getCommonCharacters s t distanceSep).length ≤ t.length - 1 := by
  have hcount := length_add_countP_scan t distanceSep hs
  have hle : (t.take (t.length - 1)).countP (fun ch => ch ≠ 0) ≤ t.length - 1 :=
    List.countP_le_length.trans (List.length_take_le _ _)
  rw [getCommonCharacters]
  omega

/-- Every letter of a beginning of the second string is found, no further behind than it stands. -/
theorem scan_of_begins (hsep : 0 < distanceSep) (hbegins : s <+: t)
    (hlength : s.length ≤ t.length - 1) :
    (scan s t distanceSep).1 = s ∧
      (scan s t distanceSep).2.drop s.length = t.drop s.length := by
  induction s using List.reverseRecOn with
  | nil => exact ⟨rfl, rfl⟩
  | append_singleton p ch ih =>
    rw [List.length_append, List.length_singleton] at hlength
    obtain ⟨hcommon, hrest⟩ := ih ((List.prefix_append p [ch]).trans hbegins) (by omega)
    have hcopy : (scan p t distanceSep).2.length = t.length := length_scan
    obtain ⟨behind, ht⟩ := hbegins
    -- the letter itself is still there
    have hch : (scan p t distanceSep).2[p.length]? = some ch := by
      have hhead := congrArg List.head? hrest
      rw [List.head?_drop, List.head?_drop] at hhead
      rw [hhead, ← ht]
      simp
    rw [scan_concat]
    obtain ⟨j, -, -, hfirst, hfound⟩ | ⟨hnone, -⟩ := findCommon_cases distanceSep
      (scan p t distanceSep).1 (scan p t distanceSep).2 ch p.length
    · have hj : j ≤ p.length := hfirst p.length (by omega) (Nat.sub_le _ _) (by omega) hch
      rw [hfound, hcommon]
      refine ⟨rfl, ?_⟩
      rw [List.length_append, List.length_singleton, List.drop_set_of_lt (by omega),
        ← List.drop_drop, hrest, List.drop_drop]
    · exact absurd hch (hnone p.length (by omega) (Nat.sub_le _ _) (by omega))

/-! ## Equal strings, and strings that go on -/

theorem halflen_comm (s t : JavaString) : halflen s t = halflen t s := by
  rw [halflen, halflen, min_comm]

theorem halflen_pos (hs : 0 < s.length) (ht : 0 < t.length) : 0 < halflen s t := by
  have hmin : 0 < min s.length t.length := lt_min hs ht
  unfold halflen
  omega

theorem getCommonCharacters_append (hsep : 0 < distanceSep) {u : JavaString} (hu : u ≠ []) :
    getCommonCharacters s (s ++ u) distanceSep = s := by
  have hpos : 0 < u.length := List.length_pos_iff.mpr hu
  refine (scan_of_begins hsep (List.prefix_append s u) ?_).1
  rw [List.length_append]
  omega

/-- A string has all but its last letter in common with itself. -/
theorem getCommonCharacters_self (hsep : 0 < distanceSep) (hs : 0 ∉ s) :
    getCommonCharacters s s distanceSep = s.dropLast := by
  rcases List.eq_nil_or_concat' s with rfl | ⟨p, ch, rfl⟩
  · rfl
  have hcommon : (scan p (p ++ [ch]) distanceSep).1 = p :=
    getCommonCharacters_append hsep (List.cons_ne_nil _ _)
  have hle := length_getCommonCharacters_le (p ++ [ch]) distanceSep hs
  rw [List.dropLast_concat, getCommonCharacters]
  rw [getCommonCharacters, List.length_append, List.length_singleton, Nat.add_sub_cancel] at hle
  rw [scan_concat] at hle ⊢
  obtain ⟨j, -, -, -, hfound⟩ | ⟨-, hfound⟩ := findCommon_cases distanceSep
    (scan p (p ++ [ch]) distanceSep).1 (scan p (p ++ [ch]) distanceSep).2 ch p.length
  -- with the last letter found as well, more would be found than is in reach
  · rw [hfound, hcommon, List.length_append, List.length_singleton] at hle
    omega
  · rw [hfound, hcommon]

theorem transpositions_comm (common1 common2 : JavaString) :
    transpositions common1 common2 = transpositions common2 common1 := by
  rw [transpositions, transpositions, ← List.zip_swap common2 common1, List.countP_map]
  simp only [Function.comp_def, Prod.fst_swap, Prod.snd_swap, ne_comm]

theorem transpositions_le (common1 common2 : JavaString) :
    transpositions common1 common2 ≤ common1.length := by
  have hle : (common1.zip common2).length ≤ common1.length := by
    rw [List.length_zip]
    exact min_le_left _ _
  exact (Nat.div_le_self _ _).trans (List.countP_le_length.trans hle)

theorem transpositions_self (common : JavaString) : transpositions common common = 0 := by
  have hzero : (common.zip common).countP (fun letters => letters.1 ≠ letters.2) = 0 := by
    induction common with
    | nil => rfl
    | cons ch rest ih => simpa [List.zip_cons_cons] using ih
  rw [transpositions, hzero]

/-! ## The similarity -/

/-- If the similarity is not `0`, then each string finds as many letters in the other one. -/
theorem getSimilarity_cases (s t : JavaString) : getSimilarity s t = 0 ∨ ∃ n : ℕ,
    (getCommonCharacters s t (halflen s t)).length = n ∧
      (getCommonCharacters t s (halflen s t)).length = n ∧ 0 < n ∧
      getSimilarity s t = (n / s.length + n / t.length + (n - transpositions
        (getCommonCharacters s t (halflen s t))
        (getCommonCharacters t s (halflen s t))) / n) / 3 := by
  by_cases hzero : (getCommonCharacters s t (halflen s t)).length = 0 ∨
      (getCommonCharacters t s (halflen s t)).length = 0
  · exact .inl (by simp only [getSimilarity, if_pos hzero])
  by_cases hsame : (getCommonCharacters s t (halflen s t)).length =
      (getCommonCharacters t s (halflen s t)).length
  · refine .inr ⟨_, rfl, hsame.symm, Nat.pos_of_ne_zero (not_or.mp hzero).1, ?_⟩
    simp only [getSimilarity, if_neg hzero, if_neg (not_not.mpr hsame)]
    rw [← hsame]
  · exact .inl (by simp only [getSimilarity, if_neg hzero, if_pos hsame])

theorem getSimilarity_nil (h : s = [] ∨ t = []) : getSimilarity s t = 0 := by
  obtain hzero | ⟨n, hcommon1, hcommon2, hn, -⟩ := getSimilarity_cases s t
  · exact hzero
  · have hs : n ≤ s.length := hcommon1 ▸ getCommonCharacters_sublist.length_le
    have ht : n ≤ t.length := hcommon2 ▸ getCommonCharacters_sublist.length_le
    rcases h with rfl | rfl
    · exact absurd hn (not_lt.mpr hs)
    · exact absurd hn (not_lt.mpr ht)

theorem getSimilarity_comm (s t : JavaString) : getSimilarity s t = getSimilarity t s := by
  rw [getSimilarity, getSimilarity, halflen_comm t s]
  generalize getCommonCharacters s t (halflen s t) = common1
  generalize getCommonCharacters t s (halflen s t) = common2
  by_cases hzero : common1.length = 0 ∨ common2.length = 0
  · rw [if_pos hzero, if_pos hzero.symm]
  have hzero' : ¬(common2.length = 0 ∨ common1.length = 0) := fun h => hzero h.symm
  rw [if_neg hzero, if_neg hzero']
  by_cases hsame : common1.length = common2.length
  · rw [if_neg (not_not.mpr hsame), if_neg (not_not.mpr hsame.symm), transpositions_comm common2,
      hsame, add_comm (_ / (s.length : ℚ))]
  · rw [if_pos hsame, if_pos (Ne.symm hsame)]

theorem getSimilarity_nonneg (s t : JavaString) : 0 ≤ getSimilarity s t := by
  obtain hzero | ⟨n, hcommon1, -, -, heq⟩ := getSimilarity_cases s t
  · exact hzero.ge
  · have hle : ((transpositions (getCommonCharacters s t (halflen s t))
        (getCommonCharacters t s (halflen s t)) : ℕ) : ℚ) ≤ n :=
      Nat.cast_le.mpr (hcommon1 ▸ transpositions_le _ _)
    have hrest := sub_nonneg.mpr hle
    rw [heq]
    positivity

theorem share_le_one {k : ℕ} (hk : k ≤ 1) (n : ℕ) : (k / n : ℚ) ≤ 1 := by
  rcases Nat.eq_zero_or_pos n with rfl | hpos
  · rw [Nat.cast_zero, div_zero]
    exact zero_le_one
  · exact div_le_one_of_le₀ (Nat.cast_le.mpr (hk.trans hpos)) (Nat.cast_nonneg n)

theorem div_le_one_sub {n m k : ℕ} (hn : 0 < n) (h : n ≤ m - k) : (n / m : ℚ) ≤ 1 - k / m := by
  have hm : (0 : ℚ) < m := Nat.cast_pos.mpr (by omega)
  have hsum : ((n + k : ℕ) : ℚ) ≤ m := Nat.cast_le.mpr (by omega)
  rw [le_sub_iff_add_le, ← add_div, ← Nat.cast_add]
  exact div_le_one_of_le₀ hsum hm.le

/-- The letters that `k` of each string are not among bound the similarity. -/
theorem getSimilarity_le {k : ℕ} (hk : k ≤ 1)
    (hs : (getCommonCharacters t s (halflen s t)).length ≤ s.length - k)
    (ht : (getCommonCharacters s t (halflen s t)).length ≤ t.length - k) :
    getSimilarity s t ≤ 1 - (k / s.length + k / t.length) / 3 := by
  obtain hzero | ⟨n, hcommon1, hcommon2, hn, heq⟩ := getSimilarity_cases s t
  · have hfirst := share_le_one hk s.length
    have hsecond := share_le_one hk t.length
    rw [hzero]
    linarith
  · have hfirst := div_le_one_sub hn (hcommon2 ▸ hs)
    have hsecond := div_le_one_sub hn (hcommon1 ▸ ht)
    have hthird : ((n : ℚ) - transpositions (getCommonCharacters s t (halflen s t))
        (getCommonCharacters t s (halflen s t))) / n ≤ 1 :=
      div_le_one_of_le₀ (sub_le_self _ (Nat.cast_nonneg _)) (Nat.cast_nonneg n)
    rw [heq]
    linarith

theorem getSimilarity_le_one (s t : JavaString) : getSimilarity s t ≤ 1 := by
  obtain hzero | ⟨n, hcommon1, hcommon2, -, -⟩ := getSimilarity_cases s t
  · exact hzero.trans_le zero_le_one
  · have hs : n ≤ s.length := hcommon1 ▸ getCommonCharacters_sublist.length_le
    have ht : n ≤ t.length := hcommon2 ▸ getCommonCharacters_sublist.length_le
    simpa using getSimilarity_le (k := 0) zero_le_one (hcommon2.trans_le hs) (hcommon1.trans_le ht)

theorem getSimilarity_self (hs : 0 ∉ s) :
    getSimilarity s s = (if s.length < 2 then 0 else 1 - 2 / (3 * s.length) : ℚ) := by
  rcases Nat.eq_zero_or_pos s.length with hzero | hpos
  · rw [List.length_eq_zero_iff.mp hzero]
    rfl
  have hcommon := getCommonCharacters_self (halflen_pos hpos hpos) hs
  have hlength : s.dropLast.length = s.length - 1 := List.length_dropLast
  by_cases hshort : s.length < 2
  · have hone : s.dropLast.length = 0 := by omega
    simp only [getSimilarity, hcommon, hone, true_or, if_true, if_pos hshort]
  · have hne : s.dropLast.length ≠ 0 := by omega
    have hcast : (s.dropLast.length : ℚ) = s.length - 1 := by
      rw [hlength, Nat.cast_sub hpos, Nat.cast_one]
    have hcastne : (s.length : ℚ) - 1 ≠ 0 := hcast ▸ Nat.cast_ne_zero.mpr hne
    have hposq : (s.length : ℚ) ≠ 0 := Nat.cast_ne_zero.mpr hpos.ne'
    simp only [getSimilarity, hcommon, hne, or_self, if_false, ne_eq, not_true_eq_false,
      transpositions_self, if_neg hshort, Nat.cast_zero, sub_zero, hcast]
    field_simp
    ring

/-- The similarity goes from `0` to `1`. Without zero letters, two strings are at most as similar as
their lengths allow if each keeps its last letter for itself, which is as similar as a string of
several letters and itself are. -/
theorem jaro_bounds (s t : JavaString) :
    getSimilarity s t = getSimilarity t s ∧ 0 ≤ getSimilarity s t ∧ getSimilarity s t ≤ 1 ∧
      (0 ∉ s → 0 ∉ t → getSimilarity s t ≤ 1 - (1 / s.length + 1 / t.length) / 3) ∧
      (0 ∉ s → getSimilarity s s = (if s.length < 2 then 0 else 1 - 2 / (3 * s.length) : ℚ)) := by
  refine ⟨getSimilarity_comm s t, getSimilarity_nonneg s t, getSimilarity_le_one s t,
    fun hs ht => ?_, getSimilarity_self⟩
  simpa only [Nat.cast_one] using getSimilarity_le le_rfl (length_getCommonCharacters_le _ _ ht)
    (length_getCommonCharacters_le _ _ hs)

theorem getSimilarity_append {u : JavaString} (hu : u ≠ []) (hzero : 0 ∉ s ++ u) :
    getSimilarity s (s ++ u) = 0 := by
  rcases Nat.eq_zero_or_pos s.length with hs | hs
  · exact getSimilarity_nil (.inl (List.length_eq_zero_iff.mp hs))
  have ht : 0 < (s ++ u).length := List.length_pos_iff.mpr (List.append_ne_nil_of_right_ne_nil s hu)
  obtain heq | ⟨n, hcommon1, hcommon2, -, -⟩ := getSimilarity_cases s (s ++ u)
  · exact heq
  -- one direction finds all letters, the other one fewer
  · rw [getCommonCharacters_append (halflen_pos hs ht) hu] at hcommon1
    have hle := length_getCommonCharacters_le s (halflen s (s ++ u)) hzero
    omega

/-- The longer string finds fewer letters in its beginning than that finds in it, so the two
are not similar at all. -/
theorem extension_eq_zero (s u : JavaString) (hu : u ≠ []) (hzero : 0 ∉ s ++ u) :
    getSimilarity s (s ++ u) = 0 :=
  getSimilarity_append hu hzero

theorem extension_eq_zero_plural :
    getSimilarity [0x63, 0x61, 0x74] [0x63, 0x61, 0x74, 0x73] = 0 :=
  extension_eq_zero [0x63, 0x61, 0x74] [0x73] (List.cons_ne_nil _ _) (by decide)

end Jaro

end SimMetrics
