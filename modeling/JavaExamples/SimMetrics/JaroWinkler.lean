import JavaExamples.SimMetrics.Jaro

/-!
# Jaro-Winkler

A common prefix of up to six letters takes away a tenth of what the strings lack, for each letter.

* `jaroWinkler_bounds`: what is gained never changes which strings are fully similar.
* `jaroWinkler_extension`: between a string and one that goes on there is only the prefix left, as
  `Jaro` finds the two not similar.
-/

namespace SimMetrics

/-- The internal metric is `Jaro` unless the constructor is given another one. -/
structure JaroWinkler where
  internalStringMetric : JavaString → JavaString → ℚ := Jaro.getSimilarity

namespace JaroWinkler

variable {metric : JaroWinkler} {s t : JavaString}

def MINPREFIXTESTLENGTH : ℕ := 6

def PREFIXADUSTMENTSCALE : ℚ := 1 / 10

def getPrefixLength (string1 string2 : JavaString) : ℕ :=
  let n := min MINPREFIXTESTLENGTH (min string1.length string2.length)
  ((List.range n).find? fun i => string1[i]? ≠ string2[i]?).getD n

def getSimilarity (metric : JaroWinkler) (string1 string2 : JavaString) : ℚ :=
  let dist := metric.internalStringMetric string1 string2
  let prefixLength := getPrefixLength string1 string2
  dist + prefixLength * PREFIXADUSTMENTSCALE * (1 - dist)

/-! ## The prefix -/

theorem getPrefixLength_comm (s t : JavaString) : getPrefixLength s t = getPrefixLength t s := by
  simp only [getPrefixLength, min_comm s.length, ne_comm]

/-- The loop stops at a difference, or where the shorter string or the test ends. -/
theorem getPrefixLength_spec (s t : JavaString) :
    getPrefixLength s t ≤ min 6 (min s.length t.length) ∧
      (∀ i < getPrefixLength s t, s[i]? = t[i]?) ∧
      (getPrefixLength s t < min 6 (min s.length t.length) →
        s[getPrefixLength s t]? ≠ t[getPrefixLength s t]?) := by
  rw [getPrefixLength, MINPREFIXTESTLENGTH]
  rcases hfind : (List.range (min 6 (min s.length t.length))).find? fun i => s[i]? ≠ t[i]? with
    _ | p
  · rw [hfind, Option.getD_none]
    -- no difference is found
    refine ⟨le_rfl, fun i hi => ?_, fun hlt => absurd hlt (lt_irrefl _)⟩
    have hnot := List.find?_eq_none.mp hfind i (List.mem_range.mpr hi)
    rwa [decide_eq_true_eq, not_not] at hnot
  · have hp := List.find?_some hfind
    have hmem := List.mem_range.mp (List.mem_of_find?_eq_some hfind)
    rw [decide_eq_true_eq] at hp
    -- the first difference is at `p`
    rw [hfind, Option.getD_some]
    refine ⟨hmem.le, fun i hi => not_not.mp fun hne => ?_, fun _ => hp⟩
    have hle : p ≤ i := le_of_find?_eq_some List.pairwise_lt_range hfind
      (List.mem_range.mpr (lt_trans hi hmem)) (decide_eq_true hne)
    exact absurd hi (not_lt.mpr hle)

theorem getPrefixLength_append (s u : JavaString) :
    getPrefixLength s (s ++ u) = min 6 s.length := by
  obtain ⟨hle, -, hstop⟩ := getPrefixLength_spec s (s ++ u)
  have hmin : min s.length (s ++ u).length = s.length :=
    min_eq_left (by rw [List.length_append]; exact Nat.le_add_right _ _)
  rw [hmin] at hle hstop
  refine hle.antisymm (not_lt.mp fun hlt => hstop hlt ?_)
  rw [List.getElem?_append_left (hlt.trans_le (min_le_right _ _))]

theorem getPrefixLength_self (s : JavaString) : getPrefixLength s s = min 6 s.length := by
  simpa using getPrefixLength_append s []

/-! ## The similarity -/

/-- What the strings lack shrinks by a tenth for each letter of the prefix. -/
theorem getSimilarity_eq (s t : JavaString) :
    metric.getSimilarity s t =
      1 - (1 - getPrefixLength s t / 10) * (1 - metric.internalStringMetric s t) := by
  rw [getSimilarity, PREFIXADUSTMENTSCALE]
  ring

theorem four_tenths_le (s t : JavaString) : (4 / 10 : ℚ) ≤ 1 - getPrefixLength s t / 10 := by
  have hsix : (getPrefixLength s t : ℚ) ≤ 6 := by
    exact_mod_cast (getPrefixLength_spec s t).1.trans (min_le_left _ _)
  linarith

theorem le_getSimilarity (h : metric.internalStringMetric s t ≤ 1) :
    metric.internalStringMetric s t ≤ metric.getSimilarity s t := by
  have hbegins : (0 : ℚ) ≤ getPrefixLength s t := Nat.cast_nonneg _
  have hgain : 0 ≤ (getPrefixLength s t : ℚ) / 10 * (1 - metric.internalStringMetric s t) :=
    mul_nonneg (div_nonneg hbegins (by norm_num)) (sub_nonneg.mpr h)
  rw [getSimilarity_eq]
  linarith

theorem getSimilarity_le_one (h : metric.internalStringMetric s t ≤ 1) :
    metric.getSimilarity s t ≤ 1 := by
  have hbegins : (0 : ℚ) ≤ 1 - getPrefixLength s t / 10 :=
    le_trans (by norm_num) (four_tenths_le s t)
  rw [getSimilarity_eq]
  exact sub_le_self _ (mul_nonneg hbegins (sub_nonneg.mpr h))

theorem getSimilarity_eq_one_iff :
    metric.getSimilarity s t = 1 ↔ metric.internalStringMetric s t = 1 := by
  have hbegins : (0 : ℚ) < 1 - getPrefixLength s t / 10 :=
    lt_of_lt_of_le (by norm_num) (four_tenths_le s t)
  rw [getSimilarity_eq, sub_eq_self, mul_eq_zero, or_iff_right hbegins.ne', sub_eq_zero, eq_comm]

/-- For every internal metric, a prefix makes no strings fully similar that are not so without it,
and it keeps symmetry. If the internal metric does not exceed `1`, then a prefix only raises it, and
not above `1`. -/
theorem jaroWinkler_bounds (metric : JaroWinkler) (s t : JavaString) :
    (metric.getSimilarity s t = 1 ↔ metric.internalStringMetric s t = 1) ∧
      (metric.internalStringMetric s t = metric.internalStringMetric t s →
        metric.getSimilarity s t = metric.getSimilarity t s) ∧
      (metric.internalStringMetric s t ≤ 1 →
        metric.internalStringMetric s t ≤ metric.getSimilarity s t ∧
          metric.getSimilarity s t ≤ 1) := by
  refine ⟨getSimilarity_eq_one_iff, fun hsymm => ?_,
    fun h => ⟨le_getSimilarity h, getSimilarity_le_one h⟩⟩
  rw [getSimilarity_eq, getSimilarity_eq, getPrefixLength_comm, hsymm]

theorem getSimilarity_eq_jaro (s t : JavaString) :
    getSimilarity {} s t = 1 - (1 - getPrefixLength s t / 10) * (1 - Jaro.getSimilarity s t) :=
  getSimilarity_eq s t

theorem getSimilarity_self (hs : 0 ∉ s) (hlength : 2 ≤ s.length) :
    getSimilarity {} s s = 1 - (1 - (min 6 s.length : ℕ) / 10) * (2 / (3 * s.length)) := by
  rw [getSimilarity_eq_jaro, getPrefixLength_self, Jaro.getSimilarity_self hs,
    if_neg (not_lt.mpr hlength), sub_sub_cancel]

/-- With `Jaro`, a string of several letters and itself fall short of `1`, and of a string and one
that goes on there is only a tenth for each of the first six letters. -/
theorem jaroWinkler_extension (s u : JavaString) (hzero : 0 ∉ s ++ u) (hs : 2 ≤ s.length) :
    getSimilarity {} s s = 1 - (1 - (min 6 s.length : ℕ) / 10) * (2 / (3 * s.length)) ∧
      (u ≠ [] → getSimilarity {} s (s ++ u) = (min 6 s.length : ℕ) / 10) := by
  refine ⟨getSimilarity_self (fun h => hzero (List.mem_append_left u h)) hs, fun hu => ?_⟩
  rw [getSimilarity_eq_jaro, getPrefixLength_append, Jaro.getSimilarity_append hu hzero, sub_zero,
    mul_one, sub_sub_cancel]

theorem jaroWinkler_extension_plural :
    getSimilarity {} [0x63, 0x61, 0x74] [0x63, 0x61, 0x74, 0x73] = (min 6 3 : ℕ) / 10 :=
  (jaroWinkler_extension [0x63, 0x61, 0x74] [0x73] (by decide) (by decide)).2 (List.cons_ne_nil _ _)

end JaroWinkler

end SimMetrics
