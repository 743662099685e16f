import Mathlib.Algebra.Order.Floor.Semifield
import Mathlib.Analysis.Real.Sqrt
import Mathlib.Data.Rat.Floor
import JavaExamples.Common.ArrayFill
import JavaExamples.Common.Median
import JavaExamples.Common.SignedRank
import JavaExamples.Common.Text

/-!
# Trend algorithms

Two series of rates are compared by their deltas; each algorithm turns them into a number and a
verdict. Rational numbers stand in for `double`s, so that a number is always finite and the
`UNDEFINED` of `classify` is never reached.

* `of_eq_ok_iff`: the inputs that `TrendInput.of` accepts.
* `medianOf_eq_median`: the 50th percentile with interpolation is the median.
* `length_slopes`: there are `n (n - 1) / 2` slopes.
* `exceedsRoot_iff`: comparing squares is comparing with the root.
-/

namespace Trend

inductive TrendStatus where
  | STRONG_IMPROVEMENT
  | IMPROVEMENT
  | NORMAL
  | DEGRADATION
  | STRONG_DEGRADATION
  | STABLE
  | HIGH_VARIATION
  | VERY_HIGH_VARIATION
  | SIGNIFICANT_IMPROVEMENT
  | NO_SIGNIFICANT_CHANGE
  | SIGNIFICANT_DEGRADATION
  | ANOMALOUS_IMPROVEMENT
  | ANOMALOUS_DEGRADATION
  | MIXED_ANOMALY
  | UNDEFINED
deriving DecidableEq

structure TrendInput where
  current : List ℚ
  reference : List ℚ
  delta : List ℚ
  time : List ℚ

structure TrendResult where
  metric : String
  value : ℚ
  status : TrendStatus

/-- `TrendAlgorithm.analyze` of an algorithm that always returns. -/
abbrev TrendAlgorithm := TrendInput → TrendResult

/-- What `analyze` may throw. -/
inductive Failure where
  /-- `NegativeArraySizeException` -/
  | negativeArraySize (size : ℤ)
  /-- `ArrayIndexOutOfBoundsException` -/
  | arrayIndexOutOfBounds (index : ℤ)

/-! ## Input -/

namespace TrendInput

def validateRates (values : List ℚ) : Except Text Unit :=
  values.forM fun value =>
    if value < 0 ∨ 1 < value then
      .error "All values must be finite rates between 0 and 1".toList
    else .ok ()

def validate (current reference : List ℚ) : Except Text Unit :=
  if current.length ≠ reference.length then
    .error "Arrays must have the same size".toList
  else if current.length < 3 then
    .error "At least 3 samples are required".toList
  else do
    validateRates current
    validateRates reference

/-- The input for two series, `none` standing for `null`, or the message of the exception. -/
def of : Option (List ℚ) → Option (List ℚ) → Except Text TrendInput
  | some current, some reference => do
    validate current reference
    return {
      current
      reference
      delta := List.zipWith (fun c r => c - r) current reference
      time := (List.range current.length).map fun i : ℕ => (i : ℚ) }
  | _, _ => .error "Arrays cannot be null".toList

/-- Every value is a rate. -/
def Rates (values : List ℚ) : Prop := ∀ value ∈ values, 0 ≤ value ∧ value ≤ 1

/-- The input of two series that pass. -/
def build (current reference : List ℚ) : TrendInput where
  current := current
  reference := reference
  delta := List.zipWith (fun c r => c - r) current reference
  time := (List.range current.length).map fun i : ℕ => (i : ℚ)

theorem validateRates_eq_ok_iff {values : List ℚ} :
    validateRates values = .ok () ↔ Rates values := by
  unfold validateRates Rates
  induction values with
  | nil => exact iff_of_true rfl fun _ hvalue => absurd hvalue List.not_mem_nil
  | cons value values ih =>
    rw [List.forM_eq_forM, List.forM_cons, List.forall_mem_cons]
    by_cases hvalue : value < 0 ∨ 1 < value
    · rw [if_pos hvalue]
      refine iff_of_false (fun h => by cases h) fun h => ?_
      rcases hvalue with hlow | hhigh
      · exact absurd h.1.1 (not_le.mpr hlow)
      · exact absurd h.1.2 (not_le.mpr hhigh)
    · rw [if_neg hvalue]
      push Not at hvalue
      exact ih.trans (and_iff_right hvalue).symm

theorem validate_eq_ok_iff {current reference : List ℚ} :
    validate current reference = .ok () ↔
      current.length = reference.length ∧ 3 ≤ current.length ∧ Rates current ∧ Rates reference := by
  rw [← validateRates_eq_ok_iff, ← validateRates_eq_ok_iff, validate]
  by_cases hlen : current.length = reference.length
  · rw [if_neg (not_not.mpr hlen)]
    by_cases hthree : current.length < 3
    · rw [if_pos hthree]
      exact iff_of_false (fun h => by cases h) fun h => absurd h.2.1 (by omega)
    · rw [if_neg hthree]
      -- each of the two checks goes on or ends with its message
      rcases validateRates current with message | _
      · exact iff_of_false (fun h => by cases h) fun h => by cases h.2.2.1
      · exact ⟨fun h => ⟨hlen, by omega, rfl, h⟩, fun h => h.2.2.2⟩
  · rw [if_pos hlen]
    exact iff_of_false (fun h => by cases h) fun h => hlen h.1

/-- Two series are accepted if they are of one length, at least three, and hold rates. -/
theorem of_eq_ok_iff {current reference : List ℚ} {input : TrendInput} :
    of (some current) (some reference) = .ok input ↔
      (current.length = reference.length ∧ 3 ≤ current.length ∧ Rates current ∧
        Rates reference) ∧ input = build current reference := by
  rw [← validate_eq_ok_iff]
  show (validate current reference).bind (fun _ => .ok (build current reference)) = _ ↔ _
  rcases validate current reference with message | _
  · exact iff_of_false (fun h => by cases h) fun h => by cases h.1
  · constructor
    · intro h
      exact ⟨rfl, (Except.ok.inj h).symm⟩
    · rintro ⟨-, rfl⟩
      rfl

section Delta

variable {current reference : List ℚ}

theorem length_delta_build (h : current.length = reference.length) :
    (build current reference).delta.length = current.length := by
  show (List.zipWith _ current reference).length = _
  rw [List.length_zipWith, ← h, Nat.min_self]

/-- An accepted input has deltas. -/
theorem delta_build_ne_nil (h : current.length = reference.length) (hthree : 3 ≤ current.length) :
    (build current reference).delta ≠ [] := by
  intro hnil
  have hdelta := length_delta_build h
  rw [hnil, List.length_nil] at hdelta
  omega

/-- A test that gets the series in the other order sees the same differences. -/
theorem zipWith_swap_eq_delta :
    List.zipWith (fun x y => y - x) reference current = (build current reference).delta :=
  List.zipWith_comm

end Delta

end TrendInput

/-! ## The library -/

/-- `StatUtils.mean`. -/
def mean (values : List ℚ) : ℚ := values.sum / values.length

/-- `Percentile.evaluate`: interpolation at the position `p (n + 1) / 100`. -/
def percentile (values : List ℚ) (p : ℚ) : ℚ :=
  let sorted := Median.sort values
  let pos := p * (values.length + 1) / 100
  let fpos := ⌊pos⌋₊
  if pos < 1 then sorted.getD 0 0
  else if values.length ≤ pos then sorted.getD (values.length - 1) 0
  else
    let lower := sorted.getD (fpos - 1) 0
    let upper := sorted.getD fpos 0
    lower + (pos - fpos) * (upper - lower)

/-- `Median.evaluate`. -/
def medianOf (values : List ℚ) : ℚ := percentile values 50

/-- The position of the 50th percentile lies on the middle element, or half way between the two. -/
theorem medianOf_eq_median {values : List ℚ} (h : values ≠ []) :
    medianOf values = Median.median values := by
  have hlen : 0 < values.length := List.length_pos_iff.mpr h
  have hpos : (50 : ℚ) * (values.length + 1) / 100 = (values.length + 1) / 2 := by ring
  have hone : ¬((values.length : ℚ) + 1) / 2 < 1 := by
    have hcast : (1 : ℚ) ≤ values.length := by exact_mod_cast hlen
    linarith
  unfold medianOf percentile Median.median Median.orderStatistic
  simp only [hpos, if_neg hone]
  rcases Nat.even_or_odd' values.length with ⟨m, hm | hm⟩
  · -- between the elements `m - 1` and `m`
    have hm' : 0 < m := by omega
    have hlt : ¬(values.length : ℚ) ≤ ((values.length : ℚ) + 1) / 2 := by
      have hcast : (2 : ℚ) ≤ values.length := by exact_mod_cast (by omega : 2 ≤ values.length)
      linarith
    have hfloor : ⌊((values.length : ℚ) + 1) / 2⌋₊ = m := by
      rw [hm, Nat.floor_eq_iff (by positivity)]
      push_cast
      constructor
      · linarith
      · linarith
    rw [if_neg hlt, hfloor, (by omega : (values.length - 1) / 2 = m - 1),
      (by omega : values.length / 2 = m), hm]
    push_cast
    ring
  · -- on the element `m`, also where it is the only one
    have hlow : (values.length - 1) / 2 = m := by omega
    have hhigh : values.length / 2 = m := by omega
    rw [hlow, hhigh]
    rcases Nat.eq_zero_or_pos m with rfl | hm'
    · have hle : (values.length : ℚ) ≤ ((values.length : ℚ) + 1) / 2 := by
        rw [hm]
        norm_num
      rw [if_pos hle, hm]
      simp
    · have hlt : ¬(values.length : ℚ) ≤ ((values.length : ℚ) + 1) / 2 := by
        have hcast : (3 : ℚ) ≤ values.length := by exact_mod_cast (by omega : 3 ≤ values.length)
        linarith
      have hfloor : ⌊((values.length : ℚ) + 1) / 2⌋₊ = m + 1 := by
        rw [hm, Nat.floor_eq_iff (by positivity)]
        push_cast
        constructor
        · linarith
        · linarith
      rw [if_neg hlt, hfloor, Nat.add_sub_cancel, hm]
      push_cast
      ring

/-- `WilcoxonSignedRankTest.wilcoxonSignedRank`, the larger of the two rank sums. Zeros count for
the second one. -/
def wilcoxonSignedRank (x y : List ℚ) : ℚ :=
  let z := List.zipWith (fun x y => y - x) x y
  let Wplus := SignedRank.rankSum (fun z => 0 < z) z
  let Wminus := SignedRank.total z.length - Wplus
  max Wplus Wminus

/-! ## Classified numbers -/

def DirectionalStatusClassifier.classify (value warn strong : ℚ) : TrendStatus :=
  if value ≤ -strong then .STRONG_DEGRADATION
  else if value ≤ -warn then .DEGRADATION
  else if value ≥ strong then .STRONG_IMPROVEMENT
  else if value ≥ warn then .IMPROVEMENT
  else .NORMAL

open DirectionalStatusClassifier

namespace MeanDeltaAlgorithm

def WARN : ℚ := 0.02
def STRONG : ℚ := 0.05

def analyze : TrendAlgorithm := fun input =>
  let value := mean input.delta
  ⟨"Mean delta", value, classify value WARN STRONG⟩

end MeanDeltaAlgorithm

namespace MedianDeltaAlgorithm

def WARN : ℚ := 0.02
def STRONG : ℚ := 0.05

def analyze : TrendAlgorithm := fun input =>
  let value := medianOf input.delta
  ⟨"Median delta", value, classify value WARN STRONG⟩

end MedianDeltaAlgorithm

namespace TheilSenSlopeAlgorithm

def WARN : ℚ := 0.0025
def STRONG : ℚ := 0.01

/-- The slopes in the order of the two loops. -/
def slopes (delta : List ℚ) : List ℚ :=
  (List.range delta.length).flatMap fun i =>
    (List.range' (i + 1) (delta.length - (i + 1))).map fun j =>
      (delta.getD j 0 - delta.getD i 0) / ((j - i : ℕ) : ℚ)

/-- As many as an array of `n (n - 1) / 2` slopes holds. -/
theorem length_slopes (delta : List ℚ) :
    (slopes delta).length = delta.length * (delta.length - 1) / 2 := by
  have hsum : ((List.range delta.length).map fun i => delta.length - (i + 1)).sum =
      ∑ i ∈ Finset.range delta.length, (delta.length - 1 - i) := by
    rw [Finset.sum_congr rfl fun i _ => Nat.sub_sub delta.length 1 i]
    simp only [Nat.add_comm 1]
    rfl
  rw [slopes, List.length_flatMap]
  simp only [List.length_map, List.length_range']
  rw [hsum, Finset.sum_range_reflect (fun i => i), Finset.sum_range_id]

/-- The slope of one pair. -/
def slope (delta : List ℚ) (pair : ℕ × ℕ) : ℚ :=
  (delta.getD pair.2 0 - delta.getD pair.1 0) / ((pair.2 - pair.1 : ℕ) : ℚ)

/-- `delta.length * (delta.length - 1) / 2` for `int`s. -/
def size (length : ℕ) : ℤ := (((length : ℤ) * (length - 1)).bmod (2 ^ 32)).tdiv 2

/-- `new double[size]`. -/
def allocate (size : ℤ) : Except Failure (List ℚ) :=
  if size < 0 then .error (.negativeArraySize size) else .ok (List.replicate size.toNat 0)

/-- The loops over `i` and `j`, which stay below `delta.length` and do not wrap around. -/
def loops (delta : List ℚ) (filling : ArrayFill.Filling (ℕ × ℕ) ℚ) :
    Except ℤ (ArrayFill.Filling (ℕ × ℕ) ℚ) :=
  (List.range delta.length).foldlM (fun filling i =>
    (List.range' (i + 1) (delta.length - (i + 1))).foldlM (fun filling j =>
      ArrayFill.put (slope delta) filling (i, j)) filling) filling

/-- The array of slopes after the loops. -/
def fill (delta : List ℚ) : Except Failure (ArrayFill.Filling (ℕ × ℕ) ℚ) := do
  let slopes ← allocate (size delta.length)
  (loops delta (ArrayFill.start slopes)).mapError .arrayIndexOutOfBounds

def result (slope : ℚ) : TrendResult := ⟨"Theil-Sen slope", slope, classify slope WARN STRONG⟩

def analyze (input : TrendInput) : Except Failure TrendResult := do
  let filling ← fill input.delta
  return result (medianOf filling.array)

end TheilSenSlopeAlgorithm

/-! ## Control charts -/

/-- `value > Math.sqrt(r)` for `r ≥ 0`, without taking the root. -/
def exceedsRoot (value r : ℚ) : Prop := 0 < value ∧ r < value ^ 2

instance (value r : ℚ) : Decidable (exceedsRoot value r) := inferInstanceAs (Decidable (_ ∧ _))

/-- The root itself: `value > √r`. -/
theorem exceedsRoot_iff {value r : ℚ} (hr : 0 ≤ r) : exceedsRoot value r ↔ √(r : ℝ) < value := by
  have hr' : (0 : ℝ) ≤ r := by exact_mod_cast hr
  constructor
  · rintro ⟨hpos, hsq⟩
    rw [Real.sqrt_lt' (by exact_mod_cast hpos)]
    exact_mod_cast hsq
  · intro hlt
    have hpos : (0 : ℝ) < value := (Real.sqrt_nonneg _).trans_lt hlt
    rw [Real.sqrt_lt' hpos] at hlt
    exact ⟨by exact_mod_cast hpos, by exact_mod_cast hlt⟩

namespace EwmaAlgorithm

def EXPECTED_SIGMA : ℚ := 0.02
def LAMBDA : ℚ := 0.30
def CONTROL_LIMIT : ℚ := 3

/-- The average after the samples. -/
def average (delta : List ℚ) : ℚ :=
  delta.foldl (fun value sample => LAMBDA * sample + (1 - LAMBDA) * value) 0

/-- The argument of the root in `sigma`, for `n` samples. -/
def variance (n : ℕ) : ℚ := LAMBDA / (2 - LAMBDA) * (1 - (1 - LAMBDA) ^ (2 * n))

/-- The square of `limit`, which is `CONTROL_LIMIT * (EXPECTED_SIGMA * Math.sqrt(variance))`. -/
def limitSquared (n : ℕ) : ℚ := (CONTROL_LIMIT * EXPECTED_SIGMA) ^ 2 * variance n

def analyze : TrendAlgorithm := fun input =>
  let value := average input.delta
  let status :=
    -- `value < -limit`
    if exceedsRoot (-value) (limitSquared input.delta.length) then .ANOMALOUS_DEGRADATION
    else if exceedsRoot value (limitSquared input.delta.length) then .ANOMALOUS_IMPROVEMENT
    else .NORMAL
  ⟨"EWMA", value, status⟩

end EwmaAlgorithm

namespace CusumAlgorithm

def EXPECTED_SIGMA : ℚ := 0.02
def K : ℚ := 0.5
def H : ℚ := 5

/-- The variables of the loop. -/
structure Sums where
  positive : ℚ
  negative : ℚ
  maxPositive : ℚ
  maxNegative : ℚ

/-- The loop body. -/
def add (sums : Sums) (sample : ℚ) : Sums :=
  let z := sample / EXPECTED_SIGMA
  let positive := max 0 (sums.positive + z - K)
  let negative := max 0 (sums.negative - z - K)
  { positive
    negative
    maxPositive := max sums.maxPositive positive
    maxNegative := max sums.maxNegative negative }

def sums (delta : List ℚ) : Sums := delta.foldl add ⟨0, 0, 0, 0⟩

def analyze : TrendAlgorithm := fun input =>
  let s := sums input.delta
  let score := if s.maxNegative > s.maxPositive then -s.maxNegative / H else s.maxPositive / H
  let status :=
    if s.maxNegative ≥ H ∧ s.maxPositive ≥ H then .MIXED_ANOMALY
    else if s.maxNegative ≥ H then .ANOMALOUS_DEGRADATION
    else if s.maxPositive ≥ H then .ANOMALOUS_IMPROVEMENT
    else .NORMAL
  ⟨"CUSUM", score, status⟩

end CusumAlgorithm

/-! ## Tests of significance -/

namespace PairedTTestAlgorithm

def ALPHA : ℚ := 0.05

/-- The p-value comes from `TTest.pairedTTest(current, reference)`. -/
def analyze (pairedTTest : List ℚ → List ℚ → ℚ) : TrendAlgorithm := fun input =>
  let meanDelta := mean input.delta
  if meanDelta = 0 then ⟨"Paired t-test", 1, .NO_SIGNIFICANT_CHANGE⟩
  else
    let pValue := pairedTTest input.current input.reference
    let status :=
      if pValue ≥ ALPHA then .NO_SIGNIFICANT_CHANGE
      else if meanDelta < 0 then .SIGNIFICANT_DEGRADATION
      else .SIGNIFICANT_IMPROVEMENT
    ⟨"Paired t-test", pValue, status⟩

end PairedTTestAlgorithm

namespace WilcoxonAlgorithm

def ALPHA : ℚ := 0.05

/-- The p-value comes from `WilcoxonSignedRankTest.wilcoxonSignedRankTest(reference, current,
exact)`. -/
def analyze (wilcoxonSignedRankTest : List ℚ → List ℚ → Bool → ℚ) : TrendAlgorithm := fun input =>
  let medianDelta := medianOf input.delta
  let hasDifference := input.delta.any fun value => value ≠ 0
  if !hasDifference then ⟨"Wilcoxon", 1, .NO_SIGNIFICANT_CHANGE⟩
  else
    let exact := decide (input.current.length ≤ 30)
    let pValue := wilcoxonSignedRankTest input.reference input.current exact
    let status :=
      if pValue ≥ ALPHA then .NO_SIGNIFICANT_CHANGE
      else if medianDelta < 0 then .SIGNIFICANT_DEGRADATION
      else .SIGNIFICANT_IMPROVEMENT
    ⟨"Wilcoxon", pValue, status⟩

/-- The verdict, with the search for a difference read as a quantifier. -/
theorem status_analyze (wilcoxonSignedRankTest : List ℚ → List ℚ → Bool → ℚ)
    (input : TrendInput) :
    (analyze wilcoxonSignedRankTest input).status =
      if ∀ d ∈ input.delta, d = 0 then .NO_SIGNIFICANT_CHANGE
      else if wilcoxonSignedRankTest input.reference input.current
          (decide (input.current.length ≤ 30)) ≥ ALPHA then .NO_SIGNIFICANT_CHANGE
      else if medianOf input.delta < 0 then .SIGNIFICANT_DEGRADATION
      else .SIGNIFICANT_IMPROVEMENT := by
  unfold analyze
  by_cases hzero : ∀ d ∈ input.delta, d = 0
  · have hany : (input.delta.any fun value => value ≠ 0) = false := by
      rw [List.any_eq_false]
      simpa using hzero
    rw [if_pos hzero]
    simp only [hany, Bool.not_false, if_true]
  · have hany : (input.delta.any fun value => value ≠ 0) = true := by
      rw [List.any_eq_true]
      simpa using hzero
    rw [if_neg hzero]
    simp only [hany, Bool.not_true, Bool.false_eq_true, if_false]

end WilcoxonAlgorithm

end Trend
