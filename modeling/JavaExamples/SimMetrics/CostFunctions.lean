import Mathlib.Data.List.Basic
import Mathlib.Data.Rat.Defs
import Mathlib.Order.MinMax
import Mathlib.Algebra.Order.Ring.Rat

/-!
# Cost functions of the string metrics

What the edit based metrics of simmetrics charge for the substitution of a letter and for a gap. A
Java `float` is taken as the exact number.
-/

namespace SimMetrics

/-- A Java `char`. -/
abbrev JavaChar := BitVec 16

/-- A Java `String`. -/
abbrev JavaString := List JavaChar

namespace MathFuncs

def max3 (x y z : ℚ) : ℚ := max x (max y z)

def max4 (w x y z : ℚ) : ℚ := max (max w x) (max y z)

def min3 (x y z : ℚ) : ℚ := min x (min y z)

theorem min3_cases (x y z : ℚ) : min3 x y z = x ∨ min3 x y z = y ∨ min3 x y z = z :=
  (min_choice x (min y z)).imp id fun h => by rw [min3, h]; exact min_choice y z

end MathFuncs

/-- The metrics ask for the cost of positions inside the strings. -/
structure AbstractSubstitutionCost where
  getCost : JavaString → ℕ → JavaString → ℕ → ℚ
  getMaxCost : ℚ
  getMinCost : ℚ

/-- `0` if the letters are the same, otherwise `1`. -/
def SubCost01 : AbstractSubstitutionCost where
  getCost str1 string1Index str2 string2Index :=
    if str1[string1Index]? = str2[string2Index]? then 0 else 1
  getMaxCost := 1
  getMinCost := 0

/-- `1` if the letters are the same, otherwise `-2`; `0` outside of the strings. -/
def SubCost1_Minus2 : AbstractSubstitutionCost where
  getCost str1 string1Index str2 string2Index :=
    if str1.length ≤ string1Index then 0
    else if str2.length ≤ string2Index then 0
    else if str1[string1Index]? = str2[string2Index]? then 1 else -2
  getMaxCost := 1
  getMinCost := -2

namespace SubCost5_3_Minus3

def CHAR_EXACT_MATCH_SCORE : ℚ := 5

def CHAR_APPROX_MATCH_SCORE : ℚ := 3

def CHAR_MISMATCH_MATCH_SCORE : ℚ := -3

/-- The code of an ASCII character. -/
def code (c : Char) : JavaChar := BitVec.ofNat 16 c.toNat

def approx : List (List JavaChar) :=
  [[code 'd', code 't'], [code 'g', code 'j'], [code 'l', code 'r'], [code 'm', code 'n'],
    [code 'b', code 'p', code 'v'], [code 'a', code 'e', code 'i', code 'o', code 'u'],
    [code ',', code '.']]

end SubCost5_3_Minus3

open SubCost5_3_Minus3 in
/-- `5` if the letters are the same, `3` if they are alike, otherwise `-3`. `toLowerCase` is
`Character.toLowerCase`. -/
def SubCost5_3_Minus3 (toLowerCase : JavaChar → JavaChar) : AbstractSubstitutionCost where
  getCost str1 string1Index str2 string2Index :=
    match str1[string1Index]?, str2[string2Index]? with
    | some c, some d =>
      if c = d then CHAR_EXACT_MATCH_SCORE
      else if approx.any fun aApprox =>
          aApprox.contains (toLowerCase c) && aApprox.contains (toLowerCase d) then
        CHAR_APPROX_MATCH_SCORE
      else CHAR_MISMATCH_MATCH_SCORE
    | _, _ => CHAR_MISMATCH_MATCH_SCORE
  getMaxCost := CHAR_EXACT_MATCH_SCORE
  getMinCost := CHAR_MISMATCH_MATCH_SCORE

structure AbstractAffineGapCost where
  getCost : JavaString → ℕ → ℕ → ℚ
  getMaxCost : ℚ
  getMinCost : ℚ

/-- A gap that begins costs `first`, every further letter of it `further`. -/
def affineGap (first further : ℚ) : AbstractAffineGapCost where
  getCost _ stringIndexStartGap stringIndexEndGap :=
    if stringIndexEndGap ≤ stringIndexStartGap then 0
    else first + ((stringIndexEndGap - 1 - stringIndexStartGap : ℕ) : ℚ) * further
  getMaxCost := first
  getMinCost := 0

def AffineGap5_1 : AbstractAffineGapCost := affineGap 5 1

def AffineGap1_1Over3 : AbstractAffineGapCost := affineGap 1 (1 / 3)

end SimMetrics
