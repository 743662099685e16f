import Mathlib.Algebra.Ring.Int.Defs
import Mathlib.Tactic.Common

/-!
# Buckets by a hash code

The bucket of a hash code is its absolute value modulo the number of buckets, in the arithmetic of
signed words. The least word is its own absolute value and negative, and a remainder has the sign of
what is divided.

* `toInt_bucket_lt`: a bucket is below the number of buckets.
* `toInt_bucket_nonneg_iff`: it is not negative, unless the hash code is the least word and the
  number of buckets does not divide its distance from zero.
-/

namespace HashBucket

variable {w : ℕ} {hash n : BitVec w}

/-- The absolute value modulo `n`. -/
def bucket (hash n : BitVec w) : BitVec w := hash.abs.srem n

theorem toInt_bucket (hash n : BitVec w) : (bucket hash n).toInt = hash.abs.toInt.tmod n.toInt :=
  BitVec.toInt_srem ..

theorem toInt_bucket_lt (hash : BitVec w) (hn : 0 < n.toInt) :
    (bucket hash n).toInt < n.toInt := by
  rw [toInt_bucket]
  exact Int.tmod_lt_of_pos _ hn

/-- A hash code with an absolute value is sent where the remainder of that lies. -/
theorem toInt_bucket_of_ne_intMin (h : hash ≠ BitVec.intMin w) :
    (bucket hash n).toInt = (hash.toInt.natAbs : ℤ).tmod n.toInt := by
  rw [toInt_bucket, BitVec.toInt_abs_eq_natAbs_of_ne_intMin h]

theorem toInt_bucket_intMin (hw : 0 < w) :
    (bucket (BitVec.intMin w) n).toInt = -(2 ^ (w - 1) : ℤ).tmod n.toInt := by
  rw [toInt_bucket, BitVec.abs_intMin, BitVec.toInt_intMin_of_pos hw, Int.neg_tmod]

/-- The least hash code is sent below zero, or to the first bucket if the number of buckets divides
`2 ^ (w - 1)`. -/
theorem toInt_bucket_intMin_nonneg_iff (hw : 0 < w) :
    0 ≤ (bucket (BitVec.intMin w) n).toInt ↔ n.toInt ∣ 2 ^ (w - 1) := by
  have hpow : (0 : ℤ) ≤ 2 ^ (w - 1) := Int.pow_nonneg (by decide)
  have hrem : 0 ≤ (2 ^ (w - 1) : ℤ).tmod n.toInt := Int.tmod_nonneg _ hpow
  -- the remainder of the negative number is the negated one
  rw [toInt_bucket_intMin hw, Int.dvd_iff_tmod_eq_zero]
  omega

/-- When a bucket is one of the `n`. -/
theorem toInt_bucket_nonneg_iff (hn : 0 < n.toInt) :
    0 ≤ (bucket hash n).toInt ↔ hash ≠ BitVec.intMin w ∨ n.toInt ∣ 2 ^ (w - 1) := by
  by_cases h : hash = BitVec.intMin w
  · subst h
    -- words without digits are zero, and so is their number of buckets
    have hw : 0 < w := by
      rcases Nat.eq_zero_or_pos w with rfl | hw
      · rw [BitVec.toInt_zero_length] at hn
        exact absurd hn (Int.lt_irrefl 0)
      · exact hw
    rw [toInt_bucket_intMin_nonneg_iff hw]
    exact (or_iff_right (not_not_intro rfl)).symm
  · -- every other hash code has an absolute value
    rw [toInt_bucket_of_ne_intMin h]
    exact iff_of_true (Int.tmod_nonneg _ (Int.natCast_nonneg _)) (Or.inl h)

end HashBucket
