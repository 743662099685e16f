import Mathlib.Data.Int.Bitwise
import Mathlib.Data.Nat.Bitwise
import Mathlib.Data.Set.Card
import Mathlib.Order.CompletePartialOrder

/-!
# Integers as sets of bits

An unbounded integer in two's complement is the set of the positions of its ones. The operations on
bits are those on sets, and an integer is known by its bits.

* `bits_injective`: different integers have different bits.
* `bits_lor`, `bits_land`, `bits_ldiff`: union, intersection and difference.
* `land_eq_right_iff`: containing a mask.
-/

namespace BitMask

/-- The positions of the ones. -/
def bits (flags : ℤ) : Set ℕ := {i | flags.testBit i = true}

theorem mem_bits {flags : ℤ} {i : ℕ} : i ∈ bits flags ↔ flags.testBit i = true := Iff.rfl

/-- Far to the left a natural number has zeros only. -/
theorem exists_testBit_eq_false (m n : ℕ) : ∃ i, m.testBit i = false ∧ n.testBit i = false := by
  refine ⟨max m n, ?_, ?_⟩
  · apply Nat.testBit_lt_two_pow
    exact (le_max_left m n).trans_lt Nat.lt_two_pow_self
  · apply Nat.testBit_lt_two_pow
    exact (le_max_right m n).trans_lt Nat.lt_two_pow_self

theorem eq_of_testBit_eq {a b : ℤ} (h : ∀ i, a.testBit i = b.testBit i) : a = b := by
  cases a with
  | ofNat m =>
    cases b with
    | ofNat n =>
      have hmn : m = n := Nat.eq_of_testBit_eq h
      rw [hmn]
    | negSucc n =>
      -- the signs differ, and so do the bits to the far left
      obtain ⟨i, hm, hn⟩ := exists_testBit_eq_false m n
      have hi : m.testBit i = !n.testBit i := h i
      rw [hm, hn] at hi
      cases hi
  | negSucc m =>
    cases b with
    | ofNat n =>
      obtain ⟨i, hm, hn⟩ := exists_testBit_eq_false m n
      have hi : (!m.testBit i) = n.testBit i := h i
      rw [hm, hn] at hi
      cases hi
    | negSucc n =>
      have hmn : m = n := by
        apply Nat.eq_of_testBit_eq
        intro i
        have hi : (!m.testBit i) = !n.testBit i := h i
        simpa using hi
      rw [hmn]

theorem bits_injective : Function.Injective bits := by
  intro a b h
  apply eq_of_testBit_eq
  intro i
  have hi : a.testBit i = true ↔ b.testBit i = true := Set.ext_iff.mp h i
  exact Bool.eq_iff_iff.mpr hi

@[simp]
theorem bits_lor (a b : ℤ) : bits (Int.lor a b) = bits a ∪ bits b := by
  ext i
  simp [mem_bits]

@[simp]
theorem bits_land (a b : ℤ) : bits (Int.land a b) = bits a ∩ bits b := by
  ext i
  simp [mem_bits]

@[simp]
theorem bits_ldiff (a b : ℤ) : bits (Int.ldiff a b) = bits a \ bits b := by
  ext i
  simp [mem_bits]

@[simp]
theorem bits_zero : bits 0 = ∅ := by
  ext i
  have hbit : (0 : ℤ).testBit i = (0 : ℕ).testBit i := rfl
  simp [mem_bits, hbit]

/-- A power of two is a single bit. -/
@[simp]
theorem bits_two_pow (i : ℕ) : bits (2 ^ i) = {i} := by
  ext j
  have hbit : ((2 : ℤ) ^ i).testBit j = (2 ^ i : ℕ).testBit j := by
    norm_cast
  rw [mem_bits, hbit, Nat.testBit_two_pow, decide_eq_true_iff, Set.mem_singleton_iff, eq_comm]

/-- A mask survives `&` iff its bits are among the flags. -/
theorem land_eq_right_iff {flags mask : ℤ} :
    Int.land flags mask = mask ↔ bits mask ⊆ bits flags := by
  rw [← bits_injective.eq_iff, bits_land, Set.inter_eq_right]

theorem land_eq_zero_iff {a b : ℤ} : Int.land a b = 0 ↔ Disjoint (bits a) (bits b) := by
  rw [← bits_injective.eq_iff, bits_land, bits_zero, Set.disjoint_iff_inter_eq_empty]

/-- Masks put together with `|`. -/
theorem bits_foldl_lor (masks : List ℤ) (flags : ℤ) :
    bits (masks.foldl Int.lor flags) = bits flags ∪ {i | ∃ mask ∈ masks, i ∈ bits mask} := by
  induction masks generalizing flags with
  | nil => simp
  | cons mask masks ih =>
    rw [List.foldl_cons, ih, bits_lor, Set.union_assoc]
    congr 1
    ext i
    simp

/-- Masks taken out one after the other. -/
theorem bits_foldl_ldiff (masks : List ℤ) (flags : ℤ) :
    bits (masks.foldl Int.ldiff flags) = bits flags \ {i | ∃ mask ∈ masks, i ∈ bits mask} := by
  induction masks generalizing flags with
  | nil => simp
  | cons mask masks ih =>
    rw [List.foldl_cons, ih, bits_ldiff, Set.sdiff_sdiff]
    congr 1
    ext i
    simp

end BitMask
