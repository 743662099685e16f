import Mathlib.Algebra.Order.Field.Basic
import Mathlib.Tactic.Linarith
import Mathlib.Tactic.Ring

/-!
# Relative distances

A distance, taken relative to the sizes of what it lies between, keeps the triangle inequality.

* `Sized dist size`: the distance bounds by how much sizes differ.
* `relative dist size x y`: the distance as a share of half the way from `x` over nothing to `y` and
  back.
* `relative_triangle`: the triangle inequality of the shares.
-/

namespace RelativeDistance

variable {α F : Type*} [Field F] [LinearOrder F] [IsStrictOrderedRing F]

structure Sized (dist : α → α → F) (size : α → F) : Prop where
  nonneg : ∀ x y, 0 ≤ dist x y
  size_nonneg : ∀ x, 0 ≤ size x
  triangle : ∀ x y z, dist x z ≤ dist x y + dist y z
  left_le : ∀ x y, size x ≤ size y + dist x y
  right_le : ∀ x y, size y ≤ size x + dist x y

def relative (dist : α → α → F) (size : α → F) (x y : α) : F :=
  (dist x y + dist x y) / (size x + size y + dist x y)

section Fractions

variable {a b c p q r : F}

/-- What is added to both sides of a share raises it. -/
theorem div_le_add_div_add (hp : 0 ≤ p) (hpq : p ≤ q) (hr : 0 ≤ r) : p / q ≤ (p + r) / (q + r) := by
  rcases (hp.trans hpq).eq_or_lt with hzero | hpos
  · rw [← hzero, div_zero]
    exact div_nonneg (add_nonneg hp hr) (add_nonneg le_rfl hr)
  · have hproduct : p * r ≤ r * q := by
      rw [mul_comm r]
      exact mul_le_mul_of_nonneg_right hpq hr
    rw [div_le_div_iff₀ hpos (add_pos_of_pos_of_nonneg hpos hr)]
    linarith

/-- A share of more is less. -/
theorem div_le_div_of_le (ha : 0 ≤ a) (hac : a ≤ c) (hcb : c ≤ b) : a / b ≤ a / c := by
  rcases ha.eq_or_lt with rfl | hpos
  · rw [zero_div, zero_div]
  · exact div_le_div_of_nonneg_left ha (hpos.trans_le hac) hcb

end Fractions

variable {dist : α → α → F} {size : α → F}

omit [LinearOrder F] [IsStrictOrderedRing F] in
theorem relative_eq (dist : α → α → F) (size : α → F) (x y : α) :
    relative dist size x y = 2 * dist x y / (size x + size y + dist x y) := by
  rw [relative, two_mul]

theorem relative_triangle (h : Sized dist size) (x y z : α) :
    relative dist size x z ≤ relative dist size x y + relative dist size y z := by
  have hxy := h.nonneg x y
  have hyz := h.nonneg y z
  have hx := h.size_nonneg x
  have hy := h.size_nonneg y
  have hz := h.size_nonneg z
  -- the way over `y` is a greater share of the same sizes
  have hway : 2 * dist x z / (size x + size z + dist x z) ≤
      2 * (dist x y + dist y z) / (size x + size z + (dist x y + dist y z)) := by
    have hshare := div_le_add_div_add (h.nonneg x z)
      (le_add_of_nonneg_left (add_nonneg hx hz) : dist x z ≤ size x + size z + dist x z)
      (sub_nonneg.mpr (h.triangle x y z))
    rw [mul_div_assoc, mul_div_assoc]
    refine mul_le_mul_of_nonneg_left ?_ two_pos.le
    rwa [add_sub_cancel, add_assoc (size x + size z), add_sub_cancel] at hshare
  -- and each part of the way is less, relative to more
  have hfirst : 2 * dist x y / (size x + size z + (dist x y + dist y z)) ≤
      2 * dist x y / (size x + size y + dist x y) := by
    rw [mul_div_assoc, mul_div_assoc]
    refine mul_le_mul_of_nonneg_left (div_le_div_of_le hxy ?_ ?_) two_pos.le
    · linarith
    · linarith [h.left_le y z]
  have hsecond : 2 * dist y z / (size x + size z + (dist x y + dist y z)) ≤
      2 * dist y z / (size y + size z + dist y z) := by
    rw [mul_div_assoc, mul_div_assoc]
    refine mul_le_mul_of_nonneg_left (div_le_div_of_le hyz ?_ ?_) two_pos.le
    · linarith
    · linarith [h.right_le x y]
  rw [relative_eq, relative_eq, relative_eq]
  calc 2 * dist x z / (size x + size z + dist x z)
      ≤ 2 * (dist x y + dist y z) / (size x + size z + (dist x y + dist y z)) := hway
    _ = 2 * dist x y / (size x + size z + (dist x y + dist y z)) +
        2 * dist y z / (size x + size z + (dist x y + dist y z)) := by rw [mul_add, add_div]
    _ ≤ 2 * dist x y / (size x + size y + dist x y) +
        2 * dist y z / (size y + size z + dist y z) := add_le_add hfirst hsecond

end RelativeDistance
