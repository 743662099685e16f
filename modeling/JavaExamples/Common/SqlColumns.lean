import Mathlib.Data.Rat.Floor
import Mathlib.Tactic.FieldSimp
import Mathlib.Tactic.Linarith
import JavaExamples.Common.Text

/-!
# Columns of a table

What the columns of PostgreSQL make of a value that is stored, and which values they refuse.

* `decimal`: numbers are rounded to the scale of the column, away from zero in the middle.
* `varchar`: texts that are too long by spaces only are cut.
* `decimal_decimalValue`, `varchar_of_fits`: a value that fits is stored as it is.
-/

namespace SqlColumns

/-- The nearest integer, or of two the one further from zero. -/
def roundHalfAway (x : ℚ) : ℤ := if 0 ≤ x then ⌊x + 1 / 2⌋ else -⌊-x + 1 / 2⌋

theorem roundHalfAway_intCast (n : ℤ) : roundHalfAway n = n := by
  have hhalf : ∀ m : ℤ, ⌊(m : ℚ) + 1 / 2⌋ = m := by
    intro m
    rw [Int.floor_eq_iff]
    constructor <;> linarith
  unfold roundHalfAway
  split
  · exact hhalf n
  · have hneg := hhalf (-n)
    push_cast at hneg
    rw [hneg, neg_neg]

/-- What `DECIMAL(precision, scale)` holds of a number, in units of the last decimal. -/
def decimal (precision scale : ℕ) (x : ℚ) : Option ℤ :=
  let unscaled := roundHalfAway (x * 10 ^ scale)
  if unscaled.natAbs < 10 ^ precision then some unscaled else none

/-- The number held. -/
def decimalValue (scale : ℕ) (unscaled : ℤ) : ℚ := unscaled / 10 ^ scale

/-- A number of the scale is not rounded. -/
theorem roundHalfAway_decimalValue (scale : ℕ) (unscaled : ℤ) :
    roundHalfAway (decimalValue scale unscaled * 10 ^ scale) = unscaled := by
  have hvalue : decimalValue scale unscaled * 10 ^ scale = unscaled := by
    unfold decimalValue
    field_simp
  rw [hvalue, roundHalfAway_intCast]

theorem decimal_decimalValue {precision scale : ℕ} {unscaled : ℤ}
    (h : unscaled.natAbs < 10 ^ precision) :
    decimal precision scale (decimalValue scale unscaled) = some unscaled := by
  simp only [decimal, roundHalfAway_decimalValue, h, if_true]

/-- What `VARCHAR(n)` holds of a text: characters beyond the `n`-th are cut off if they are spaces.
The character with the code 0 is in no text. -/
def varchar (n : ℕ) (text : Text) : Option Text :=
  if Char.ofNat 0 ∈ text then none
  else if (text.drop n).all fun c => c = ' ' then some (text.take n)
  else none

theorem varchar_of_fits {n : ℕ} {text : Text} (hnul : Char.ofNat 0 ∉ text)
    (hlength : text.length ≤ n) : varchar n text = some text := by
  rw [varchar, if_neg hnul, List.drop_eq_nil_of_le hlength, List.take_of_length_le hlength,
    if_pos (by simp)]

/-- A column that takes `NULL` as well. -/
def nullable {α β : Type} (column : α → Option β) : Option α → Option (Option β)
  | none => some none
  | some value => (column value).map some

end SqlColumns
