import Mathlib.Data.List.GetD
import JavaExamples.Common.CollectLoop
import JavaExamples.Common.Text

/-!
# Hex files

`HexMain -e` copies a file to lines of upper-case hex digits, one line for each read of at most 64
bytes; `HexMain -d` reads them back. Bytes are signed, and become `int`s before their halves are cut
out.

* `decodeHex_hexDigits`: the two halves of each byte are read back as the byte.
* `encodeLoop_eq`: what the encoder writes depends on the reads alone, not on what earlier reads
  left in the buffer.
* `decode_encode_content`: decoding what was encoded gives the file back, however the reads split
  it.
-/

namespace HexFile

/-- A Java `byte`. -/
abbrev Byte := BitVec 8

inductive HexException where
  | runtimeException (message : Text)
  | arrayIndexOutOfBounds
deriving DecidableEq

/-! ## Encoding -/

def DIGITS_UPPER : List Char :=
  ['0', '1', '2', '3', '4', '5', '6', '7', '8', '9', 'A', 'B', 'C', 'D', 'E', 'F']

/-- `(0xF0 & data[i]) >>> 4`, where the byte is sign-extended to an `int`. -/
def upperHalf (b : Byte) : BitVec 32 := (0xF0#32 &&& b.signExtend 32) >>> 4

/-- `0x0F & data[i]`. -/
def lowerHalf (b : Byte) : BitVec 32 := 0x0F#32 &&& b.signExtend 32

/-- An array access. -/
def arrayAt {α : Type} (array : List α) (i : ℕ) : Except HexException α :=
  match array[i]? with
  | some x => .ok x
  | none => .error .arrayIndexOutOfBounds

/-- The two digits that the loop of `encodeHex` writes for `data[i]`. -/
def encodeHexAt (data : List Byte) (toDigits : List Char) (i : ℕ) :
    Except HexException (List Char) := do
  let b ← arrayAt data i
  let upper ← arrayAt toDigits (upperHalf b).toNat
  let lower ← arrayAt toDigits (lowerHalf b).toNat
  return [upper, lower]

/-- The digits of the first `length` bytes. -/
def encodeHex (data : List Byte) (toDigits : List Char) (length : ℕ) :
    Except HexException (List Char) :=
  (List.range length).foldlM (fun out i => return out ++ (← encodeHexAt data toDigits i)) []

/-- What one `in.read(buff, 0, 64)` delivers before the end of the file. -/
structure Read where
  bytes : List Byte
  length_pos : 0 < bytes.length
  length_le : bytes.length ≤ 64

/-- The buffer after a read: what it held beyond the bytes read stays. -/
def Read.fill (read : Read) (buff : List Byte) : List Byte :=
  read.bytes ++ buff.drop read.bytes.length

/-- The loop of `encode`, from the buffer and the text written so far. -/
def encodeLoop (buff : List Byte) (out : Text) : List Read → Except HexException Text
  | [] => .ok out
  | read :: reads => do
    let buff := read.fill buff
    let encoded ← encodeHex buff DIGITS_UPPER read.bytes.length
    encodeLoop buff (out ++ encoded ++ ['\n']) reads

/-- The text that `encode` writes for a file that is read in these pieces. -/
def encode (reads : List Read) : Except HexException Text :=
  encodeLoop (List.replicate 64 0) [] reads

/-! ## Decoding -/

section Decoding

-- `Character.digit(c, 16)`, `-1` for a character that is no digit
variable (digit : Char → ℤ)

def toDigit (ch : Char) (index : ℕ) : Except HexException (BitVec 32) :=
  if digit ch = -1 then
    .error (.runtimeException ("Illegal hexadecimal character ".toList ++
      ch :: " at index ".toList ++ Text.ofInt index))
  else .ok (BitVec.ofInt 32 (digit ch))

/-- The loop of `decodeHex`, from the index `j` on. -/
def decodeHexFrom (j : ℕ) : List Char → Except HexException (List Byte)
  | [] => .ok []
  | [ch] => do
    let _ ← toDigit digit ch j
    .error .arrayIndexOutOfBounds
  | ch :: ch' :: data => do
    let f ← toDigit digit ch j
    let f' ← toDigit digit ch' (j + 1)
    let out ← decodeHexFrom (j + 2) data
    return ((f <<< 4 ||| f') &&& 0xFF#32).setWidth 8 :: out

def decodeHex (data : List Char) : Except HexException (List Byte) :=
  if data.length &&& 0x01 ≠ 0 then
    .error (.runtimeException "Odd number of characters.".toList)
  else decodeHexFrom digit 0 data

/-- The bytes that `decode` writes for a file with this text. -/
def decode (text : Text) : Except HexException (List Byte) :=
  (Text.lines text).foldlM (fun out line => return out ++ (← decodeHex digit line)) []

/-- `digit` is the usual value on the characters that have one. -/
def IsHexValue : Prop :=
  ∀ value < 10, digit (Char.ofNat (48 + value)) = value ∧
    (value < 6 → digit (Char.ofNat (65 + value)) = 10 + value ∧
      digit (Char.ofNat (97 + value)) = 10 + value)

end Decoding

/-! ## One byte -/

/-- The digits of one byte. -/
def hexDigits (b : Byte) : List Char :=
  [DIGITS_UPPER.getD (upperHalf b).toNat '0', DIGITS_UPPER.getD (lowerHalf b).toNat '0']

/-- Both halves of a byte are below 16, the sign of the byte notwithstanding. -/
theorem halves_lt : ∀ b : Byte, (upperHalf b).toNat < 16 ∧ (lowerHalf b).toNat < 16 := by decide

/-- The halves make up the byte. -/
theorem setWidth_halves : ∀ b : Byte,
    ((upperHalf b <<< 4 ||| lowerHalf b) &&& 0xFF#32).setWidth 8 = b := by decide

theorem arrayAt_eq_ok {α : Type} (array : List α) {i : ℕ} (h : i < array.length) (default : α) :
    arrayAt array i = .ok (array.getD i default) := by
  rw [arrayAt, List.getElem?_eq_getElem h, List.getD_eq_getElem _ _ h]

theorem toDigit_DIGITS_UPPER {digit : Char → ℤ} (hdigit : IsHexValue digit) {n : ℕ} (h : n < 16)
    (index : ℕ) : toDigit digit (DIGITS_UPPER.getD n '0') index = .ok (BitVec.ofNat 32 n) := by
  have hvalue : digit (DIGITS_UPPER.getD n '0') = n := by
    rcases Nat.lt_or_ge n 10 with hlt | hge
    · have hchar : ∀ m < 10, DIGITS_UPPER.getD m '0' = Char.ofNat (48 + m) := by decide
      rw [hchar n hlt]
      exact (hdigit n hlt).1
    · obtain ⟨m, rfl⟩ := Nat.exists_eq_add_of_le hge
      have hm : m < 6 := by omega
      have hchar : ∀ m < 6, DIGITS_UPPER.getD (10 + m) '0' = Char.ofNat (65 + m) := by decide
      rw [hchar m hm, ((hdigit m (by omega)).2 hm).1]
      push_cast
      rfl
  rw [toDigit, hvalue, if_neg (by omega), BitVec.ofInt_natCast]

/-! ## One line -/

variable {digit : Char → ℤ}

theorem encodeHexAt_eq {data : List Byte} {i : ℕ} (h : i < data.length) :
    encodeHexAt data DIGITS_UPPER i = .ok (hexDigits (data.getD i 0)) := by
  have hupper := arrayAt_eq_ok DIGITS_UPPER (halves_lt (data.getD i 0)).1 '0'
  have hlower := arrayAt_eq_ok DIGITS_UPPER (halves_lt (data.getD i 0)).2 '0'
  rw [encodeHexAt, arrayAt_eq_ok data h 0]
  show (do
    let upper ← arrayAt DIGITS_UPPER (upperHalf (data.getD i 0)).toNat
    let lower ← arrayAt DIGITS_UPPER (lowerHalf (data.getD i 0)).toNat
    return [upper, lower]) = _
  rw [hupper, hlower]
  rfl

/-- The first elements of an array, one index after the other. -/
theorem map_range_getD {α : Type} (xs ys : List α) (default : α) :
    (List.range xs.length).map (fun i => (xs ++ ys).getD i default) = xs := by
  apply List.ext_getElem
  · simp
  · intro i hi hxs
    rw [List.getElem_map, List.getElem_range, List.getD_append _ _ _ _ hxs,
      List.getD_eq_getElem _ _ hxs]

/-- Only the bytes of the last read are encoded. -/
theorem encodeHex_fill (read : Read) (buff : List Byte) :
    encodeHex (read.fill buff) DIGITS_UPPER read.bytes.length =
      .ok (read.bytes.flatMap hexDigits) := by
  have hat : ∀ i ∈ List.range read.bytes.length, encodeHexAt (read.fill buff) DIGITS_UPPER i =
      .ok (hexDigits ((read.fill buff).getD i 0)) := by
    intro i hi
    apply encodeHexAt_eq
    rw [Read.fill, List.length_append]
    exact Nat.lt_add_right _ (List.mem_range.mp hi)
  rw [encodeHex, CollectLoop.foldlM_append_eq_flatMap hat, List.nil_append]
  conv_rhs => rw [← map_range_getD read.bytes (buff.drop read.bytes.length) 0, List.flatMap_map]
  rfl

/-- The digits of bytes decode to the bytes. -/
theorem decodeHexFrom_hexDigits (hdigit : IsHexValue digit) (bytes : List Byte) (j : ℕ) :
    decodeHexFrom digit j (bytes.flatMap hexDigits) = .ok bytes := by
  induction bytes generalizing j with
  | nil => rfl
  | cons b bytes ih =>
    have hupper := toDigit_DIGITS_UPPER hdigit (halves_lt b).1 j
    have hlower := toDigit_DIGITS_UPPER hdigit (halves_lt b).2 (j + 1)
    rw [BitVec.ofNat_toNat, BitVec.setWidth_eq] at hupper hlower
    have hbyte : ((upperHalf b <<< 4 ||| lowerHalf b) &&& 0xFF#32).setWidth 8 = b :=
      setWidth_halves b
    rw [List.flatMap_cons, hexDigits, List.cons_append, List.cons_append, List.nil_append,
      decodeHexFrom, hupper, hlower, ih (j + 2)]
    show Except.ok (_ :: bytes) = Except.ok (b :: bytes)
    rw [hbyte]

theorem decodeHex_hexDigits (hdigit : IsHexValue digit) (bytes : List Byte) :
    decodeHex digit (bytes.flatMap hexDigits) = .ok bytes := by
  have hlength : (bytes.flatMap hexDigits).length = 2 * bytes.length := by
    rw [List.length_flatMap]
    induction bytes with
    | nil => rfl
    | cons b bytes ih =>
      rw [List.map_cons, List.sum_cons, ih, List.length_cons]
      show 2 + _ = _
      omega
  rw [decodeHex, hlength, Nat.and_one_is_mod, Nat.mul_mod_right, if_neg (by simp)]
  exact decodeHexFrom_hexDigits hdigit bytes 0

/-! ## The file -/

/-- The encoder writes one line a read. -/
theorem encodeLoop_eq (reads : List Read) (buff : List Byte) (out : Text) :
    encodeLoop buff out reads =
      .ok (out ++ reads.flatMap fun read => read.bytes.flatMap hexDigits ++ ['\n']) := by
  induction reads generalizing buff out with
  | nil => rw [encodeLoop, List.flatMap_nil, List.append_nil]
  | cons read reads ih =>
    rw [encodeLoop, encodeHex_fill]
    show encodeLoop _ (out ++ read.bytes.flatMap hexDigits ++ ['\n']) reads = _
    rw [ih, List.flatMap_cons]
    simp only [List.append_assoc]

/-- No digit ends a line. -/
theorem ne_lineBreak_of_mem_hexDigits {bytes : List Byte} {c : Char}
    (h : c ∈ bytes.flatMap hexDigits) : c ≠ '\n' ∧ c ≠ '\r' := by
  have hchar : ∀ n < 16, DIGITS_UPPER.getD n '0' ≠ '\n' ∧ DIGITS_UPPER.getD n '0' ≠ '\r' := by
    decide
  obtain ⟨b, -, hc⟩ := List.mem_flatMap.mp h
  rw [hexDigits, List.mem_cons, List.mem_singleton] at hc
  rcases hc with rfl | rfl
  · exact hchar _ (halves_lt b).1
  · exact hchar _ (halves_lt b).2

/-- A file is decoded from what was encoded, whatever pieces the encoder read it in. -/
theorem decode_encode_content (hdigit : IsHexValue digit) (content : List Byte) (reads : List Read)
    (hreads : reads.flatMap Read.bytes = content) :
    (encode reads).bind (decode digit) = .ok content := by
  have hlines : Text.lines (reads.flatMap fun read => read.bytes.flatMap hexDigits ++ ['\n']) =
      reads.map fun read => read.bytes.flatMap hexDigits :=
    Text.lines_flatMap fun _ _ _ => ne_lineBreak_of_mem_hexDigits
  rw [encode, encodeLoop_eq, List.nil_append]
  show decode digit _ = _
  rw [decode, hlines, List.foldlM_map]
  rw [CollectLoop.foldlM_append_eq_flatMap (f := fun read : Read =>
      decodeHex digit (read.bytes.flatMap hexDigits))
    (fun read _ => decodeHex_hexDigits hdigit read.bytes), List.nil_append, hreads]

/-- The value of the ASCII digits, and no other. -/
def asciiDigit (c : Char) : ℤ :=
  if 48 ≤ c.toNat ∧ c.toNat < 58 then c.toNat - 48
  else if 65 ≤ c.toNat ∧ c.toNat < 71 then c.toNat - 55
  else if 97 ≤ c.toNat ∧ c.toNat < 103 then c.toNat - 87
  else -1

/-- Three bytes, the last one negative, in two reads. -/
theorem decode_encode_twoReads :
    (encode [⟨[0x00, 0x7F], by decide, by decide⟩, ⟨[0xFF], by decide, by decide⟩]).bind
      (decode asciiDigit) = .ok [0x00, 0x7F, 0xFF] :=
  decode_encode_content (by unfold IsHexValue; decide) _ _ rfl

end HexFile
