import Mathlib.Algebra.Group.Nat.Even
import JavaExamples.HexFile.HexMain

/-!
# What the hex decoder accepts

`decodeHex` on arrays of Java `char`s, that is of UTF-16 code units, surrogates included, with
`Character.digit(ch, 16)` for a table of the decimal digits of Unicode.

* `decodeHex_eq_ok_iff`: what the decoder returns, and on which arrays.
* `encodes_iff`: the bytes that encode to an array are the ones it decodes to.
* `decodeHex_units`: on texts, the decoder of `HexMain`.
-/

namespace HexFile.CodeUnits

/-- A Java `char`. -/
abbrev CodeUnit := BitVec 16

/-- The code unit of a character of the basic plane. -/
def unit (c : Char) : CodeUnit := BitVec.ofNat 16 c.toNat

def units (text : Text) : List CodeUnit := text.map unit

/-! ## `Character.digit` -/

/-- The value of the ASCII digits. -/
def asciiDecimal (ch : CodeUnit) : Option (Fin 10) :=
  if h : 48 ≤ ch.toNat ∧ ch.toNat < 58 then some ⟨ch.toNat - 48, by omega⟩ else none

/-- The decimal digits of a version of Unicode. -/
structure DecimalDigits where
  value : CodeUnit → Option (Fin 10)
  /-- Every version has the same ones below `0x80`. -/
  value_ascii : ∀ ch, ch.toNat < 0x80 → value ch = asciiDecimal ch

/-- The letters of radix 16, ASCII and full width. -/
def letterDigit (ch : CodeUnit) : ℤ :=
  if 0x41 ≤ ch.toNat ∧ ch.toNat ≤ 0x46 then ch.toNat - 0x41 + 10
  else if 0x61 ≤ ch.toNat ∧ ch.toNat ≤ 0x66 then ch.toNat - 0x61 + 10
  else if 0xFF21 ≤ ch.toNat ∧ ch.toNat ≤ 0xFF26 then ch.toNat - 0xFF21 + 10
  else if 0xFF41 ≤ ch.toNat ∧ ch.toNat ≤ 0xFF46 then ch.toNat - 0xFF41 + 10
  else -1

/-- The value of a decimal digit, if there is one, and that of the letter otherwise. -/
def digitOf (decimal : Option (Fin 10)) (ch : CodeUnit) : ℤ :=
  match decimal with
  | some value => value.val
  | none => letterDigit ch

/-! ## Decoding -/

inductive Thrown where
  | runtimeException (message : List CodeUnit)
  | arrayIndexOutOfBounds
deriving DecidableEq

section Decoding

variable (decimals : DecimalDigits)

/-- `Character.digit(ch, 16)`. -/
def digit (ch : CodeUnit) : ℤ := digitOf (decimals.value ch) ch

def toDigit (ch : CodeUnit) (index : ℕ) : Except Thrown (BitVec 32) :=
  if digit decimals ch = -1 then
    .error (.runtimeException (units "Illegal hexadecimal character ".toList ++
      ch :: units " at index ".toList ++ units (Text.ofInt index)))
  else .ok (BitVec.ofInt 32 (digit decimals ch))

/-- `(byte) (f & 0xFF)` for the digits of two characters. -/
def byteOf (ch ch' : CodeUnit) : Byte :=
  ((BitVec.ofInt 32 (digit decimals ch) <<< 4 ||| BitVec.ofInt 32 (digit decimals ch')) &&&
    0xFF#32).setWidth 8

/-- The loop of `decodeHex`, from the index `j` on. -/
def decodeHexFrom (j : ℕ) : List CodeUnit → Except Thrown (List Byte)
  | [] => .ok []
  | [ch] => do
    let _ ← toDigit decimals ch j
    .error .arrayIndexOutOfBounds
  | ch :: ch' :: data => do
    let f ← toDigit decimals ch j
    let f' ← toDigit decimals ch' (j + 1)
    let out ← decodeHexFrom (j + 2) data
    return ((f <<< 4 ||| f') &&& 0xFF#32).setWidth 8 :: out

def decodeHex (data : List CodeUnit) : Except Thrown (List Byte) :=
  if data.length &&& 0x01 ≠ 0 then
    .error (.runtimeException (units "Odd number of characters.".toList))
  else decodeHexFrom decimals 0 data

end Decoding

variable {decimals : DecimalDigits}

theorem toDigit_eq (ch : CodeUnit) (index : ℕ) (h : digit decimals ch ≠ -1) :
    toDigit decimals ch index = .ok (BitVec.ofInt 32 (digit decimals ch)) := if_neg h

theorem toDigit_ne_ok (ch : CodeUnit) (index : ℕ) (h : digit decimals ch = -1) :
    ∃ thrown, toDigit decimals ch index = .error thrown := ⟨_, if_pos h⟩

/-- A step of the loop returns if both characters have a digit and the rest returns. -/
theorem decodeHexFrom_cons_cons_eq_ok_iff {j : ℕ} {ch ch' : CodeUnit} {data : List CodeUnit}
    {bytes : List Byte} :
    decodeHexFrom decimals j (ch :: ch' :: data) = .ok bytes ↔
      digit decimals ch ≠ -1 ∧ digit decimals ch' ≠ -1 ∧
        ∃ out, decodeHexFrom decimals (j + 2) data = .ok out ∧
          bytes = byteOf decimals ch ch' :: out := by
  rw [decodeHexFrom]
  -- the first character without a digit decides, and the rest is not looked at
  by_cases hch : digit decimals ch = -1
  · obtain ⟨thrown, hthrown⟩ := toDigit_ne_ok ch j hch
    rw [hthrown]
    exact iff_of_false (fun h => by cases h) fun h => h.1 hch
  · rw [toDigit_eq ch j hch]
    by_cases hch' : digit decimals ch' = -1
    · obtain ⟨thrown, hthrown⟩ := toDigit_ne_ok ch' (j + 1) hch'
      rw [hthrown]
      exact iff_of_false (fun h => by cases h) fun h => h.2.1 hch'
    · rw [toDigit_eq ch' (j + 1) hch']
      rcases decodeHexFrom decimals (j + 2) data with thrown | out
      · refine iff_of_false (fun h => by cases h) fun h => ?_
        obtain ⟨out, hout, -⟩ := h.2.2
        cases hout
      · constructor
        · intro h
          exact ⟨hch, hch', out, rfl, (Except.ok.inj h).symm⟩
        · rintro ⟨-, -, out', hout', rfl⟩
          rw [Except.ok.inj hout']
          rfl

/-- On an even number of characters the loop returns unless one of them has no digit. -/
theorem exists_decodeHexFrom_eq_ok_iff (j : ℕ) (data : List CodeUnit) (heven : Even data.length) :
    (∃ bytes, decodeHexFrom decimals j data = .ok bytes) ↔
      ∀ ch ∈ data, digit decimals ch ≠ -1 := by
  induction j, data using decodeHexFrom.induct with
  | case1 j => exact iff_of_true ⟨[], rfl⟩ (by simp)
  | case2 j ch => simp at heven
  | case3 j ch ch' data ih =>
    have heven' : Even data.length := by
      simpa [Nat.even_add_one] using heven
    rw [List.forall_mem_cons, List.forall_mem_cons, ← ih heven']
    constructor
    · rintro ⟨bytes, h⟩
      obtain ⟨hch, hch', out, hout, -⟩ := decodeHexFrom_cons_cons_eq_ok_iff.mp h
      exact ⟨hch, hch', out, hout⟩
    · rintro ⟨hch, hch', out, hout⟩
      exact ⟨_, decodeHexFrom_cons_cons_eq_ok_iff.mpr ⟨hch, hch', out, hout, rfl⟩⟩

theorem exists_decodeHex_eq_ok_iff (decimals : DecimalDigits) (data : List CodeUnit) :
    (∃ bytes, decodeHex decimals data = .ok bytes) ↔
      Even data.length ∧ ∀ ch ∈ data, digit decimals ch ≠ -1 := by
  rw [decodeHex, Nat.and_one_is_mod]
  by_cases heven : Even data.length
  · rw [Nat.even_iff.mp heven, if_neg (by simp), exists_decodeHexFrom_eq_ok_iff 0 data heven,
      and_iff_right heven]
  · rw [if_pos (fun h => heven (Nat.even_iff.mpr h))]
    exact iff_of_false (fun ⟨_, h⟩ => by cases h) fun h => heven h.1

/-! ## Hexadecimal text -/

/-- The characters `0-9`, `A-F` and `a-f`. -/
def HEX : List CodeUnit := units (DIGITS_UPPER ++ ['a', 'b', 'c', 'd', 'e', 'f'])

def IsHexText (data : List CodeUnit) : Prop := Even data.length ∧ ∀ ch ∈ data, ch ∈ HEX

/-- The letters that occur among hex digits are ASCII letters. -/
def toUpperCase (ch : CodeUnit) : CodeUnit :=
  if 0x61 ≤ ch.toNat ∧ ch.toNat ≤ 0x7A then ch - 0x20#16 else ch

def EqualsIgnoreCase (data data' : List CodeUnit) : Prop :=
  data.map toUpperCase = data'.map toUpperCase

/-- `encodeHex` makes the characters of `data` of the bytes, up to their case. -/
def Encodes (bytes : List Byte) (data : List CodeUnit) : Prop :=
  ∃ encoded, encodeHex bytes DIGITS_UPPER bytes.length = .ok encoded ∧
    EqualsIgnoreCase (units encoded) data

theorem encodeHex_eq (bytes : List Byte) :
    encodeHex bytes DIGITS_UPPER bytes.length = .ok (bytes.flatMap hexDigits) := by
  have hat : ∀ i ∈ List.range bytes.length, encodeHexAt bytes DIGITS_UPPER i =
      .ok (hexDigits (bytes.getD i 0)) := fun i hi => encodeHexAt_eq (List.mem_range.mp hi)
  have hbytes := map_range_getD bytes [] 0
  rw [List.append_nil] at hbytes
  rw [encodeHex, CollectLoop.foldlM_append_eq_flatMap hat, List.nil_append]
  conv_rhs => rw [← hbytes, List.flatMap_map]

/-- The digit written for a value is the character that has it, in upper case. -/
theorem digit_of_mem_HEX (decimals : DecimalDigits) {ch : CodeUnit} (h : ch ∈ HEX) :
    ∃ n : ℕ, n < 16 ∧ digit decimals ch = n ∧ toUpperCase ch = unit (DIGITS_UPPER.getD n '0') := by
  have hascii : HEX.all (fun ch => decide (ch.toNat < 0x80 ∧ ∃ n : ℕ, n < 16 ∧
      digitOf (asciiDecimal ch) ch = n ∧ toUpperCase ch = unit (DIGITS_UPPER.getD n '0'))) := by
    decide +kernel
  obtain ⟨hlt, n, hn, hdigit, hupper⟩ := of_decide_eq_true (List.all_eq_true.mp hascii ch h)
  rw [digit, decimals.value_ascii ch hlt]
  exact ⟨n, hn, hdigit, hupper⟩

theorem digit_ne_of_mem_HEX {ch : CodeUnit} (h : ch ∈ HEX) : digit decimals ch ≠ -1 := by
  obtain ⟨n, -, hdigit, -⟩ := digit_of_mem_HEX decimals h
  rw [hdigit]
  omega

/-- The byte of two values is written with their digits. -/
theorem hexDigits_byte : ∀ n < 16, ∀ n' < 16,
    hexDigits (((BitVec.ofNat 32 n <<< 4 ||| BitVec.ofNat 32 n') &&& 0xFF#32).setWidth 8) =
      [DIGITS_UPPER.getD n '0', DIGITS_UPPER.getD n' '0'] := by
  decide +kernel

theorem units_hexDigits_byteOf (decimals : DecimalDigits) {ch ch' : CodeUnit} (h : ch ∈ HEX)
    (h' : ch' ∈ HEX) :
    units (hexDigits (byteOf decimals ch ch')) = [toUpperCase ch, toUpperCase ch'] := by
  obtain ⟨n, hn, hdigit, hupper⟩ := digit_of_mem_HEX decimals h
  obtain ⟨n', hn', hdigit', hupper'⟩ := digit_of_mem_HEX decimals h'
  rw [byteOf, hdigit, hdigit', BitVec.ofInt_natCast, BitVec.ofInt_natCast,
    hexDigits_byte n hn n' hn', hupper, hupper']
  rfl

/-- On hexadecimal text the result of the loop is written as the text. -/
theorem units_hexDigits_of_decodeHexFrom {j : ℕ} {data : List CodeUnit} {bytes : List Byte}
    (hdata : ∀ ch ∈ data, ch ∈ HEX) (h : decodeHexFrom decimals j data = .ok bytes) :
    units (bytes.flatMap hexDigits) = data.map toUpperCase := by
  induction j, data using decodeHexFrom.induct generalizing bytes with
  | case1 j =>
    obtain rfl := Except.ok.inj h
    rfl
  -- the last character has no second one, and reading it throws
  | case2 j ch =>
    rw [decodeHexFrom, toDigit_eq ch j (digit_ne_of_mem_HEX (hdata ch (by simp)))] at h
    cases h
  | case3 j ch ch' data ih =>
    obtain ⟨-, -, out, hout, rfl⟩ := decodeHexFrom_cons_cons_eq_ok_iff.mp h
    rw [List.forall_mem_cons, List.forall_mem_cons] at hdata
    obtain ⟨hch, hch', hdata⟩ := hdata
    have hrest := ih hdata hout
    have hbyte := units_hexDigits_byteOf decimals hch hch'
    simp only [units, List.flatMap_cons, List.map_append, List.map_cons] at hrest hbyte ⊢
    rw [hrest, hbyte]
    rfl

theorem toUpperCase_units_hexDigits (bytes : List Byte) :
    (units (bytes.flatMap hexDigits)).map toUpperCase = units (bytes.flatMap hexDigits) := by
  have hchar : ∀ n < 16, toUpperCase (unit (DIGITS_UPPER.getD n '0')) =
      unit (DIGITS_UPPER.getD n '0') := by decide +kernel
  induction bytes with
  | nil => rfl
  | cons b bytes ih =>
    obtain ⟨hupper, hlower⟩ := halves_lt b
    simp only [units, List.flatMap_cons, hexDigits, List.cons_append, List.nil_append,
      List.map_cons] at ih ⊢
    rw [hchar _ hupper, hchar _ hlower, ih]

theorem encodes_iff_units (bytes : List Byte) (data : List CodeUnit) :
    Encodes bytes data ↔ units (bytes.flatMap hexDigits) = data.map toUpperCase := by
  rw [Encodes, encodeHex_eq]
  constructor
  · rintro ⟨encoded, hencoded, h⟩
    rwa [← Except.ok.inj hencoded, EqualsIgnoreCase, toUpperCase_units_hexDigits] at h
  · intro h
    refine ⟨_, rfl, ?_⟩
    rwa [EqualsIgnoreCase, toUpperCase_units_hexDigits]

/-! ## One byte array for a text -/

theorem unit_DIGITS_UPPER_mem_HEX {n : ℕ} (h : n < 16) : unit (DIGITS_UPPER.getD n '0') ∈ HEX := by
  have hmem : ∀ n < 16, unit (DIGITS_UPPER.getD n '0') ∈ HEX := by decide +kernel
  exact hmem n h

theorem digit_DIGITS_UPPER {n : ℕ} (h : n < 16) :
    digit decimals (unit (DIGITS_UPPER.getD n '0')) = n := by
  have hinj : ∀ m < 16, ∀ n < 16, unit (DIGITS_UPPER.getD m '0') =
      toUpperCase (unit (DIGITS_UPPER.getD n '0')) → m = n := by decide +kernel
  obtain ⟨m, hm, hdigit, hupper⟩ := digit_of_mem_HEX decimals
    (unit_DIGITS_UPPER_mem_HEX h)
  rw [hdigit, hinj m hm n h hupper.symm]

/-- What is written for bytes is read back as the bytes. -/
theorem decodeHexFrom_units_hexDigits (decimals : DecimalDigits) (bytes : List Byte) (j : ℕ) :
    decodeHexFrom decimals j (units (bytes.flatMap hexDigits)) = .ok bytes := by
  induction bytes generalizing j with
  | nil => rfl
  | cons b bytes ih =>
    obtain ⟨hupper, hlower⟩ := halves_lt b
    have hbyte : byteOf decimals (unit (DIGITS_UPPER.getD (upperHalf b).toNat '0'))
        (unit (DIGITS_UPPER.getD (lowerHalf b).toNat '0')) = b := by
      rw [byteOf, digit_DIGITS_UPPER hupper, digit_DIGITS_UPPER hlower, BitVec.ofInt_natCast,
        BitVec.ofInt_natCast, BitVec.ofNat_toNat, BitVec.ofNat_toNat, BitVec.setWidth_eq,
        BitVec.setWidth_eq, setWidth_halves]
    rw [List.flatMap_cons, hexDigits, List.cons_append, List.cons_append, List.nil_append]
    apply decodeHexFrom_cons_cons_eq_ok_iff.mpr
    refine ⟨?_, ?_, bytes, ih (j + 2), by rw [hbyte]⟩
    · exact digit_ne_of_mem_HEX (unit_DIGITS_UPPER_mem_HEX hupper)
    · exact digit_ne_of_mem_HEX (unit_DIGITS_UPPER_mem_HEX hlower)

/-- On hexadecimal text the decoder returns the one array that is written as the text. -/
theorem decodeHex_of_isHexText {data : List CodeUnit} (hdata : IsHexText data) :
    ∃ bytes, decodeHex decimals data = .ok bytes ∧ ∀ other, Encodes other data ↔ other = bytes := by
  obtain ⟨heven, hhex⟩ := hdata
  obtain ⟨bytes, hbytes⟩ := (exists_decodeHex_eq_ok_iff decimals data).mpr
    ⟨heven, fun ch hch => digit_ne_of_mem_HEX (hhex ch hch)⟩
  have hfrom : decodeHexFrom decimals 0 data = .ok bytes := by
    rwa [decodeHex, Nat.and_one_is_mod, Nat.even_iff.mp heven, if_neg (by simp)] at hbytes
  have hunits := units_hexDigits_of_decodeHexFrom hhex hfrom
  refine ⟨bytes, hbytes, fun other => ?_⟩
  rw [encodes_iff_units]
  constructor
  -- another array of the same text would be decoded to itself
  · intro h
    have hother := decodeHexFrom_units_hexDigits decimals other 0
    rw [h, ← hunits, decodeHexFrom_units_hexDigits] at hother
    exact (Except.ok.inj hother).symm
  · rintro rfl
    exact hunits

/-! ## The decoder against hexadecimal text -/

/-- The decoder returns on hexadecimal text alone, and there it returns the one array of bytes that
is written as the text, up to case. -/
structure DecodesHexText (decimals : DecimalDigits) (data : List CodeUnit) : Prop where
  returns_iff : (∃ bytes, decodeHex decimals data = .ok bytes) ↔ IsHexText data
  unique : IsHexText data →
    ∃ bytes, decodeHex decimals data = .ok bytes ∧ ∀ other, Encodes other data ↔ other = bytes

/-- The array goes through although it is no hexadecimal text: each of its characters is a digit
somewhere in Unicode, but not each of them one of ASCII. -/
def HasForeignDigit (decimals : DecimalDigits) (data : List CodeUnit) : Prop :=
  Even data.length ∧ (∀ ch ∈ data, digit decimals ch ≠ -1) ∧ ∃ ch ∈ data, ch ∉ HEX

/-- The decoder is right except on digits from elsewhere. -/
theorem decodesHexText_iff (decimals : DecimalDigits) (data : List CodeUnit) :
    DecodesHexText decimals data ↔ ¬HasForeignDigit decimals data := by
  constructor
  · rintro ⟨hreturns, -⟩ ⟨heven, hdigits, ch, hch, hforeign⟩
    rw [exists_decodeHex_eq_ok_iff] at hreturns
    exact hforeign ((hreturns.mp ⟨heven, hdigits⟩).2 ch hch)
  · intro hforeign
    -- what is returned is unique anyway, so only foreign digits can be in the way
    refine ⟨?_, decodeHex_of_isHexText⟩
    rw [exists_decodeHex_eq_ok_iff]
    constructor
    · rintro ⟨heven, hdigits⟩
      refine ⟨heven, fun ch hch => ?_⟩
      by_contra hnot
      exact hforeign ⟨heven, hdigits, ch, hch, hnot⟩
    · rintro ⟨heven, hhex⟩
      exact ⟨heven, fun ch hch => digit_ne_of_mem_HEX (hhex ch hch)⟩

/-- The zeros of the decimal digits of the basic plane; the other nine of a script follow. -/
def ZEROS : List ℕ :=
  [0x0030, 0x0660, 0x06F0, 0x07C0, 0x0966, 0x09E6, 0x0A66, 0x0AE6, 0x0B66, 0x0BE6, 0x0C66, 0x0CE6,
    0x0D66, 0x0DE6, 0x0E50, 0x0ED0, 0x0F20, 0x1040, 0x1090, 0x17E0, 0x1810, 0x1946, 0x19D0, 0x1A80,
    0x1A90, 0x1B50, 0x1BB0, 0x1C40, 0x1C50, 0xA620, 0xA8D0, 0xA900, 0xA9D0, 0xA9F0, 0xAA50, 0xABF0,
    0xFF10]

def zerosValue (ch : CodeUnit) : Option (Fin 10) :=
  ZEROS.findSome? fun z =>
    if h : z ≤ ch.toNat ∧ ch.toNat < z + 10 then some ⟨ch.toNat - z, by omega⟩ else none

/-- The decimal digits of the basic plane. -/
def basicPlane : DecimalDigits where
  value := zerosValue
  value_ascii := by
    have hlow : ∀ n < 0x80, zerosValue (BitVec.ofNat 16 n) = asciiDecimal (BitVec.ofNat 16 n) := by
      decide +kernel
    intro ch hch
    have h := hlow ch.toNat hch
    rwa [BitVec.ofNat_toNat, BitVec.setWidth_eq] at h

/-- The Arabic digits four and one are read as the byte `0x41`. -/
theorem not_decodesHexText_arabic :
    decodeHex basicPlane [0x0664, 0x0661] = .ok [0x41] ∧
      ¬DecodesHexText basicPlane [0x0664, 0x0661] := by
  have hreturns : decodeHex basicPlane [0x0664, 0x0661] = .ok [0x41] := by decide +kernel
  have hnot : (0x0664 : CodeUnit) ∉ HEX := by decide +kernel
  exact ⟨hreturns, fun h => hnot ((h.returns_iff.mp ⟨_, hreturns⟩).2 _ (by simp))⟩

/-! ## Texts -/

theorem digit_unit_eq_asciiDigit {c : Char} (h : c.toNat < 0x80) :
    digit decimals (unit c) = asciiDigit c := by
  have hascii : ∀ n < 0x80, (unit (Char.ofNat n)).toNat < 0x80 ∧
      digitOf (asciiDecimal (unit (Char.ofNat n))) (unit (Char.ofNat n)) =
        asciiDigit (Char.ofNat n) := by decide +kernel
  obtain ⟨hlt, hdigit⟩ := hascii c.toNat h
  rw [Char.ofNat_toNat] at hlt hdigit
  rw [digit, decimals.value_ascii _ hlt, hdigit]

/-- The values that reading back encoded files relies on. -/
theorem isHexValue_digit (decimals : DecimalDigits) :
    IsHexValue fun c => digit decimals (unit c) := by
  have hascii : IsHexValue asciiDigit := by
    unfold IsHexValue
    decide
  have hlt : ∀ value < 10, (Char.ofNat (48 + value)).toNat < 0x80 ∧
      (Char.ofNat (65 + value)).toNat < 0x80 ∧ (Char.ofNat (97 + value)).toNat < 0x80 := by
    decide +kernel
  intro value hvalue
  obtain ⟨hdecimal, hupper, hlower⟩ := hlt value hvalue
  simp only [digit_unit_eq_asciiDigit hdecimal, digit_unit_eq_asciiDigit hupper,
    digit_unit_eq_asciiDigit hlower]
  exact hascii value hvalue

/-- A character has a code unit without a digit iff it has no digit. -/
theorem toOption_toDigit (c : Char) (index : ℕ) :
    (toDigit decimals (unit c) index).toOption =
      (HexFile.toDigit (fun c => digit decimals (unit c)) c index).toOption := by
  rw [toDigit, HexFile.toDigit]
  by_cases h : digit decimals (unit c) = -1
  · rw [if_pos h, if_pos h]
    rfl
  · rw [if_neg h, if_neg h]
    rfl

theorem toOption_bind {ε ε' α β : Type} {x : Except ε α} {y : Except ε' α} {f : α → Except ε β}
    {g : α → Except ε' β} (hxy : x.toOption = y.toOption)
    (hfg : ∀ a, (f a).toOption = (g a).toOption) : (x >>= f).toOption = (y >>= g).toOption := by
  rcases x with _ | a
  · rcases y with _ | b
    · rfl
    · cases hxy
  · rcases y with _ | b
    · cases hxy
    · obtain rfl := Option.some.inj hxy
      exact hfg a

theorem toOption_decodeHexFrom (j : ℕ) (text : Text) :
    (decodeHexFrom decimals j (units text)).toOption =
      (HexFile.decodeHexFrom (fun c => digit decimals (unit c)) j text).toOption := by
  induction j, text using HexFile.decodeHexFrom.induct with
  | case1 j => rfl
  | case2 j c => exact toOption_bind (toOption_toDigit c j) fun _ => rfl
  | case3 j c c' text ih =>
    apply toOption_bind (toOption_toDigit c j)
    intro f
    apply toOption_bind (toOption_toDigit c' (j + 1))
    intro f'
    exact toOption_bind ih fun _ => rfl

/-- A text without supplementary characters has a code unit for each character, and is decoded as
they are. -/
theorem decodeHex_units (decimals : DecimalDigits) (text : Text) :
    (decodeHex decimals (units text)).toOption =
      (HexFile.decodeHex (fun c => digit decimals (unit c)) text).toOption := by
  rw [decodeHex, HexFile.decodeHex, units, List.length_map]
  by_cases hodd : text.length &&& 0x01 ≠ 0
  · rw [if_pos hodd, if_pos hodd]
    rfl
  · rw [if_neg hodd, if_neg hodd]
    exact toOption_decodeHexFrom 0 text

end HexFile.CodeUnits
