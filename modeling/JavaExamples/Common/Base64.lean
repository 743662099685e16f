import Mathlib.Data.List.Basic
import Mathlib.Tactic.Common

/-!
# Base64

The standard padded alphabet, on bytes and characters.

* `encode` — three bytes become four characters, the last group is padded with `=`.
* `decodeQuanta` — the decoder on text without line breaks; it rejects any other character outside
  the alphabet and any misplaced padding, and does not look at the bits the padding leaves over.
* `decode` — `decodeQuanta` on the text without its `\r` and `\n`.
* `decodeOptionalPadding` — `decodeQuanta`, but the padding of the last group may be left out.

Main results: `decode_encode` (round trip), `isBase64Char_of_mem_encode` (the encoder stays in its
alphabet) and `isBase64Char_of_decode` (the decoder accepts nothing outside it).
-/

namespace Base64

/-! ## Sextets -/

/-- The character of the 6-bit value `n`. -/
def encodeSextet (n : ℕ) : Char :=
  if n < 26 then Char.ofNat (65 + n)
  else if n < 52 then Char.ofNat (97 + (n - 26))
  else if n < 62 then Char.ofNat (48 + (n - 52))
  else if n = 62 then '+'
  else '/'

/-- The 6-bit value of a character of the alphabet. -/
def decodeSextet (c : Char) : Option ℕ :=
  if 65 ≤ c.toNat ∧ c.toNat ≤ 90 then some (c.toNat - 65)
  else if 97 ≤ c.toNat ∧ c.toNat ≤ 122 then some (c.toNat - 97 + 26)
  else if 48 ≤ c.toNat ∧ c.toNat ≤ 57 then some (c.toNat - 48 + 52)
  else if c = '+' then some 62
  else if c = '/' then some 63
  else none

/-- A character that base64 text is made of: one of the alphabet, or the padding. -/
def IsBase64Char (c : Char) : Prop := (decodeSextet c).isSome ∨ c = '='

instance (c : Char) : Decidable (IsBase64Char c) := by
  unfold IsBase64Char
  infer_instance

/-- A sextet is recovered from its character. -/
theorem decodeSextet_encodeSextet {n : ℕ} (h : n < 64) :
    decodeSextet (encodeSextet n) = some n := by
  have hall : ∀ m < 64, decodeSextet (encodeSextet m) = some m := by decide
  exact hall n h

theorem encodeSextet_ne_pad {n : ℕ} (h : n < 64) : encodeSextet n ≠ '=' := by
  intro heq
  have hdec := decodeSextet_encodeSextet h
  rw [heq] at hdec
  cases hdec

theorem isBase64Char_encodeSextet {n : ℕ} (h : n < 64) : IsBase64Char (encodeSextet n) := by
  left
  rw [decodeSextet_encodeSextet h]
  rfl

theorem isBase64Char_pad : IsBase64Char '=' := Or.inr rfl

/-! ## Encoding -/

/-- The 24-bit value of three bytes. -/
def quantum (a b c : UInt8) : ℕ := a.toNat * 65536 + b.toNat * 256 + c.toNat

/-- Base64 text of a byte string. -/
def encode : List UInt8 → List Char
  | [] => []
  | [a] =>
    [encodeSextet (quantum a 0 0 / 262144), encodeSextet (quantum a 0 0 / 4096 % 64), '=', '=']
  | [a, b] =>
    [encodeSextet (quantum a b 0 / 262144), encodeSextet (quantum a b 0 / 4096 % 64),
      encodeSextet (quantum a b 0 / 64 % 64), '=']
  | a :: b :: c :: rest =>
    encodeSextet (quantum a b c / 262144) :: encodeSextet (quantum a b c / 4096 % 64) ::
      encodeSextet (quantum a b c / 64 % 64) :: encodeSextet (quantum a b c % 64) :: encode rest

theorem quantum_lt (a b c : UInt8) : quantum a b c < 64 * 262144 := by
  have ha := a.toNat_lt
  have hb := b.toNat_lt
  have hc := c.toNat_lt
  unfold quantum
  omega

theorem quantum_div_lt (a b c : UInt8) : quantum a b c / 262144 < 64 :=
  Nat.div_lt_of_lt_mul (by have := quantum_lt a b c; omega)

/-- The encoder stays in its alphabet. -/
theorem isBase64Char_of_mem_encode {bs : List UInt8} {c : Char} (h : c ∈ encode bs) :
    IsBase64Char c := by
  induction bs using encode.induct with
  | case1 => cases h
  | case2 a =>
    simp only [encode, List.mem_cons, List.not_mem_nil, or_false] at h
    rcases h with rfl | rfl | rfl | rfl
    · exact isBase64Char_encodeSextet (quantum_div_lt a 0 0)
    · exact isBase64Char_encodeSextet (Nat.mod_lt _ (by decide))
    · exact isBase64Char_pad
    · exact isBase64Char_pad
  | case3 a b =>
    simp only [encode, List.mem_cons, List.not_mem_nil, or_false] at h
    rcases h with rfl | rfl | rfl | rfl
    · exact isBase64Char_encodeSextet (quantum_div_lt a b 0)
    · exact isBase64Char_encodeSextet (Nat.mod_lt _ (by decide))
    · exact isBase64Char_encodeSextet (Nat.mod_lt _ (by decide))
    · exact isBase64Char_pad
  | case4 a b d rest ih =>
    simp only [encode, List.mem_cons] at h
    rcases h with rfl | rfl | rfl | rfl | h
    · exact isBase64Char_encodeSextet (quantum_div_lt a b d)
    · exact isBase64Char_encodeSextet (Nat.mod_lt _ (by decide))
    · exact isBase64Char_encodeSextet (Nat.mod_lt _ (by decide))
    · exact isBase64Char_encodeSextet (Nat.mod_lt _ (by decide))
    · exact ih h

/-! ## Decoding -/

/-- The first `k` of the three bytes that four sextets stand for. -/
def bytesOfSextets (k s₀ s₁ s₂ s₃ : ℕ) : List UInt8 :=
  let n := s₀ * 262144 + s₁ * 4096 + s₂ * 64 + s₃
  [UInt8.ofNat (n / 65536), UInt8.ofNat (n / 256 % 256), UInt8.ofNat (n % 256)].take k

/-- The group in front of the end of the text whose last character is the padding. -/
def decodeLastQuantum (c₀ c₁ c₂ : Char) : Option (List UInt8) := do
  let s₀ ← decodeSextet c₀
  let s₁ ← decodeSextet c₁
  if c₂ = '=' then
    return bytesOfSextets 1 s₀ s₁ 0 0
  let s₂ ← decodeSextet c₂
  return bytesOfSextets 2 s₀ s₁ s₂ 0

/-- Decode text that has no line breaks, group by group. -/
def decodeQuanta : List Char → Option (List UInt8)
  | [] => some []
  | c₀ :: c₁ :: c₂ :: c₃ :: rest =>
    if c₃ = '=' then
      if rest = [] then decodeLastQuantum c₀ c₁ c₂ else none
    else do
      let s₀ ← decodeSextet c₀
      let s₁ ← decodeSextet c₁
      let s₂ ← decodeSextet c₂
      let s₃ ← decodeSextet c₃
      let bytes ← decodeQuanta rest
      return bytesOfSextets 3 s₀ s₁ s₂ s₃ ++ bytes
  | _ => none

/-- Decode text, skipping its line breaks. -/
def decode (text : List Char) : Option (List UInt8) :=
  decodeQuanta (text.filter fun c => c ≠ '\r' ∧ c ≠ '\n')

/-- Decode text that has no line breaks, where a last group of two or three characters may lack its
padding, but not half of it. -/
def decodeOptionalPadding : List Char → Option (List UInt8)
  | [] => some []
  | [c₀, c₁] => decodeLastQuantum c₀ c₁ '='
  | [c₀, c₁, c₂] => if c₂ = '=' then none else decodeLastQuantum c₀ c₁ c₂
  | c₀ :: c₁ :: c₂ :: c₃ :: rest =>
    if c₃ = '=' then
      if rest = [] then decodeLastQuantum c₀ c₁ c₂ else none
    else do
      let s₀ ← decodeSextet c₀
      let s₁ ← decodeSextet c₁
      let s₂ ← decodeSextet c₂
      let s₃ ← decodeSextet c₃
      let bytes ← decodeOptionalPadding rest
      return bytesOfSextets 3 s₀ s₁ s₂ s₃ ++ bytes
  | _ => none

/-! ## Round trip -/

/-- The sextets of a 24-bit value add up to it. -/
private theorem sextets_eq {n : ℕ} :
    n / 262144 * 262144 + n / 4096 % 64 * 4096 + n / 64 % 64 * 64 + n % 64 = n := by
  omega

private theorem ofNat_quantum_div_65536 (a b c : UInt8) :
    UInt8.ofNat (quantum a b c / 65536) = a := by
  have hb := b.toNat_lt
  have hc := c.toNat_lt
  have h : quantum a b c / 65536 = a.toNat := by unfold quantum; omega
  rw [h, UInt8.ofNat_toNat]

private theorem ofNat_quantum_div_256 (a b c : UInt8) :
    UInt8.ofNat (quantum a b c / 256 % 256) = b := by
  have hb := b.toNat_lt
  have hc := c.toNat_lt
  have h : quantum a b c / 256 % 256 = b.toNat := by unfold quantum; omega
  rw [h, UInt8.ofNat_toNat]

private theorem ofNat_quantum_mod_256 (a b c : UInt8) :
    UInt8.ofNat (quantum a b c % 256) = c := by
  have hc := c.toNat_lt
  have h : quantum a b c % 256 = c.toNat := by unfold quantum; omega
  rw [h, UInt8.ofNat_toNat]

/-- The bytes of a quantum are recovered from its sextets. -/
theorem bytesOfSextets_quantum (k : ℕ) (a b c : UInt8) :
    bytesOfSextets k (quantum a b c / 262144) (quantum a b c / 4096 % 64)
      (quantum a b c / 64 % 64) (quantum a b c % 64) = [a, b, c].take k := by
  unfold bytesOfSextets
  simp only [sextets_eq, ofNat_quantum_div_65536, ofNat_quantum_div_256, ofNat_quantum_mod_256]

/-- Decoding inverts encoding, group by group. -/
theorem decodeQuanta_encode (bs : List UInt8) : decodeQuanta (encode bs) = some bs := by
  induction bs using encode.induct with
  | case1 => rfl
  | case2 a =>
    -- the last two sextets are zero: they stand for bytes that are not there
    have h₂ : quantum a 0 0 / 64 % 64 = 0 := by simp [quantum]; omega
    have h₃ : quantum a 0 0 % 64 = 0 := by simp [quantum]; omega
    have hbytes := bytesOfSextets_quantum 1 a 0 0
    rw [h₂, h₃] at hbytes
    simp [encode, decodeQuanta, decodeLastQuantum, decodeSextet_encodeSextet (quantum_div_lt a 0 0),
      decodeSextet_encodeSextet (Nat.mod_lt (quantum a 0 0 / 4096) (by decide : 0 < 64)), hbytes]
  | case3 a b =>
    have h₃ : quantum a b 0 % 64 = 0 := by simp [quantum]; omega
    -- only the last character is the padding
    have hne := encodeSextet_ne_pad (Nat.mod_lt (quantum a b 0 / 64) (by decide : 0 < 64))
    have hbytes := bytesOfSextets_quantum 2 a b 0
    rw [h₃] at hbytes
    simp [encode, decodeQuanta, decodeLastQuantum, hne,
      decodeSextet_encodeSextet (quantum_div_lt a b 0),
      decodeSextet_encodeSextet (Nat.mod_lt (quantum a b 0 / 4096) (by decide : 0 < 64)),
      decodeSextet_encodeSextet (Nat.mod_lt (quantum a b 0 / 64) (by decide : 0 < 64)), hbytes]
  | case4 a b c rest ih =>
    -- no padding here, so that the group is a full one
    have hne := encodeSextet_ne_pad (Nat.mod_lt (quantum a b c) (by decide : 0 < 64))
    simp [encode, decodeQuanta, hne, ih, bytesOfSextets_quantum,
      decodeSextet_encodeSextet (quantum_div_lt a b c),
      decodeSextet_encodeSextet (Nat.mod_lt (quantum a b c / 4096) (by decide : 0 < 64)),
      decodeSextet_encodeSextet (Nat.mod_lt (quantum a b c / 64) (by decide : 0 < 64)),
      decodeSextet_encodeSextet (Nat.mod_lt (quantum a b c) (by decide : 0 < 64))]

/-- Decoding inverts encoding. -/
theorem decode_encode (bs : List UInt8) : decode (encode bs) = some bs := by
  have hfilter : (encode bs).filter (fun c => c ≠ '\r' ∧ c ≠ '\n') = encode bs := by
    refine List.filter_eq_self.mpr fun c hc => ?_
    have hchar := isBase64Char_of_mem_encode hc
    rw [decide_eq_true_iff]
    constructor <;> rintro rfl <;> revert hchar <;> decide
  rw [decode, hfilter, decodeQuanta_encode]

/-- Where the padding is there, it makes no difference that it might not be. -/
theorem decodeOptionalPadding_of_decodeQuanta {text : List Char} {bs : List UInt8}
    (h : decodeQuanta text = some bs) : decodeOptionalPadding text = some bs := by
  induction text using decodeQuanta.induct generalizing bs with
  | case1 => exact h
  | case2 c₀ c₁ c₂ => exact h
  | case3 c₀ c₁ c₂ rest hrest =>
    rw [decodeQuanta, if_pos rfl, if_neg hrest] at h
    cases h
  | case4 c₀ c₁ c₂ c₃ rest hne ih =>
    rw [decodeQuanta, if_neg hne] at h
    simp only [bind, Option.bind_eq_some_iff] at h
    obtain ⟨s₀, h₀, s₁, h₁, s₂, h₂, s₃, h₃, bytes, hbytes, hbs⟩ := h
    rw [decodeOptionalPadding, if_neg hne]
    simp only [bind, Option.bind_eq_some_iff]
    exact ⟨s₀, h₀, s₁, h₁, s₂, h₂, s₃, h₃, bytes, ih hbytes, hbs⟩
  | case5 text hnil hcons =>
    rw [decodeQuanta] at h
    · cases h
    · exact hnil
    · exact hcons

theorem decodeOptionalPadding_encode (bs : List UInt8) :
    decodeOptionalPadding (encode bs) = some bs :=
  decodeOptionalPadding_of_decodeQuanta (decodeQuanta_encode bs)

theorem encode_ne_nil {bs : List UInt8} (h : bs ≠ []) : encode bs ≠ [] := by
  intro hnil
  have hdec := decodeQuanta_encode bs
  rw [hnil] at hdec
  exact h (Option.some.inj hdec).symm

/-! ## What the decoder accepts -/

theorem isBase64Char_of_decodeSextet {c : Char} {n : ℕ} (h : decodeSextet c = some n) :
    IsBase64Char c := Or.inl (by rw [h]; rfl)

theorem isBase64Char_of_decodeLastQuantum {c₀ c₁ c₂ : Char} {bs : List UInt8}
    (h : decodeLastQuantum c₀ c₁ c₂ = some bs) :
    IsBase64Char c₀ ∧ IsBase64Char c₁ ∧ IsBase64Char c₂ := by
  simp only [decodeLastQuantum, bind, Option.bind_eq_some_iff] at h
  obtain ⟨s₀, h₀, s₁, h₁, h⟩ := h
  refine ⟨isBase64Char_of_decodeSextet h₀, isBase64Char_of_decodeSextet h₁, ?_⟩
  split at h
  next heq => exact heq ▸ isBase64Char_pad
  next =>
    simp only [Option.bind_eq_some_iff] at h
    obtain ⟨s₂, h₂, -⟩ := h
    exact isBase64Char_of_decodeSextet h₂

theorem isBase64Char_of_decodeQuanta {text : List Char} {bs : List UInt8}
    (h : decodeQuanta text = some bs) : ∀ c ∈ text, IsBase64Char c := by
  induction text using decodeQuanta.induct generalizing bs with
  | case1 => exact fun c hc => absurd hc List.not_mem_nil
  | case2 c₀ c₁ c₂ =>
    rw [decodeQuanta, if_pos rfl, if_pos rfl] at h
    obtain ⟨h₀, h₁, h₂⟩ := isBase64Char_of_decodeLastQuantum h
    simp only [List.mem_cons, List.not_mem_nil, or_false, forall_eq_or_imp, forall_eq]
    exact ⟨h₀, h₁, h₂, isBase64Char_pad⟩
  -- padding in front of more text is refused
  | case3 c₀ c₁ c₂ rest hrest =>
    rw [decodeQuanta, if_pos rfl, if_neg hrest] at h
    cases h
  | case4 c₀ c₁ c₂ c₃ rest hne ih =>
    rw [decodeQuanta, if_neg hne] at h
    simp only [bind, Option.bind_eq_some_iff] at h
    obtain ⟨s₀, h₀, s₁, h₁, s₂, h₂, s₃, h₃, bytes, hbytes, -⟩ := h
    simp only [List.mem_cons, forall_eq_or_imp]
    exact ⟨isBase64Char_of_decodeSextet h₀, isBase64Char_of_decodeSextet h₁,
      isBase64Char_of_decodeSextet h₂, isBase64Char_of_decodeSextet h₃, ih hbytes⟩
  -- so is a last group of fewer than four characters
  | case5 text hnil hcons =>
    rw [decodeQuanta] at h
    · cases h
    · exact hnil
    · exact hcons

/-- Apart from line breaks, the decoder accepts no character outside the alphabet. -/
theorem isBase64Char_of_decode {text : List Char} {bs : List UInt8} (h : decode text = some bs)
    {c : Char} (hc : c ∈ text) (hr : c ≠ '\r') (hn : c ≠ '\n') : IsBase64Char c := by
  refine isBase64Char_of_decodeQuanta h c (List.mem_filter.mpr ⟨hc, ?_⟩)
  rw [decide_eq_true_iff]
  exact ⟨hr, hn⟩

/-- Text with a character outside the alphabet, other than a line break, is rejected. -/
theorem decode_eq_none_of_mem {text : List Char} {c : Char} (hc : c ∈ text) (hr : c ≠ '\r')
    (hn : c ≠ '\n') (h : ¬IsBase64Char c) : decode text = none := by
  cases hdec : decode text with
  | none => rfl
  | some bs => exact absurd (isBase64Char_of_decode hdec hc hr hn) h

end Base64
