import JavaExamples.Common.CollectLoop
import JavaExamples.Outbox.HeaderCodec

/-!
# Headers through the Java codec

`HeadersConverter.decodeFromBase64` reads what `HeadersConverter.encodeBase64` wrote: a
`StringTokenizer` takes the lines apart and `String.split` takes a line apart at its colons. An
empty value leaves nothing behind the colon, and `split` drops it.

* `decodeBase64_encodeBase64_iff`: a header with a plain key survives iff its value is not empty.
* `roundTrips_iff`: a list of headers survives exactly when every value is non-empty and no key
  holds a colon or a line feed.
-/

namespace Outbox

/-- What the decoder may throw. -/
inductive DecodeException where
  | arrayIndexOutOfBounds
  | illegalArgument
deriving DecidableEq

deriving instance DecidableEq for Header

/-- `new RecordHeader(k, v)`. -/
def HeaderUtils.of (k : Text) (v : List UInt8) : Header := ⟨k, v⟩

/-- One header of the form `key:base64(value)`. -/
def HeaderConverter.decodeBase64 (encodedHeader : Text) : Except DecodeException Header :=
  match Text.split ':' encodedHeader with
  | [] => .error .arrayIndexOutOfBounds  -- `tokens[0]`
  | [_] => .error .arrayIndexOutOfBounds  -- `tokens[1]`
  | key :: value :: _ =>
    match Base64.decodeOptionalPadding value with
    | none => .error .illegalArgument
    | some value => .ok (HeaderUtils.of key value)

/-- The headers of a text, one a line. -/
def HeadersConverter.decodeFromBase64 : Option Text → Except DecodeException (List Header)
  | none => .ok []
  | some text =>
    if Text.isBlank text then .ok []
    else (Text.tokenize '\n' text).foldlM
      (fun headers token => return headers ++ [← HeaderConverter.decodeBase64 token]) []

/-- Decoding the encoded headers yields the same headers. -/
def RoundTrips (headers : List Header) : Prop :=
  HeadersConverter.decodeFromBase64 (HeadersConverter.encodeBase64 (some headers)) = .ok headers

instance (headers : List Header) : Decidable (RoundTrips headers) :=
  inferInstanceAs (Decidable (_ = _))

/-! ## One header -/

variable {header : Header} {headers : List Header} {token : Text}

/-- The key of a decoded header is a piece of the token, without colons. -/
theorem key_of_decodeBase64 (h : HeaderConverter.decodeBase64 token = .ok header) :
    ':' ∉ header.key ∧ header.key ⊆ token := by
  rw [HeaderConverter.decodeBase64] at h
  split at h
  · cases h
  · cases h
  · next key value rest hsplit =>
    split at h
    · cases h
    · obtain rfl := Except.ok.inj h
      exact Text.notMem_and_subset_of_mem_split (hsplit ▸ List.mem_cons_self)

theorem notMem_encode {c : Char} (hc : ¬Base64.IsBase64Char c) (bs : List UInt8) :
    c ∉ Base64.encode bs :=
  fun hmem => hc (Base64.isBase64Char_of_mem_encode hmem)

/-- A header whose key has no colon is decoded to itself, unless its value is empty. -/
theorem decodeBase64_encodeBase64_iff (hkey : ':' ∉ header.key) :
    HeaderConverter.decodeBase64 (HeaderConverter.encodeBase64 header) = .ok header ↔
      header.value ≠ [] := by
  constructor
  · intro h hvalue
    -- the split has at most one part, so that there is no `tokens[1]`
    have hlength := Text.length_split_append_singleton hkey
    rw [HeaderConverter.decodeBase64, HeaderConverter.encodeBase64, hvalue] at h
    rw [show Base64.encode [] = [] from rfl] at h
    split at h
    · cases h
    · cases h
    · next hsplit =>
      rw [hsplit] at hlength
      simp at hlength
  · intro hvalue
    have hsplit := Text.split_append_cons hkey (notMem_encode (c := ':') (by decide) header.value)
      (Base64.encode_ne_nil hvalue)
    simp only [HeaderConverter.decodeBase64, HeaderConverter.encodeBase64, hsplit,
      Base64.decodeOptionalPadding_encode]
    rfl

/-! ## All headers -/

/-- The encoded text is blank only if it is empty: every line has a colon. -/
theorem isBlank_encoded_iff :
    Text.isBlank (headers.flatMap fun header =>
      HeaderConverter.encodeBase64 header ++ HeadersConverter.HEADER_DELIMITER) ↔
      headers = [] := by
  constructor
  · intro hblank
    cases headers with
    | nil => rfl
    | cons header headers =>
      rw [Text.isBlank, List.all_eq_true] at hblank
      have hcolon : Text.isWhitespace ':' := hblank ':' (by simp [HeaderConverter.encodeBase64])
      exact absurd hcolon (by decide)
  · rintro rfl
    rfl

/-- The headers survive iff the tokens of their text decode to them, one by one. -/
theorem roundTrips_iff_forall₂ :
    RoundTrips headers ↔
      List.Forall₂ (fun token header => HeaderConverter.decodeBase64 token = .ok header)
        (Text.tokenize '\n' (headers.flatMap fun header =>
          HeaderConverter.encodeBase64 header ++ HeadersConverter.HEADER_DELIMITER)) headers := by
  rw [RoundTrips, encodeBase64_some, HeadersConverter.decodeFromBase64]
  split
  · next hblank =>
    obtain rfl := isBlank_encoded_iff.mp hblank
    exact iff_of_true rfl .nil
  · rw [CollectLoop.foldlM_append_eq_ok]
    constructor
    · rintro ⟨zs, hzs, hdecoded⟩
      obtain rfl : headers = zs := hzs
      exact hdecoded
    · exact fun hdecoded => ⟨headers, rfl, hdecoded⟩

/-- A key that the two separators of the format do not break up. -/
def IsPlainKey (key : Text) : Prop := ':' ∉ key ∧ '\n' ∉ key

instance (key : Text) : Decidable (IsPlainKey key) := inferInstanceAs (Decidable (_ ∧ _))

/-- Behind plain keys, every line of the text is a token. -/
theorem tokenize_encoded (h : ∀ header ∈ headers, IsPlainKey header.key) :
    Text.tokenize '\n' (headers.flatMap fun header =>
        HeaderConverter.encodeBase64 header ++ HeadersConverter.HEADER_DELIMITER) =
      headers.map HeaderConverter.encodeBase64 := by
  apply Text.tokenize_flatMap
  intro header hheader
  refine ⟨by simp [HeaderConverter.encodeBase64], fun hmem => ?_⟩
  rw [HeaderConverter.encodeBase64, List.mem_append, List.mem_cons] at hmem
  rcases hmem with hkey | hcolon | hvalue
  · exact (h header hheader).2 hkey
  · exact absurd hcolon (by decide)
  · exact notMem_encode (c := '\n') (by decide) header.value hvalue

/-- With plain keys, the headers survive one by one. -/
theorem roundTrips_iff_of_isPlainKey (h : ∀ header ∈ headers, IsPlainKey header.key) :
    RoundTrips headers ↔ ∀ header ∈ headers, header.value ≠ [] := by
  rw [roundTrips_iff_forall₂, tokenize_encoded h, List.forall₂_map_left_iff, List.forall₂_same]
  constructor
  · intro hdecoded header hheader
    exact (decodeBase64_encodeBase64_iff (h header hheader).1).mp (hdecoded header hheader)
  · intro hvalue header hheader
    exact (decodeBase64_encodeBase64_iff (h header hheader).1).mpr (hvalue header hheader)

/-- A decoder that gets through returns plain keys only. -/
theorem isPlainKey_of_roundTrips (h : RoundTrips headers) :
    ∀ header ∈ headers, IsPlainKey header.key := by
  intro header hheader
  obtain ⟨i, hi, rfl⟩ := List.getElem_of_mem hheader
  have hdecoded := roundTrips_iff_forall₂.mp h
  have hi' := hdecoded.length_eq ▸ hi
  obtain ⟨hcolon, hsub⟩ := key_of_decodeBase64 (hdecoded.get hi' hi)
  -- the token was a line, and the key is a piece of it
  have hline := Text.notMem_of_mem_tokenize (List.get_mem _ ⟨i, hi'⟩)
  exact ⟨hcolon, fun hmem => hline (hsub hmem)⟩

/-- A list of headers survives encoding and decoding exactly when no value is empty and no key holds
a colon or a line feed. -/
theorem roundTrips_iff (headers : List Header) :
    RoundTrips headers ↔ ∀ header ∈ headers, header.value ≠ [] ∧ IsPlainKey header.key := by
  constructor
  · intro h header hheader
    have hplain := isPlainKey_of_roundTrips h
    exact ⟨(roundTrips_iff_of_isPlainKey hplain).mp h header hheader, hplain header hheader⟩
  · intro h
    have hplain : ∀ header ∈ headers, IsPlainKey header.key := fun header hheader =>
      (h header hheader).2
    exact (roundTrips_iff_of_isPlainKey hplain).mpr fun header hheader => (h header hheader).1

/-- A header with an empty value ends the decoder with an exception. -/
theorem not_roundTrips_emptyValue :
    ¬∀ headers : List Header, (∀ header ∈ headers, header.key ≠ []) →
      HeadersConverter.decodeFromBase64 (HeadersConverter.encodeBase64 (some headers)) =
        .ok headers := by
  intro hclaim
  have hthrown : HeadersConverter.decodeFromBase64
      (HeadersConverter.encodeBase64 (some [⟨['a'], []⟩])) =
      .error .arrayIndexOutOfBounds := by decide
  rw [hclaim [⟨['a'], []⟩] (by simp)] at hthrown
  cases hthrown

end Outbox
