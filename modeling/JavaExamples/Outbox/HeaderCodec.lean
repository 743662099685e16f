import Mathlib.Data.List.AList
import JavaExamples.Common.Base64
import JavaExamples.Common.Text

/-!
# Kafka headers as text

The `txt_headers` column of an outbox record is written by the Java encoder
(`HeadersConverter.encodeBase64`, `HeaderConverter.encodeBase64`) and read by the Go decoder
(`DecodeHeadersFromBase64`, `decodeBase64`). A header is `key:base64(value)` on both sides. The
encoder ends each header with a line feed, the decoder expects semicolons between headers.

* `decodeHeadersFromBase64_encodeBase64_iff`: decoding an encoded list gives back its headers
  exactly when the list has at most one.
-/

namespace Outbox

/-- An `org.apache.kafka.common.header.Header`. -/
structure Header where
  key : Text
  value : List UInt8

/-- A Go `map[string][]byte`. -/
abbrev HeaderMap := AList fun _ : Text => List UInt8

/-! ## The Java encoder -/

namespace HeaderConverter

/-- `String.format("%s:%s", header.key(), Base64.getEncoder().encodeToString(header.value()))`. -/
def encodeBase64 (header : Header) : Text :=
  header.key ++ ':' :: Base64.encode header.value

end HeaderConverter

namespace HeadersConverter

def HEADER_DELIMITER : Text := ['\n']

/-- The encoder of `HeadersConverter`, `null` on `null`. -/
def encodeBase64 : Option (List Header) → Option Text
  | none => none
  | some headers =>
    some (headers.foldl
      (fun sb header => sb ++ HeaderConverter.encodeBase64 header ++ HEADER_DELIMITER) [])

end HeadersConverter

/-! ## The Go decoder -/

namespace ProducerRecord

def HEADER_DELIMITER : Char := ';'

/-- The key and value of one encoded header; `nil` stands for a value that is not base64. -/
def decodeBase64 (encodedHeader : Text) : Text × Option (List UInt8) :=
  match Text.cut ':' encodedHeader with
  | none => ([], none)
  | some (key, encoded) =>
    match Base64.decode encoded with
    | none => (key, none)
    | some decoded => (key, some decoded)

/-- The loop body of `DecodeHeadersFromBase64`. -/
def decodeToken (headers : HeaderMap) (token : Text) : HeaderMap :=
  let token := Text.trimSpace token
  if token = [] then headers
  else
    match decodeBase64 token with
    -- a token without a key, or whose value is not base64, is skipped without an error
    | (key, some value) => if key ≠ [] then headers.insert key value else headers
    | (_, none) => headers

/-- The header map of a text; tokens that do not decode are dropped. -/
def DecodeHeadersFromBase64 (text : Text) : HeaderMap :=
  if Text.trimSpace text = [] then ∅
  else (text.splitOn HEADER_DELIMITER).foldl decodeToken ∅

end ProducerRecord

/-! ## Agreement of the two -/

/-- A character that may stand in a header key: letters, digits, `-` and `_` are such, and in
general everything but the two delimiters of the decoder and white space. -/
def IsKeyChar (c : Char) : Prop := c ≠ ':' ∧ c ≠ ';' ∧ Text.isSpace c = false

/-- A non-empty key of such characters. -/
def IsHeaderKey (key : Text) : Prop := key ≠ [] ∧ ∀ c ∈ key, IsKeyChar c

/-- The value of the last header with this key. -/
def lastValue (headers : List Header) (key : Text) : Option (List UInt8) :=
  (headers.reverse.find? fun header => header.key = key).map Header.value

/-- The decoder reads the encoder's text of `headers` back as the map from each key to the value
of its last occurrence. -/
def ReadsBack (headers : List Header) : Prop :=
  ∃ text, HeadersConverter.encodeBase64 (some headers) = some text ∧
    ∀ key, (ProducerRecord.DecodeHeadersFromBase64 text).lookup key = lastValue headers key

section Characters

/-- ASCII letters, digits, `-` and `_` may stand in a key. -/
theorem isKeyChar_of_isAlphanum {c : Char} (h : c.isAlphanum ∨ c = '-' ∨ c = '_') :
    IsKeyChar c := by
  rcases h with h | rfl | rfl
  · have hrange : (48 ≤ c.toNat ∧ c.toNat ≤ 57) ∨ (65 ≤ c.toNat ∧ c.toNat ≤ 90) ∨
        (97 ≤ c.toNat ∧ c.toNat ≤ 122) := by
      delta Char.isAlphanum Char.isAlpha Char.isUpper Char.isLower Char.isDigit at h
      simp only [Bool.or_eq_true, Bool.and_eq_true, decide_eq_true_eq, ge_iff_le,
        UInt32.le_iff_toNat_le] at h
      change ((65 ≤ c.toNat ∧ c.toNat ≤ 90) ∨ (97 ≤ c.toNat ∧ c.toNat ≤ 122)) ∨
        (48 ≤ c.toNat ∧ c.toNat ≤ 57) at h
      tauto
    -- neither delimiter and no white space lies in these ranges
    refine ⟨?_, ?_, ?_⟩
    · rintro rfl
      revert hrange
      decide
    · rintro rfl
      revert hrange
      decide
    · simp only [Text.isSpace, Bool.or_eq_false_iff, Bool.and_eq_false_iff, beq_eq_false_iff_ne,
        decide_eq_false_iff_not]
      omega
  · exact ⟨by decide, by decide, by decide⟩
  · exact ⟨by decide, by decide, by decide⟩

theorem isSpace_of_isBase64Char {c : Char} (h : Base64.IsBase64Char c) :
    Text.isSpace c = false := by
  by_contra hspace
  rw [Bool.not_eq_false] at hspace
  -- white space is outside of all ranges of the alphabet, and the padding is not white space
  have hnone : Base64.decodeSextet c = none := by
    simp only [Text.isSpace, Bool.or_eq_true, Bool.and_eq_true, decide_eq_true_eq,
      beq_iff_eq] at hspace
    have hplus : c ≠ '+' := by rintro rfl; revert hspace; decide
    have hslash : c ≠ '/' := by rintro rfl; revert hspace; decide
    unfold Base64.decodeSextet
    rw [if_neg (by omega), if_neg (by omega), if_neg (by omega), if_neg hplus, if_neg hslash]
  rcases h with h | rfl
  · rw [hnone] at h
    cases h
  · revert hspace
    decide

theorem ne_semicolon_of_isBase64Char {c : Char} (h : Base64.IsBase64Char c) : c ≠ ';' := by
  rintro rfl
  revert h
  decide

end Characters

/-- The encoder's text, as a concatenation of its lines. -/
theorem encodeBase64_some (headers : List Header) :
    HeadersConverter.encodeBase64 (some headers) =
      some (headers.flatMap fun header =>
        HeaderConverter.encodeBase64 header ++ HeadersConverter.HEADER_DELIMITER) := by
  -- for any text that the builder already holds
  have hfold : ∀ (sb : Text), headers.foldl (fun sb header =>
      sb ++ HeaderConverter.encodeBase64 header ++ HeadersConverter.HEADER_DELIMITER) sb =
      sb ++ headers.flatMap fun header =>
        HeaderConverter.encodeBase64 header ++ HeadersConverter.HEADER_DELIMITER := by
    induction headers with
    | nil => simp
    | cons header headers ih =>
      intro sb
      rw [List.foldl_cons, ih, List.flatMap_cons]
      simp only [List.append_assoc]
  rw [HeadersConverter.encodeBase64, hfold, List.nil_append]

/-- No encoded header holds the decoder's delimiter. -/
theorem semicolon_notMem_encodeBase64 {header : Header} (h : IsHeaderKey header.key) :
    ';' ∉ HeaderConverter.encodeBase64 header := by
  intro hmem
  simp only [HeaderConverter.encodeBase64, List.mem_append, List.mem_cons] at hmem
  rcases hmem with hkey | hcolon | hvalue
  · exact (h.2 _ hkey).2.1 rfl
  · revert hcolon
    decide
  · exact ne_semicolon_of_isBase64Char (Base64.isBase64Char_of_mem_encode hvalue) rfl

/-- The whole encoded text is one token of the decoder. -/
theorem splitOn_encodeBase64 {headers : List Header}
    (hkeys : ∀ header ∈ headers, IsHeaderKey header.key) :
    (headers.flatMap fun header =>
        HeaderConverter.encodeBase64 header ++ HeadersConverter.HEADER_DELIMITER).splitOn
      ProducerRecord.HEADER_DELIMITER =
      [headers.flatMap fun header =>
        HeaderConverter.encodeBase64 header ++ HeadersConverter.HEADER_DELIMITER] := by
  apply List.splitOn_eq_singleton
  intro hmem
  obtain ⟨header, hheader, hmem⟩ := List.mem_flatMap.mp hmem
  rcases List.mem_append.mp hmem with hmem | hmem
  · exact semicolon_notMem_encodeBase64 (hkeys header hheader) hmem
  · revert hmem
    decide

/-- What the decoder makes of a text that is a single token `key:rest`. -/
theorem decodeHeaders_single_token {key rest : Text} (hkey : IsHeaderKey key)
    (hsplit : (key ++ ':' :: rest).splitOn ProducerRecord.HEADER_DELIMITER =
      [key ++ ':' :: rest]) :
    ProducerRecord.DecodeHeadersFromBase64 (key ++ ':' :: rest) =
      match Base64.decode (rest.rdropWhile Text.isSpace) with
      | some value => (∅ : HeaderMap).insert key value
      | none => ∅ := by
  have htrim : Text.trimSpace (key ++ ':' :: rest) =
      key ++ ':' :: rest.rdropWhile Text.isSpace :=
    Text.trimSpace_append_cons (fun c hc => (hkey.2 c hc).2.2) (by decide)
  have hcut : Text.cut ':' (key ++ ':' :: rest.rdropWhile Text.isSpace) =
      some (key, rest.rdropWhile Text.isSpace) :=
    Text.cut_append_cons fun hmem => (hkey.2 _ hmem).1 rfl
  rw [ProducerRecord.DecodeHeadersFromBase64, htrim, if_neg (by simp), hsplit, List.foldl_cons,
    List.foldl_nil, ProducerRecord.decodeToken, htrim]
  simp only [List.append_eq_nil_iff, reduceCtorEq, and_false, ↓reduceIte,
    ProducerRecord.decodeBase64, hcut]
  cases Base64.decode (rest.rdropWhile Text.isSpace) with
  | none => rfl
  | some value => simp [hkey.1]

/-- A list of one header is read back. -/
theorem readsBack_singleton {header : Header} (hkey : IsHeaderKey header.key) :
    ReadsBack [header] := by
  refine ⟨_, encodeBase64_some [header], fun key => ?_⟩
  have hkeys : ∀ other ∈ [header], IsHeaderKey other.key := by simpa using hkey
  have hsplit := splitOn_encodeBase64 hkeys
  have hform : ([header].flatMap fun header =>
      HeaderConverter.encodeBase64 header ++ HeadersConverter.HEADER_DELIMITER) =
      header.key ++ ':' :: (Base64.encode header.value ++ ['\n']) := by
    simp [HeaderConverter.encodeBase64, HeadersConverter.HEADER_DELIMITER]
  -- trimming takes the line feed off again, and nothing else: base64 has no white space
  have hvalue : (Base64.encode header.value ++ ['\n']).rdropWhile Text.isSpace =
      Base64.encode header.value := by
    rw [List.rdropWhile_concat_pos _ _ _ (by decide)]
    exact Text.rdropWhile_eq_self fun c hc =>
      isSpace_of_isBase64Char (Base64.isBase64Char_of_mem_encode hc)
  rw [hform] at hsplit ⊢
  rw [decodeHeaders_single_token hkey hsplit, hvalue, Base64.decode_encode]
  show ((∅ : HeaderMap).insert header.key header.value).lookup key = lastValue [header] key
  by_cases hk : header.key = key
  · subst hk
    rw [AList.lookup_insert]
    simp [lastValue]
  · rw [AList.lookup_insert_ne (Ne.symm hk), AList.lookup_empty]
    simp [lastValue, hk]

/-- With two headers or more, the decoder drops the text as a whole: it takes everything after the
first `:` for one value, and the next header's `:` is not base64. -/
theorem decodeHeaders_cons_cons {first second : Header} {headers : List Header}
    (hkeys : ∀ header ∈ first :: second :: headers, IsHeaderKey header.key) :
    ProducerRecord.DecodeHeadersFromBase64
      ((first :: second :: headers).flatMap fun header =>
        HeaderConverter.encodeBase64 header ++ HeadersConverter.HEADER_DELIMITER) = ∅ := by
  have hsplit := splitOn_encodeBase64 hkeys
  have hfirst : IsHeaderKey first.key := hkeys first List.mem_cons_self
  -- everything after the first colon, up to the second header's colon and from there on
  let before := Base64.encode first.value ++ '\n' :: second.key
  let after := Base64.encode second.value ++ '\n' :: headers.flatMap fun header =>
    HeaderConverter.encodeBase64 header ++ HeadersConverter.HEADER_DELIMITER
  have hform : ((first :: second :: headers).flatMap fun header =>
      HeaderConverter.encodeBase64 header ++ HeadersConverter.HEADER_DELIMITER) =
      first.key ++ ':' :: (before ++ ':' :: after) := by
    simp [before, after, HeaderConverter.encodeBase64, HeadersConverter.HEADER_DELIMITER]
  -- trimming stops behind the second colon, so that the colon stays in the value
  have hdecode : Base64.decode ((before ++ ':' :: after).rdropWhile Text.isSpace) = none := by
    rw [Text.rdropWhile_append_cons (by decide)]
    exact Base64.decode_eq_none_of_mem (c := ':') (by simp) (by decide) (by decide) (by decide)
  rw [hform] at hsplit ⊢
  rw [decodeHeaders_single_token hfirst hsplit, hdecode]

/-- Decoding what was encoded gives the headers back exactly when there is at most one. -/
theorem decodeHeadersFromBase64_encodeBase64_iff (headers : List Header)
    (hkeys : ∀ header ∈ headers, IsHeaderKey header.key) :
    ReadsBack headers ↔ headers.length ≤ 1 := by
  match headers, hkeys with
  | [], _ =>
    refine ⟨fun _ => Nat.zero_le _, fun _ => ⟨[], rfl, fun key => rfl⟩⟩
  | [header], hkeys =>
    refine ⟨fun _ => Nat.le_refl _, fun _ => readsBack_singleton (hkeys header (by simp))⟩
  | first :: second :: headers, hkeys =>
    refine ⟨?_, fun hlen => absurd hlen (by simp)⟩
    rintro ⟨text, htext, hlookup⟩
    rw [encodeBase64_some, Option.some.injEq] at htext
    -- the empty map cannot give the first key a value
    have hnone := hlookup first.key
    rw [← htext, decodeHeaders_cons_cons hkeys, AList.lookup_empty, lastValue, eq_comm,
      Option.map_eq_none_iff, List.find?_eq_none] at hnone
    exact absurd (hnone first (by simp)) (by simp)

/-- Two headers, `a` and `b`, with one-byte values. -/
def twoHeaders : List Header := [⟨['a'], [1]⟩, ⟨['b'], [2]⟩]

theorem decodeHeadersFromBase64_encodeBase64_iff_twoHeaders :
    (∀ header ∈ twoHeaders, IsHeaderKey header.key) ∧
      (ReadsBack twoHeaders ↔ twoHeaders.length ≤ 1) := by
  have hkeys : ∀ header ∈ twoHeaders, IsHeaderKey header.key := by
    intro header hheader
    simp only [twoHeaders, List.mem_cons, List.not_mem_nil, or_false] at hheader
    rcases hheader with rfl | rfl
    · exact ⟨by simp, by simpa using isKeyChar_of_isAlphanum (by decide)⟩
    · exact ⟨by simp, by simpa using isKeyChar_of_isAlphanum (by decide)⟩
  exact ⟨hkeys, decodeHeadersFromBase64_encodeBase64_iff twoHeaders hkeys⟩

/-- The decoder returns no header at all for `a:AQ==` and `b:Ag==`. -/
theorem not_readsBack_twoHeaders : ¬ReadsBack twoHeaders := by
  rintro ⟨text, htext, hlookup⟩
  obtain rfl := Option.some.inj htext
  have hnone := hlookup ['a']
  revert hnone
  decide

end Outbox
