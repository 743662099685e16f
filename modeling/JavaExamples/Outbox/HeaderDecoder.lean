import JavaExamples.Outbox.HeaderCodec

/-!
# The Go header decoder, token by token

`DecodeHeadersFromBase64` splits its text at semicolons and folds `decodeToken` over the tokens.
Each token is `WellFormed` and stands for one entry, or `Malformed` and stands for none.

* `decodeToken_of_reads`: what a single token does to the map.
* `decodeHeaders_append`: decoding is a homomorphism from concatenation with a semicolon to
  overriding.
* `decodeHeaders_exact`: on tokens of the two kinds the decoder inserts the entries from left to
  right, and malformed tokens have no effect on the others.
-/

namespace Outbox.ProducerRecord

/-- The token is `key:b`, up to the white space around it, and `value` is what `b` decodes to. -/
def WellFormed (token key : Text) (value : List UInt8) : Prop :=
  (key ≠ [] ∧ ':' ∉ key ∧ ';' ∉ key ∧ Text.trimSpace key = key) ∧
    ∃ b, Text.trimSpace token = key ++ ':' :: b ∧ Base64.decode b = some value

/-- The token is not of the form `key:b`, or `b` is not base64. -/
inductive Malformed (token : Text) : Prop
  | blank (h : Text.trimSpace token = [])
  | withoutColon (h : ':' ∉ Text.trimSpace token)
  | emptyKey (b : Text) (h : Text.trimSpace token = ':' :: b)
  | rejected (key b : Text) (h : Text.trimSpace token = key ++ ':' :: b) (hkey : ':' ∉ key)
      (hb : Base64.decode b = none)

/-- The entry a token stands for, if any. -/
inductive Reads (token : Text) : Option (Text × List UInt8) → Prop
  | wellFormed {key : Text} {value : List UInt8} (h : WellFormed token key value) :
      Reads token (some (key, value))
  | malformed (h : Malformed token) : Reads token none

/-- The map after inserting the entries from left to right. -/
def insertAll (entries : List (Text × List UInt8)) : HeaderMap :=
  entries.foldl (fun headers entry => headers.insert entry.1 entry.2) ∅

variable {token key : Text} {value : List UInt8} {tokens : List Text} {headers : HeaderMap}

/-! ## One token -/

/-- A well formed token is inserted, also where its value is empty. -/
theorem decodeToken_of_wellFormed (h : WellFormed token key value) :
    decodeToken headers token = headers.insert key value := by
  obtain ⟨⟨hne, hcolon, -, -⟩, b, htrim, hb⟩ := h
  have hcut : Text.cut ':' (key ++ ':' :: b) = some (key, b) := Text.cut_append_cons hcolon
  have hnonempty : key ++ ':' :: b ≠ [] := by simp
  rw [decodeToken, htrim]
  simp only [if_neg hnonempty, decodeBase64, hcut, hb]
  rw [if_pos hne]

/-- A malformed token is skipped. -/
theorem decodeToken_of_malformed (h : Malformed token) : decodeToken headers token = headers := by
  rw [decodeToken]
  by_cases hempty : Text.trimSpace token = []
  · simp only [if_pos hempty]
  simp only [if_neg hempty, decodeBase64]
  -- the key is empty where there is no colon to cut at, the value is `nil` where it is no base64
  cases h with
  | blank h => exact absurd h hempty
  | withoutColon h => rw [Text.cut_eq_none h]
  | emptyKey b h =>
    have hcut : Text.cut ':' (Text.trimSpace token) = some ([], b) := by
      rw [h]
      rfl
    simp only [hcut]
    cases Base64.decode b with
    | none => rfl
    | some value => exact if_neg fun hne => hne rfl
  | rejected key b h hkey hb =>
    have hcut : Text.cut ':' (Text.trimSpace token) = some (key, b) := by
      rw [h]
      exact Text.cut_append_cons hkey
    simp only [hcut, hb]

/-- Any token either adds one entry, whatever the map, or leaves every map as it is. -/
theorem decodeToken_cases (token : Text) :
    (∀ headers, decodeToken headers token = headers) ∨
      ∃ key value, ∀ headers, decodeToken headers token = headers.insert key value := by
  by_cases hempty : Text.trimSpace token = []
  · exact Or.inl fun headers => decodeToken_of_malformed (.blank hempty)
  rcases hdecoded : decodeBase64 (Text.trimSpace token) with ⟨key, _ | value⟩
  · left
    intro headers
    simp only [decodeToken, if_neg hempty, hdecoded]
  · by_cases hkey : key = []
    · left
      intro headers
      simp only [decodeToken, if_neg hempty, hdecoded, hkey, ne_eq, not_true_eq_false, if_false]
    · right
      refine ⟨key, value, fun headers => ?_⟩
      simp only [decodeToken, if_neg hempty, hdecoded, ne_eq, hkey, not_false_eq_true, if_true]

/-! ## All tokens -/

/-- The early return for a blank text is no special case: its one token is blank. -/
theorem decodeHeaders_eq_foldl (text : Text) :
    DecodeHeadersFromBase64 text = (text.splitOn HEADER_DELIMITER).foldl decodeToken ∅ := by
  rw [DecodeHeadersFromBase64]
  split
  · next hblank =>
    have hdelimiter : HEADER_DELIMITER ∉ text := by
      intro hmem
      have hspace := Text.isSpace_of_trimSpace_eq_nil hblank hmem
      revert hspace
      decide
    rw [List.splitOn_eq_singleton hdelimiter, List.foldl_cons, List.foldl_nil,
      decodeToken_of_malformed (.blank hblank)]
  · rfl

/-- What is decoded later overrides what the map holds. -/
theorem lookup_foldl_decodeToken (headers : HeaderMap) (tokens : List Text) (key : Text) :
    (tokens.foldl decodeToken headers).lookup key =
      ((tokens.foldl decodeToken ∅).lookup key).or (headers.lookup key) := by
  induction tokens using List.reverseRecOn with
  | nil => rfl
  | append_singleton tokens token ih =>
    rw [List.foldl_concat, List.foldl_concat]
    rcases decodeToken_cases token with hskip | ⟨key', value, hinsert⟩
    · rw [hskip, hskip, ih]
    · rw [hinsert, hinsert]
      by_cases hkey : key = key'
      · subst hkey
        rw [AList.lookup_insert, AList.lookup_insert, Option.some_or]
      · rw [AList.lookup_insert_ne hkey, AList.lookup_insert_ne hkey, ih]

/-- Decoding two texts with a semicolon between them is decoding both, the second overriding. -/
theorem decodeHeaders_append (s t : Text) (key : Text) :
    (DecodeHeadersFromBase64 (s ++ HEADER_DELIMITER :: t)).lookup key =
      ((DecodeHeadersFromBase64 t).lookup key).or ((DecodeHeadersFromBase64 s).lookup key) := by
  rw [decodeHeaders_eq_foldl, decodeHeaders_eq_foldl, decodeHeaders_eq_foldl,
    List.splitOn_append_cons_self, List.foldl_append]
  exact lookup_foldl_decodeToken _ _ key

/-- `Option.or` on the values is union of the maps. -/
theorem lookup_union (left right : HeaderMap) (key : Text) :
    (left ∪ right).lookup key = (left.lookup key).or (right.lookup key) := by
  by_cases hleft : key ∈ left
  · rw [AList.lookup_union_left hleft]
    obtain ⟨value, hvalue⟩ := Option.isSome_iff_exists.mp (AList.lookup_isSome.mpr hleft)
    rw [hvalue, Option.some_or]
  · rw [AList.lookup_union_right hleft, AList.lookup_eq_none.mpr hleft, Option.none_or]

theorem decodeToken_of_reads {entry : Option (Text × List UInt8)} (h : Reads token entry) :
    decodeToken headers token =
      entry.toList.foldl (fun headers entry => headers.insert entry.1 entry.2) headers := by
  cases h with
  | wellFormed h => exact decodeToken_of_wellFormed h
  | malformed h => exact decodeToken_of_malformed h

/-- The fold over the tokens is the fold over their entries. -/
theorem foldl_decodeToken_of_reads {entries : List (Option (Text × List UInt8))}
    (h : List.Forall₂ Reads tokens entries) (headers : HeaderMap) :
    tokens.foldl decodeToken headers =
      entries.reduceOption.foldl (fun headers entry => headers.insert entry.1 entry.2) headers := by
  induction h generalizing headers with
  | nil => rfl
  | cons hread _ ih =>
    rw [List.foldl_cons, ih, decodeToken_of_reads hread]
    rename_i entry _ _ _
    cases entry with
    | none => rfl
    | some entry => rfl

/-- The decoder folds over any tokens that were joined with semicolons. -/
theorem decodeHeaders_join (hsep : ∀ token ∈ tokens, HEADER_DELIMITER ∉ token) :
    DecodeHeadersFromBase64 ([HEADER_DELIMITER].intercalate tokens) =
      tokens.foldl decodeToken ∅ := by
  by_cases hnil : tokens = []
  · subst hnil
    rfl
  · rw [decodeHeaders_eq_foldl, List.splitOn_intercalate HEADER_DELIMITER hsep hnil]

/-- A malformed token may be taken out of a join, wherever it stands. -/
theorem decodeHeaders_join_of_malformed {before after : List Text} (h : Malformed token)
    (hsep : ∀ other ∈ before ++ token :: after, HEADER_DELIMITER ∉ other) :
    DecodeHeadersFromBase64 ([HEADER_DELIMITER].intercalate (before ++ token :: after)) =
      DecodeHeadersFromBase64 ([HEADER_DELIMITER].intercalate (before ++ after)) := by
  have hrest : ∀ other ∈ before ++ after, HEADER_DELIMITER ∉ other := by
    intro other hother
    apply hsep
    rcases List.mem_append.mp hother with hbefore | hafter
    · exact List.mem_append_left _ hbefore
    · exact List.mem_append_right _ (List.mem_cons_of_mem _ hafter)
  rw [decodeHeaders_join hsep, decodeHeaders_join hrest, List.foldl_append, List.foldl_append,
    List.foldl_cons, decodeToken_of_malformed h]

/-- The decoder is exact on its own format: it inserts the entries of well formed tokens from left
to right, a concatenation is decoded as its two halves, and malformed tokens leave no trace. -/
theorem decodeHeaders_exact :
    (∀ (tokens : List Text) (entries : List (Option (Text × List UInt8))),
      List.Forall₂ Reads tokens entries → (∀ token ∈ tokens, HEADER_DELIMITER ∉ token) →
        DecodeHeadersFromBase64 ([HEADER_DELIMITER].intercalate tokens) =
          insertAll entries.reduceOption) ∧
      (∀ (s t : Text) (key : Text),
        (DecodeHeadersFromBase64 (s ++ HEADER_DELIMITER :: t)).lookup key =
          (DecodeHeadersFromBase64 t ∪ DecodeHeadersFromBase64 s).lookup key) ∧
      ∀ (before after : List Text) (token : Text), Malformed token →
        (∀ other ∈ before ++ token :: after, HEADER_DELIMITER ∉ other) →
          DecodeHeadersFromBase64 ([HEADER_DELIMITER].intercalate (before ++ token :: after)) =
            DecodeHeadersFromBase64 ([HEADER_DELIMITER].intercalate (before ++ after)) := by
  refine ⟨fun tokens entries hreads hsep => ?_, fun s t key => ?_,
    fun before after token hmalformed hsep => decodeHeaders_join_of_malformed hmalformed hsep⟩
  · rw [decodeHeaders_join hsep]
    exact foldl_decodeToken_of_reads hreads ∅
  · rw [decodeHeaders_append, lookup_union]

/-- `a:AQ==`, a blank token, `b:` and `a:Ag==`: the key `a` is overridden, `b` has an empty
value. -/
theorem decodeHeaders_exact_overridden :
    DecodeHeadersFromBase64 "a:AQ==; ;b:;a:Ag==".toList =
      insertAll [(['a'], [1]), (['b'], []), (['a'], [2])] := by
  have hexact := decodeHeaders_exact.1
    ["a:AQ==".toList, [' '], "b:".toList, "a:Ag==".toList]
    [some (['a'], [1]), none, some (['b'], []), some (['a'], [2])]
  refine hexact (.cons (.wellFormed ?_) (.cons (.malformed (.blank ?_))
    (.cons (.wellFormed ?_) (.cons (.wellFormed ?_) .nil)))) ?_
  · exact ⟨by decide, "AQ==".toList, by decide, by decide⟩
  · decide
  · exact ⟨by decide, [], by decide, by decide⟩
  · exact ⟨by decide, "Ag==".toList, by decide, by decide⟩
  · decide

end Outbox.ProducerRecord
