import Mathlib.Data.List.Basic
import JavaExamples.Common.Text

/-!
# From JSON to Lua

`JsonToLuaTableConverter` listens to a walk of the parse tree of a JSON document and edits the
tokens it was parsed from: the `:` of a pair becomes `=`, the quotes of its key are dropped, and
brackets become braces. The text after the edits is what it prints.

* `Value`: the parse trees of the grammar, `Value.tokens` the tokens of a tree.
* `walk`: the edits that the listener requests.
* `TokenStreamRewriter.getText`: the text of the tokens after the edits.
* `convert_eq_render`: the text, by recursion on the tree.
-/

namespace JsonToLua

/-! ## Tokens -/

/-- The literals of the grammar in the order in which it names them, and its lexer rules. -/
inductive TokenType where
  /-- `{` -/
  | T__0
  /-- `,` -/
  | T__1
  /-- `}` -/
  | T__2
  /-- `:` -/
  | T__3
  /-- `[` -/
  | T__4
  /-- `]` -/
  | T__5
  /-- `true` -/
  | T__6
  /-- `false` -/
  | T__7
  /-- `null` -/
  | T__8
  | STRING
  | NUMBER
  deriving DecidableEq

structure Token where
  type : TokenType
  text : Text
  deriving DecidableEq

def isHex (c : Char) : Bool := c.isDigit || ('a' ≤ c && c ≤ 'f') || ('A' ≤ c && c ≤ 'F')

abbrev HEX := { c : Char // isHex c = true }

structure UNICODE where
  h1 : HEX
  h2 : HEX
  h3 : HEX
  h4 : HEX

inductive ESC where
  | quote
  | backslash
  | slash
  | b
  | f
  | n
  | r
  | t
  | unicode (unicode : UNICODE)

abbrev SAFECODEPOINT := { c : Char // c ≠ '"' ∧ c ≠ '\\' ∧ 0x1F < c.toNat }

inductive StringItem where
  | esc (esc : ESC)
  | safe (char : SAFECODEPOINT)

/-- What is between the quotes. -/
structure STRING where
  items : List StringItem

/-- `0`, or digits with no leading zero. -/
structure INT where
  digits : Text
  isDigit : ∀ c ∈ digits, c.isDigit = true
  ne_nil : digits ≠ []
  no_leading_zero : digits.head? = some '0' → digits = ['0']

structure EXP where
  upper : Bool
  /-- `+` or `-`. -/
  sign : Option Bool
  int : INT

structure NUMBER where
  negative : Bool
  int : INT
  fraction : Option { digits : Text // digits ≠ [] ∧ ∀ c ∈ digits, c.isDigit = true }
  exp : Option EXP

def UNICODE.text (unicode : UNICODE) : Text :=
  ['u', unicode.h1.1, unicode.h2.1, unicode.h3.1, unicode.h4.1]

def ESC.text : ESC → Text
  | .quote => ['\\', '"']
  | .backslash => ['\\', '\\']
  | .slash => ['\\', '/']
  | .b => ['\\', 'b']
  | .f => ['\\', 'f']
  | .n => ['\\', 'n']
  | .r => ['\\', 'r']
  | .t => ['\\', 't']
  | .unicode u => '\\' :: u.text

def StringItem.text : StringItem → Text
  | .esc e => e.text
  | .safe char => [char.1]

def STRING.content (string : STRING) : Text := string.items.flatMap StringItem.text

def STRING.text (string : STRING) : Text := '"' :: (string.content ++ ['"'])

def EXP.signText (exp : EXP) : Text :=
  match exp.sign with
  | none => []
  | some true => ['-']
  | some false => ['+']

def EXP.text (exp : EXP) : Text :=
  (if exp.upper then 'E' else 'e') :: (exp.signText ++ exp.int.digits)

def NUMBER.fractionText (number : NUMBER) : Text :=
  match number.fraction with
  | none => []
  | some digits => '.' :: digits.1

def NUMBER.expText (number : NUMBER) : Text :=
  match number.exp with
  | none => []
  | some exp => exp.text

/-- The text without the sign. -/
def NUMBER.absText (number : NUMBER) : Text :=
  number.int.digits ++ (number.fractionText ++ number.expText)

def NUMBER.text (number : NUMBER) : Text :=
  if number.negative then '-' :: number.absText else number.absText

/-! ## Parse trees -/

mutual

/-- The trees of `value`. -/
inductive Value where
  | string (string : STRING)
  | number (number : NUMBER)
  | obj (pairs : Pairs)
  | arr (values : Values)
  | true
  | false
  | null

/-- The `pair`s of an `obj`. -/
inductive Pairs where
  | nil
  | cons (key : STRING) (value : Value) (rest : Pairs)

/-- The `value`s of an `arr`. -/
inductive Values where
  | nil
  | cons (value : Value) (rest : Values)

end

def openBrace : Token := ⟨.T__0, ['{']⟩
def comma : Token := ⟨.T__1, [',']⟩
def closeBrace : Token := ⟨.T__2, ['}']⟩
def colon : Token := ⟨.T__3, [':']⟩
def openBracket : Token := ⟨.T__4, ['[']⟩
def closeBracket : Token := ⟨.T__5, [']']⟩

def STRING.token (string : STRING) : Token := ⟨.STRING, string.text⟩

def NUMBER.token (number : NUMBER) : Token := ⟨.NUMBER, number.text⟩

/-- The comma in front of further pairs. -/
def Pairs.separator : Pairs → List Token
  | .nil => []
  | .cons .. => [comma]

def Values.separator : Values → List Token
  | .nil => []
  | .cons .. => [comma]

mutual

def Value.tokens : Value → List Token
  | .string string => [string.token]
  | .number number => [number.token]
  | .obj pairs => openBrace :: (pairs.tokens ++ [closeBrace])
  | .arr values => openBracket :: (values.tokens ++ [closeBracket])
  | .true => [⟨.T__6, "true".toList⟩]
  | .false => [⟨.T__7, "false".toList⟩]
  | .null => [⟨.T__8, "null".toList⟩]

def Pairs.tokens : Pairs → List Token
  | .nil => []
  | .cons key value rest =>
    key.token :: colon :: (value.tokens ++ (rest.separator ++ rest.tokens))

def Values.tokens : Values → List Token
  | .nil => []
  | .cons value rest => value.tokens ++ (rest.separator ++ rest.tokens)

end

/-! ## Edits -/

/-- What is requested of the rewriter for the token at an index. -/
inductive Edit where
  | replace (index : ℕ) (text : Text)
  | insertAfter (index : ℕ) (text : Text)
  | delete (index : ℕ)

def Edit.index : Edit → ℕ
  | .replace index _ | .insertAfter index _ | .delete index => index

namespace TokenStreamRewriter

/-- The text of a token after a replacement or a deletion. -/
def rewrite (text : Text) : Edit → Text
  | .replace _ replacement => replacement
  | .delete _ => []
  | .insertAfter _ _ => text

/-- What is inserted behind a token. -/
def inserted : Edit → Text
  | .insertAfter _ text => text
  | _ => []

/-- The text at an index after the edits that were requested there. -/
def textAt (edits : List Edit) (index : ℕ) (token : Token) : Text :=
  let edits := edits.filter fun edit => edit.index = index
  edits.foldl rewrite token.text ++ edits.flatMap inserted

/-- The text of the tokens from an index on. -/
def getTextFrom (edits : List Edit) (index : ℕ) : List Token → Text
  | [] => []
  | token :: tokens => textAt edits index token ++ getTextFrom edits (index + 1) tokens

def getText (edits : List Edit) (tokens : List Token) : Text := getTextFrom edits 0 tokens

end TokenStreamRewriter

/-! ## The listener -/

/-- `ctx.getTokens(type)`: the children that are tokens of the type. -/
def getTokens (children : List (ℕ × Token)) (type : TokenType) : List (ℕ × Token) :=
  children.filter fun child => child.2.type = type

/-- The children of a pair that are tokens, with their indices, are what it is about. -/
def enterPair (children : List (ℕ × Token)) : List Edit :=
  (getTokens children .T__3).map (fun it => .replace it.1 ['=']) ++
    (getTokens children .STRING).map fun it => .replace it.1 (it.2.text.drop 1).dropLast

/-- `ctx.getStart()` and `ctx.getStop()`. -/
def enterArr (start stop : ℕ) : List Edit :=
  [.insertAfter start ['{'], .delete start, .insertAfter stop ['}'], .delete stop]

mutual

/-- The edits of a walk through the tree whose first token is at the index. -/
def Value.walk (start : ℕ) : Value → List Edit
  | .obj pairs => pairs.walk (start + 1)
  | .arr values => enterArr start (start + 1 + values.tokens.length) ++ values.walk (start + 1)
  | _ => []

def Pairs.walk (start : ℕ) : Pairs → List Edit
  | .nil => []
  | .cons key value rest =>
    enterPair [(start, key.token), (start + 1, colon)] ++ (value.walk (start + 2) ++
      rest.walk (start + 2 + value.tokens.length + rest.separator.length))

def Values.walk (start : ℕ) : Values → List Edit
  | .nil => []
  | .cons value rest =>
    value.walk start ++ rest.walk (start + value.tokens.length + rest.separator.length)

end

/-- What `main` prints. -/
def convert (json : Value) : Text := TokenStreamRewriter.getText (json.walk 0) json.tokens

/-! ## The text -/

def Pairs.separatorText : Pairs → Text
  | .nil => []
  | .cons .. => [',']

def Values.separatorText : Values → Text
  | .nil => []
  | .cons .. => [',']

mutual

/-- The text of a tree with names for keys, and braces. -/
def Value.render : Value → Text
  | .string string => string.text
  | .number number => number.text
  | .obj pairs => '{' :: (pairs.render ++ ['}'])
  | .arr values => '{' :: (values.render ++ ['}'])
  | .true => "true".toList
  | .false => "false".toList
  | .null => "null".toList

def Pairs.render : Pairs → Text
  | .nil => []
  | .cons key value rest =>
    key.content ++ '=' :: (value.render ++ (rest.separatorText ++ rest.render))

def Values.render : Values → Text
  | .nil => []
  | .cons value rest => value.render ++ (rest.separatorText ++ rest.render)

end

section Edits

open TokenStreamRewriter

/-- All edits are requested for tokens from an index on, of the given number. -/
def Within (edits : List Edit) (start length : ℕ) : Prop :=
  ∀ edit ∈ edits, start ≤ edit.index ∧ edit.index < start + length

/-- The edits requested for these tokens are the same. -/
def SameOn (edits own : List Edit) (start length : ℕ) : Prop :=
  ∀ i, start ≤ i → i < start + length →
    (edits.filter fun edit => edit.index = i) = own.filter fun edit => edit.index = i

/-- No edit is requested for a token. -/
def Spares (edits : List Edit) (i : ℕ) : Prop := ∀ edit ∈ edits, edit.index ≠ i

theorem Spares.filter_eq_nil {edits : List Edit} {i : ℕ} (h : Spares edits i) :
    (edits.filter fun edit => edit.index = i) = [] := by
  rw [List.filter_eq_nil_iff]
  simpa [Spares] using h

theorem Within.spares {edits : List Edit} {start length i : ℕ} (h : Within edits start length)
    (hi : i < start ∨ start + length ≤ i) : Spares edits i := by
  intro edit hedit
  obtain ⟨hge, hlt⟩ := h edit hedit
  omega

theorem Within.append {a b : List Edit} {start length : ℕ} (ha : Within a start length)
    (hb : Within b start length) : Within (a ++ b) start length := fun edit hedit =>
  (List.mem_append.mp hedit).elim (ha edit) (hb edit)

theorem Within.mono {edits : List Edit} {start length start' length' : ℕ}
    (h : Within edits start length) (hstart : start' ≤ start)
    (hstop : start + length ≤ start' + length') : Within edits start' length' := by
  intro edit hedit
  obtain ⟨hge, hlt⟩ := h edit hedit
  omega

theorem getTextFrom_append (edits : List Edit) (start : ℕ) (a b : List Token) :
    getTextFrom edits start (a ++ b) =
      getTextFrom edits start a ++ getTextFrom edits (start + a.length) b := by
  induction a generalizing start with
  | nil => simp [getTextFrom]
  | cons token a ih =>
    rw [List.cons_append, getTextFrom, getTextFrom, ih, List.append_assoc, List.length_cons,
      Nat.add_assoc start 1, Nat.add_comm 1]

theorem textAt_of_spares {edits : List Edit} {i : ℕ} (h : Spares edits i) (token : Token) :
    textAt edits i token = token.text := by
  rw [textAt, h.filter_eq_nil]
  exact List.append_nil _

theorem SameOn.textAt_eq {edits own : List Edit} {start length i : ℕ}
    (h : SameOn edits own start length) (hi : start ≤ i ∧ i < start + length) (token : Token) :
    textAt edits i token = textAt own i token := by
  rw [textAt, textAt, h i hi.1 hi.2]

/-- What is the same on the tokens is so on a part of them. -/
theorem SameOn.part {edits own part : List Edit} {start length start' length' : ℕ}
    (h : SameOn edits own start length)
    (hrange : start ≤ start' ∧ start' + length' ≤ start + length)
    (hpart : SameOn own part start' length') : SameOn edits part start' length' := fun i hge hlt =>
  (h i (by omega) (by omega)).trans (hpart i hge hlt)

/-- Edits of tokens before. -/
theorem Within.sameOn_right {before own : List Edit} {start length start' length' : ℕ}
    (h : Within before start length) (hle : start + length ≤ start') :
    SameOn (before ++ own) own start' length' := by
  intro i hge _
  rw [List.filter_append, (h.spares (.inr (by omega))).filter_eq_nil, List.nil_append]

/-- Edits of tokens behind. -/
theorem Within.sameOn_left {own after : List Edit} {start length start' length' : ℕ}
    (h : Within after start length) (hle : start' + length' ≤ start) :
    SameOn (own ++ after) own start' length' := by
  intro i _ hlt
  rw [List.filter_append, (h.spares (.inl (by omega))).filter_eq_nil, List.append_nil]

theorem enterPair_eq (start : ℕ) (key : STRING) :
    enterPair [(start, key.token), (start + 1, colon)] =
      [.replace (start + 1) ['='], .replace start key.content] := by
  have hcontent : (key.token.text.drop 1).dropLast = key.content := by
    simp [STRING.token, STRING.text]
  have hcolon : getTokens [(start, key.token), (start + 1, colon)] .T__3 = [(start + 1, colon)] :=
    rfl
  have hkey : getTokens [(start, key.token), (start + 1, colon)] .STRING = [(start, key.token)] :=
    rfl
  rw [enterPair, hcolon, hkey, List.map_singleton, List.map_singleton, hcontent]
  rfl

theorem enterPair_within (start : ℕ) (key : STRING) :
    Within (enterPair [(start, key.token), (start + 1, colon)]) start 2 := by
  rw [enterPair_eq]
  simp [Within, Edit.index]

theorem enterArr_within {start stop length : ℕ} (h : start ≤ stop) (hstop : stop < start + length) :
    Within (enterArr start stop) start length := by
  simp only [Within, enterArr, List.forall_mem_cons, Edit.index]
  simp only [List.not_mem_nil, IsEmpty.forall_iff, implies_true, and_true]
  omega

mutual

/-- The edits of a tree are requested for its tokens. -/
theorem Value.walk_within (start : ℕ) : ∀ value : Value,
    Within (value.walk start) start value.tokens.length
  | .obj pairs => by
    rw [Value.walk, Value.tokens, List.length_cons, List.length_append]
    exact (pairs.walk_within (start + 1)).mono (by omega) (by omega)
  | .arr values => by
    rw [Value.walk, Value.tokens, List.length_cons, List.length_append, List.length_singleton]
    exact (enterArr_within (by omega) (by omega)).append
      ((values.walk_within (start + 1)).mono (by omega) (by omega))
  | .string _ | .number _ | .true | .false | .null => by simp [Value.walk, Within]

theorem Pairs.walk_within (start : ℕ) : ∀ pairs : Pairs,
    Within (pairs.walk start) start pairs.tokens.length
  | .nil => by simp [Pairs.walk, Within]
  | .cons key value rest => by
    rw [Pairs.walk, Pairs.tokens]
    simp only [List.length_cons, List.length_append]
    exact ((enterPair_within start key).mono le_rfl (by omega)).append
      (((value.walk_within (start + 2)).mono (by omega) (by omega)).append
        ((rest.walk_within _).mono (by omega) (by omega)))

theorem Values.walk_within (start : ℕ) : ∀ values : Values,
    Within (values.walk start) start values.tokens.length
  | .nil => by simp [Values.walk, Within]
  | .cons value rest => by
    rw [Values.walk, Values.tokens]
    simp only [List.length_append]
    exact ((value.walk_within start).mono le_rfl (by omega)).append
      ((rest.walk_within _).mono (by omega) (by omega))

end

theorem SameOn.getTextFrom_singleton {edits : List Edit} {start : ℕ}
    (h : SameOn edits [] start 1) (token : Token) :
    getTextFrom edits start [token] = token.text := by
  rw [getTextFrom, h.textAt_eq (by omega), textAt_of_spares (by simp [Spares])]
  exact List.append_nil _

theorem textAt_enterPair_key (start : ℕ) (key : STRING) :
    textAt (enterPair [(start, key.token), (start + 1, colon)]) start key.token = key.content := by
  simp [enterPair_eq, textAt, Edit.index, rewrite, inserted]

theorem textAt_enterPair_colon (start : ℕ) (key : STRING) :
    textAt (enterPair [(start, key.token), (start + 1, colon)]) (start + 1) colon = ['='] := by
  simp [enterPair_eq, textAt, Edit.index, rewrite, inserted]

theorem enterArr_spares {start stop i : ℕ} (hstart : i ≠ start) (hstop : i ≠ stop) :
    Spares (enterArr start stop) i := by
  simp [Spares, enterArr, Edit.index, hstart.symm, hstop.symm]

theorem textAt_append_of_spares {own after : List Edit} {i : ℕ} (h : Spares after i)
    (token : Token) : textAt (own ++ after) i token = textAt own i token := by
  rw [textAt, textAt, List.filter_append, h.filter_eq_nil, List.append_nil]

theorem textAt_enterArr_start {start stop : ℕ} (h : start < stop) (token : Token) :
    textAt (enterArr start stop) start token = ['{'] := by
  simp [textAt, enterArr, Edit.index, h.ne', rewrite, inserted]

theorem textAt_enterArr_stop {start stop : ℕ} (h : start < stop) (token : Token) :
    textAt (enterArr start stop) stop token = ['}'] := by
  simp [textAt, enterArr, Edit.index, h.ne, rewrite, inserted]

theorem Pairs.getTextFrom_separator {edits : List Edit} {start : ℕ} (pairs : Pairs)
    (h : SameOn edits [] start pairs.separator.length) :
    getTextFrom edits start pairs.separator = pairs.separatorText := by
  cases pairs with
  | nil => rfl
  | cons => exact h.getTextFrom_singleton comma

theorem Values.getTextFrom_separator {edits : List Edit} {start : ℕ} (values : Values)
    (h : SameOn edits [] start values.separator.length) :
    getTextFrom edits start values.separator = values.separatorText := by
  cases values with
  | nil => rfl
  | cons => exact h.getTextFrom_singleton comma

mutual

/-- The edited text of a tree, whatever is edited elsewhere. -/
theorem Value.getTextFrom_tokens {edits : List Edit} {start : ℕ} : ∀ value : Value,
    SameOn edits (value.walk start) start value.tokens.length →
      getTextFrom edits start value.tokens = value.render
  | .string _, h | .number _, h | .true, h | .false, h | .null, h => h.getTextFrom_singleton _
  | .obj pairs, h => by
    simp only [Value.tokens, Value.walk, List.length_cons, List.length_append, List.length_nil] at h
    have hwithin := pairs.walk_within (start + 1)
    have hpairs := pairs.getTextFrom_tokens (fun i hge hlt => h i (by omega) (by omega))
    -- the braces of an object are left as they are
    have hopen : textAt edits start openBrace = ['{'] := by
      rw [h.textAt_eq (by omega), textAt_of_spares (hwithin.spares (by omega))]
      rfl
    have hclose : textAt edits (start + 1 + pairs.tokens.length) closeBrace = ['}'] := by
      rw [h.textAt_eq (by omega), textAt_of_spares (hwithin.spares (by omega))]
      rfl
    rw [Value.tokens, getTextFrom, getTextFrom_append, getTextFrom, hopen, hpairs, hclose]
    rfl
  | .arr values, h => by
    simp only [Value.tokens, Value.walk, List.length_cons, List.length_append, List.length_nil] at h
    have hwithin := values.walk_within (start + 1)
    have hlt : start < start + 1 + values.tokens.length := by omega
    have hvalues : getTextFrom edits (start + 1) values.tokens = values.render := by
      apply values.getTextFrom_tokens
      refine h.part (by omega) fun i hge hlt => ?_
      have hspares : Spares (enterArr start (start + 1 + values.tokens.length)) i :=
        enterArr_spares (by omega) (by omega)
      rw [List.filter_append, hspares.filter_eq_nil, List.nil_append]
    -- the brackets are deleted, with a brace inserted behind each
    have hopen : textAt edits start openBracket = ['{'] := by
      rw [h.textAt_eq (by omega), textAt_append_of_spares (hwithin.spares (by omega)),
        textAt_enterArr_start hlt]
    have hclose : textAt edits (start + 1 + values.tokens.length) closeBracket = ['}'] := by
      rw [h.textAt_eq (by omega), textAt_append_of_spares (hwithin.spares (by omega)),
        textAt_enterArr_stop hlt]
    rw [Value.tokens, getTextFrom, getTextFrom_append, getTextFrom, hopen, hvalues, hclose]
    rfl

theorem Pairs.getTextFrom_tokens {edits : List Edit} {start : ℕ} : ∀ pairs : Pairs,
    SameOn edits (pairs.walk start) start pairs.tokens.length →
      getTextFrom edits start pairs.tokens = pairs.render
  | .nil, _ => rfl
  | .cons key value rest, h => by
    simp only [Pairs.tokens, Pairs.walk, List.length_cons, List.length_append] at h
    have hpairWithin := enterPair_within start key
    have hrestWithin := rest.walk_within (start + 2 + value.tokens.length + rest.separator.length)
    have hvalueWithin := value.walk_within (start + 2)
    have hchildren : Within (value.walk (start + 2) ++
        rest.walk (start + 2 + value.tokens.length + rest.separator.length)) (start + 2)
        (value.tokens.length + (rest.separator.length + rest.tokens.length)) :=
      (hvalueWithin.mono le_rfl (by omega)).append (hrestWithin.mono (by omega) (by omega))
    have hkey : textAt edits start key.token = key.content := by
      rw [h.textAt_eq (by omega), textAt_append_of_spares (hchildren.spares (by omega)),
        textAt_enterPair_key]
    have hcolon : textAt edits (start + 1) colon = ['='] := by
      rw [h.textAt_eq (by omega), textAt_append_of_spares (hchildren.spares (by omega)),
        textAt_enterPair_colon]
    -- behind the key and the colon there are only the edits of the value and the other pairs
    have hbehind : SameOn edits (value.walk (start + 2) ++
        rest.walk (start + 2 + value.tokens.length + rest.separator.length)) (start + 2)
        (value.tokens.length + (rest.separator.length + rest.tokens.length)) :=
      h.part (by omega) (hpairWithin.sameOn_right (by omega))
    have hvalue := value.getTextFrom_tokens
      (hbehind.part (by omega) (hrestWithin.sameOn_left (by omega)))
    have hrest := rest.getTextFrom_tokens
      (hbehind.part (by omega) (hvalueWithin.sameOn_right (by omega)))
    have hseparator : getTextFrom edits (start + 2 + value.tokens.length) rest.separator =
        rest.separatorText := by
      apply rest.getTextFrom_separator
      refine hbehind.part (by omega) fun i hge hlt => ?_
      rw [List.filter_append, (hvalueWithin.spares (by omega)).filter_eq_nil,
        (hrestWithin.spares (by omega)).filter_eq_nil]
      rfl
    rw [Pairs.tokens, getTextFrom, getTextFrom, getTextFrom_append, getTextFrom_append, hkey,
      hcolon, hvalue, hseparator, hrest]
    rfl

theorem Values.getTextFrom_tokens {edits : List Edit} {start : ℕ} : ∀ values : Values,
    SameOn edits (values.walk start) start values.tokens.length →
      getTextFrom edits start values.tokens = values.render
  | .nil, _ => rfl
  | .cons value rest, h => by
    simp only [Values.tokens, Values.walk, List.length_append] at h
    have hrestWithin := rest.walk_within (start + value.tokens.length + rest.separator.length)
    have hvalueWithin := value.walk_within start
    have hvalue := value.getTextFrom_tokens
      (h.part (by omega) (hrestWithin.sameOn_left (by omega)))
    have hrest := rest.getTextFrom_tokens
      (h.part (by omega) (hvalueWithin.sameOn_right (by omega)))
    -- no edit is about a comma
    have hseparator : getTextFrom edits (start + value.tokens.length) rest.separator =
        rest.separatorText := by
      apply rest.getTextFrom_separator
      refine h.part (by omega) fun i hge hlt => ?_
      rw [List.filter_append, (hvalueWithin.spares (by omega)).filter_eq_nil,
        (hrestWithin.spares (by omega)).filter_eq_nil]
      rfl
    rw [Values.tokens, getTextFrom_append, getTextFrom_append, hvalue, hseparator, hrest]
    rfl

end

end Edits

/-- What the converter prints. -/
theorem convert_eq_render (json : Value) : convert json = json.render :=
  json.getTextFrom_tokens fun _ _ _ => rfl

end JsonToLua
