import JavaExamples.Common.LuaExpression
import JavaExamples.JsonToLua.Converter

/-!
# What the converter preserves

The text that the converter prints is read as a Lua expression and evaluated, and compared with the
table that the document describes.

**Parameters.** `numbers` are Lua's numbers; `globals` are its variables, and nothing is assigned to
the one of the name `null`.

* `Value.toLua`: the table of a document.
* `Converts`: the text is an expression of this value.
* `NamedKeys`: all keys are names in Lua. `portable`: no string has an escape that Lua does not
  have.

**Statement.** A document all keys of which are names is converted exactly if its strings are
portable (`converts_iff`).
-/

namespace JsonToLua

/-! ## What a document means -/

def HEX.value (hex : HEX) : ℕ :=
  if hex.1.isDigit then hex.1.toNat - '0'.toNat
  else if 'a' ≤ hex.1 then hex.1.toNat - 'a'.toNat + 10
  else hex.1.toNat - 'A'.toNat + 10

/-- The UTF-16 unit. -/
def UNICODE.unit (unicode : UNICODE) : ℕ :=
  ((unicode.h1.value * 16 + unicode.h2.value) * 16 + unicode.h3.value) * 16 + unicode.h4.value

def isHighSurrogate (unit : ℕ) : Bool := 0xD800 ≤ unit && unit ≤ 0xDBFF

def isLowSurrogate (unit : ℕ) : Bool := 0xDC00 ≤ unit && unit ≤ 0xDFFF

/-- The character of a unit. One half of a pair on its own has none. -/
def unitChar (unit : ℕ) : Char :=
  if isHighSurrogate unit || isLowSurrogate unit then '\uFFFD' else Char.ofNat unit

def ESC.char : ESC → Char
  | .quote => '"'
  | .backslash => '\\'
  | .slash => '/'
  | .b => '\x08'
  | .f => '\x0c'
  | .n => '\n'
  | .r => '\r'
  | .t => '\t'
  | .unicode u => unitChar u.unit

def StringItem.char : StringItem → Char
  | .esc e => e.char
  | .safe c => c.1

/-- The characters of a string. Two halves of a surrogate pair are one. -/
def decode : List StringItem → Text
  | [] => []
  | .esc (.unicode high) :: .esc (.unicode low) :: rest =>
    if isHighSurrogate high.unit && isLowSurrogate low.unit then
      Char.ofNat (0x10000 + (high.unit - 0xD800) * 0x400 + (low.unit - 0xDC00)) :: decode rest
    else unitChar high.unit :: decode (.esc (.unicode low) :: rest)
  | item :: rest => item.char :: decode rest

def STRING.value (string : STRING) : Text := decode string.items

def NUMBER.fractionDigits (number : NUMBER) : Text :=
  match number.fraction with
  | none => []
  | some digits => digits.1

def NUMBER.exponent (number : NUMBER) : ℤ :=
  match number.exp with
  | none => 0
  | some exp =>
    let exponent : ℤ := Nat.ofDigitChars 10 exp.int.digits 0
    if exp.sign = some true then -exponent else exponent

def NUMBER.abs (number : NUMBER) : ℚ :=
  Lua.decimal number.int.digits number.fractionDigits number.exponent

def NUMBER.value (number : NUMBER) : ℚ := if number.negative then -number.abs else number.abs

section Meaning

variable {N : Type} (numbers : Lua.Numbers N)

mutual

def Value.toLua : Value → Lua.Value N
  | .string string => .string string.value
  | .number number => .number (numbers.ofRat number.value)
  | .obj pairs => .table fun
    | .string name => (pairs.get name).getD .nil
    | .index _ => .nil
  | .arr values => .table fun
    | .index (i + 1) => values.get i
    | _ => .nil
  | .true => .boolean true
  | .false => .boolean false
  | .null => .nil

/-- The value of the last pair of a key. -/
def Pairs.get (name : Text) : Pairs → Option (Lua.Value N)
  | .nil => none
  | .cons key value rest =>
    match rest.get name with
    | some other => some other
    | none => if key.value = name then some value.toLua else none

/-- The value at an index from `0` on. -/
def Values.get : Values → ℕ → Lua.Value N
  | .nil, _ => .nil
  | .cons value _, 0 => value.toLua
  | .cons _ rest, i + 1 => rest.get i

end

/-- The text that is printed is an expression of Lua, and its value is what the document means. -/
def Converts (globals : Text → Lua.Value N) (json : Value) : Prop :=
  ∃ expression, Lua.parse (convert json) = some expression ∧
    expression.eval numbers globals = some (json.toLua numbers)

end Meaning

/-! ## Which documents are converted -/

/-- Lua has neither `\/` nor `\uXXXX`. -/
def StringItem.portable : StringItem → Bool
  | .esc .slash | .esc (.unicode _) => false
  | _ => true

mutual

/-- All strings but the keys can be read by Lua. -/
def Value.portable : Value → Bool
  | .string string => string.items.all StringItem.portable
  | .obj pairs => pairs.portable
  | .arr values => values.portable
  | _ => true

def Pairs.portable : Pairs → Bool
  | .nil => true
  | .cons _ value rest => value.portable && rest.portable

def Values.portable : Values → Bool
  | .nil => true
  | .cons value rest => value.portable && rest.portable

end

mutual

/-- All keys are names. -/
def Value.NamedKeys : Value → Prop
  | .obj pairs => pairs.NamedKeys
  | .arr values => values.NamedKeys
  | _ => True

def Pairs.NamedKeys : Pairs → Prop
  | .nil => True
  | .cons key value rest => Lua.IsName key.content ∧ value.NamedKeys ∧ rest.NamedKeys

def Values.NamedKeys : Values → Prop
  | .nil => True
  | .cons value rest => value.NamedKeys ∧ rest.NamedKeys

end

mutual

/-- The expression that the text of a document is. -/
def Value.expr : Value → Lua.Expr
  | .string string => .string string.value
  | .number number =>
    if number.negative then .neg (.numeral number.abs) else .numeral number.abs
  | .obj pairs => .table pairs.fields
  | .arr values => .table values.fields
  | .true => .boolean true
  | .false => .boolean false
  | .null => .name "null".toList

def Pairs.fields : Pairs → Lua.Fields
  | .nil => .nil
  | .cons key value rest => .cons (some key.content) value.expr rest.fields

def Values.fields : Values → Lua.Fields
  | .nil => .nil
  | .cons value rest => .cons none value.expr rest.fields

end

/-! ## Strings -/

theorem decode_cons {item : StringItem} (h : item.portable = true) (items : List StringItem) :
    decode (item :: items) = item.char :: decode items := by
  cases item with
  | safe c => rfl
  | esc e =>
    cases e with
    | unicode u => exact absurd h (by simp [StringItem.portable])
    | _ => rfl

/-- Lua reads an escape that it has as JSON does, and no other. -/
theorem readString_item (item : StringItem) (rest : Text) :
    Lua.readString (item.text ++ rest) =
      if item.portable then (Lua.readString rest).map (Prod.map (item.char :: ·) id) else none := by
  cases item with
  | safe c =>
    obtain ⟨c, hquote, hslash, hcontrol⟩ := c
    -- a control character is not safe, so that no line ends in a string
    have hn : c ≠ '\n' := by
      rintro rfl
      exact absurd hcontrol (by decide)
    have hr : c ≠ '\r' := by
      rintro rfl
      exact absurd hcontrol (by decide)
    exact Lua.readString_cons hquote hslash hn hr rest
  | esc e =>
    cases e with
    -- what follows `u` does not matter, the escape is none of Lua
    | unicode u => exact Lua.readString_escape 'u' _
    | quote => exact Lua.readString_escape '"' rest
    | backslash => exact Lua.readString_escape '\\' rest
    | slash => exact Lua.readString_escape '/' rest
    | b => exact Lua.readString_escape 'b' rest
    | f => exact Lua.readString_escape 'f' rest
    | n => exact Lua.readString_escape 'n' rest
    | r => exact Lua.readString_escape 'r' rest
    | t => exact Lua.readString_escape 't' rest

theorem readString_content (string : STRING) (rest : Text) :
    Lua.readString (string.content ++ '"' :: rest) =
      if string.items.all StringItem.portable then some (string.value, rest) else none := by
  obtain ⟨items⟩ := string
  rw [STRING.content, STRING.value]
  induction items with
  | nil => rfl
  | cons item items ih =>
    rw [List.flatMap_cons, List.append_assoc, readString_item, ih, List.all_cons]
    cases hitem : item.portable with
    | false => rfl
    | true =>
      rw [decode_cons hitem]
      cases items.all StringItem.portable <;> rfl

/-- A key that is a name has no escapes. -/
theorem STRING.value_eq_content {string : STRING} (h : string.content.all Lua.isNameChar = true) :
    string.value = string.content := by
  obtain ⟨items⟩ := string
  rw [STRING.content] at h ⊢
  rw [STRING.value]
  induction items with
  | nil => rfl
  | cons item items ih =>
    rw [List.flatMap_cons, List.all_append, Bool.and_eq_true] at h
    obtain ⟨hitem, hitems⟩ := h
    cases item with
    | safe c =>
      rw [decode_cons rfl, ih hitems]
      rfl
    -- an escape begins with a backslash, which no name has
    | esc e =>
      exfalso
      cases e with
      | _ => simp [StringItem.text, ESC.text, Lua.isNameChar] at hitem

/-! ## Numbers -/

theorem INT.head_isDigit (int : INT) (rest : Text) :
    ∃ c ∈ (int.digits ++ rest).head?, c.isDigit = true := by
  obtain ⟨digits, hdigits, hne, -⟩ := int
  cases digits with
  | nil => exact absurd rfl hne
  | cons c digits => exact ⟨c, rfl, hdigits c List.mem_cons_self⟩

theorem readSign_signText (exp : EXP) (rest : Text) :
    Lua.readSign (exp.signText ++ (exp.int.digits ++ rest)) =
      (decide (exp.sign = some true), exp.int.digits ++ rest) := by
  rw [EXP.signText]
  cases exp.sign with
  | some negative => cases negative <;> rfl
  | none =>
    obtain ⟨c, hc, hdigit⟩ := exp.int.head_isDigit rest
    rw [List.nil_append, Lua.readSign]
    · rfl
    all_goals
      intro rest' heq
      rw [heq] at hc
      obtain rfl : _ = c := by simpa using hc
      exact absurd hdigit (by decide)

theorem readExponent_expText (number : NUMBER) {rest : Text} (hrest : Lua.Ends rest) :
    Lua.readExponent (number.expText ++ rest) = some (number.exponent, rest) := by
  rw [NUMBER.expText, NUMBER.exponent]
  cases number.exp with
  | none => exact Lua.readExponent_of_ends hrest
  | some exp =>
    have hletter :
        (if exp.upper then 'E' else 'e') = 'e' ∨ (if exp.upper then 'E' else 'e') = 'E' := by
      cases exp.upper <;> simp
    have hsign := readSign_signText exp rest
    simp only [EXP.text, List.cons_append, List.append_assoc]
    rw [Lua.readExponent_append hletter hsign exp.int.ne_nil exp.int.isDigit hrest]
    simp only [decide_eq_true_eq]

/-- Behind the digits before a point, or those behind it, there is no digit. -/
theorem expText_not_digit (number : NUMBER) {rest : Text} (hrest : Lua.Ends rest) :
    ∀ c ∈ (number.expText ++ rest).head?, c.isDigit = false ∧ c ≠ '.' := by
  rw [NUMBER.expText]
  cases number.exp with
  | none => exact fun c hc => ⟨hrest.not_digit c hc, (hrest c hc).2⟩
  | some exp =>
    intro c hc
    obtain rfl : (if exp.upper then 'E' else 'e') = c := by simpa [EXP.text] using hc
    cases exp.upper <;> decide

theorem readFraction_fractionText (number : NUMBER) {rest : Text} (hrest : Lua.Ends rest) :
    Lua.readFraction (number.fractionText ++ (number.expText ++ rest)) =
      (number.fractionDigits, number.expText ++ rest) := by
  have hhead := expText_not_digit number hrest
  rw [NUMBER.fractionText, NUMBER.fractionDigits]
  cases number.fraction with
  | none => exact Lua.readFraction_of_ne fun hpoint => (hhead '.' hpoint).2 rfl
  | some digits => exact Lua.readFraction_point digits.2.2 fun c hc => (hhead c hc).1

theorem fractionText_not_digit (number : NUMBER) {rest : Text} (hrest : Lua.Ends rest) :
    ∀ c ∈ (number.fractionText ++ (number.expText ++ rest)).head?, c.isDigit = false := by
  rw [NUMBER.fractionText]
  cases number.fraction with
  | none => exact fun c hc => (expText_not_digit number hrest c hc).1
  | some digits =>
    intro c hc
    obtain rfl : '.' = c := by simpa using hc
    decide

theorem readNumeral_absText (number : NUMBER) {rest : Text} (hrest : Lua.Ends rest) :
    Lua.readNumeral (number.absText ++ rest) = some (number.abs, rest) := by
  have hhead := fractionText_not_digit number hrest
  rw [NUMBER.absText, List.append_assoc, List.append_assoc, Lua.readNumeral]
  simp only [Lua.takeWhile_append number.int.isDigit hhead,
    Lua.dropWhile_append number.int.isDigit hhead, readFraction_fractionText number hrest,
    readExponent_expText number hrest, Option.bind_eq_bind, Option.bind_some, if_pos hrest]
  rfl

theorem NUMBER.head_isDigit (number : NUMBER) (rest : Text) :
    ∃ c ∈ (number.absText ++ rest).head?, c.isDigit = true := by
  rw [NUMBER.absText, List.append_assoc]
  exact number.int.head_isDigit _

theorem NUMBER.head_ne (number : NUMBER) (rest : Text) {c : Char} (h : c.isDigit = false) :
    (number.absText ++ rest).head? ≠ some c := by
  intro hhead
  obtain ⟨a, ha, hdigit⟩ := number.head_isDigit rest
  obtain rfl : c = a := Option.some_inj.mp (hhead.symm.trans ha)
  exact Bool.false_ne_true (h.symm.trans hdigit)

theorem nextToken_absText (number : NUMBER) {rest : Text} (hrest : Lua.Ends rest) :
    Lua.nextToken (number.absText ++ rest) = some (.numeral number.abs, rest) :=
  Lua.nextToken_numeral (number.head_isDigit rest) (readNumeral_absText number hrest)

/-! ## Documents -/

/-- What is behind a value in a table. -/
def Closes (rest : Text) : Prop := ∃ tail, rest = '}' :: tail ∨ rest = ',' :: tail

theorem Closes.ends {rest : Text} (h : Closes rest) : Lua.Ends rest := by
  obtain ⟨tail, rfl | rfl⟩ := h
  all_goals
    intro c hc
    obtain rfl : _ = c := by simpa using hc
    decide

theorem parseExpr_string {fuel : ℕ} (string : STRING) (rest : Text) :
    Lua.parseExpr (fuel + 1) (string.text ++ rest) =
      if string.items.all StringItem.portable then some (.string string.value, rest) else none := by
  have htext : string.text ++ rest = '"' :: (string.content ++ '"' :: rest) := by
    simp [STRING.text]
  have htoken := Lua.nextToken_string (string.content ++ '"' :: rest)
  rw [readString_content string rest] at htoken
  rw [htext]
  cases hportable : string.items.all StringItem.portable with
  | true =>
    rw [hportable] at htoken
    exact Lua.parseExpr_of_token htoken
  | false =>
    rw [hportable] at htoken
    exact Lua.parseExpr_none htoken

theorem parseExpr_number {fuel : ℕ} (number : NUMBER) {rest : Text} (hrest : Lua.Ends rest) :
    Lua.parseExpr (fuel + 2) (number.text ++ rest) = some ((Value.number number).expr, rest) := by
  have habs := nextToken_absText number hrest
  rw [NUMBER.text, Value.expr]
  cases number.negative with
  | false => exact Lua.parseExpr_of_token habs
  | true =>
    simp only [if_true, List.cons_append]
    rw [Lua.parseExpr_minus (number.head_ne rest (by decide)), Lua.parseExpr_of_token habs]
    rfl

theorem nextToken_true {rest : Text} (hrest : Lua.Ends rest) :
    Lua.nextToken ("true".toList ++ rest) = some (.keyword "true".toList, rest) :=
  Lua.nextToken_word (by decide) (List.all_eq_true.mp (by decide)) hrest

theorem nextToken_false {rest : Text} (hrest : Lua.Ends rest) :
    Lua.nextToken ("false".toList ++ rest) = some (.keyword "false".toList, rest) :=
  Lua.nextToken_word (by decide) (List.all_eq_true.mp (by decide)) hrest

/-- Not a keyword of Lua. -/
theorem nextToken_null {rest : Text} (hrest : Lua.Ends rest) :
    Lua.nextToken ("null".toList ++ rest) = some (.name "null".toList, rest) :=
  Lua.nextToken_name (by decide) hrest

/-- A value does not begin with `=`. -/
theorem Value.head_ne_assign (value : Value) (rest : Text) :
    (value.render ++ rest).head? ≠ some '=' := by
  cases value with
  | number number =>
    rw [Value.render, NUMBER.text]
    cases number.negative with
    | true => simp
    | false => exact number.head_ne rest (by decide)
  | _ => simp [Value.render, STRING.text]

/-- There is a string that Lua cannot read, or the value is a field without a name. -/
theorem Value.startsField (value : Value) {rest : Text} (hrest : Closes rest) :
    Lua.nextToken (value.render ++ rest) = none ∨
      Lua.StartsField (value.render ++ rest) none (value.render ++ rest) := by
  cases value with
  | string string =>
    have htext : string.text ++ rest = '"' :: (string.content ++ '"' :: rest) := by
      simp [STRING.text]
    have htoken := Lua.nextToken_string (string.content ++ '"' :: rest)
    rw [readString_content string rest] at htoken
    rw [Value.render, htext]
    cases hportable : string.items.all StringItem.portable with
    | true =>
      rw [hportable] at htoken
      exact .inr (Lua.startsField_of_ne htoken (by simp) (by simp))
    | false =>
      rw [hportable] at htoken
      exact .inl htoken
  | number number =>
    right
    rw [Value.render, NUMBER.text]
    cases number.negative with
    | true =>
      have hhead : (number.absText ++ rest).head? ≠ some '-' := number.head_ne rest (by decide)
      exact Lua.startsField_of_ne (Lua.nextToken_minus hhead) (by simp) (by simp)
    | false => exact Lua.startsField_of_ne (nextToken_absText number hrest.ends) (by simp) (by simp)
  | obj pairs => exact .inr (Lua.startsField_of_ne rfl (by simp) (by simp))
  | arr values => exact .inr (Lua.startsField_of_ne rfl (by simp) (by simp))
  | true => exact .inr (Lua.startsField_of_ne (nextToken_true hrest.ends) (by simp) (by simp))
  | false => exact .inr (Lua.startsField_of_ne (nextToken_false hrest.ends) (by simp) (by simp))
  | null =>
    right
    have hnull := nextToken_null hrest.ends
    obtain ⟨tail, rfl | rfl⟩ := hrest
    · exact Lua.startsField_variable hnull rfl (by simp)
    · exact Lua.startsField_variable hnull rfl (by simp)

theorem NUMBER.length_text_pos (number : NUMBER) : 0 < number.text.length := by
  have hlength := List.length_pos_iff.mpr number.int.ne_nil
  rw [NUMBER.text]
  split
  · simp
  · rw [NUMBER.absText, List.length_append]
    omega

theorem Pairs.closes (pairs : Pairs) (rest : Text) :
    Closes (pairs.separatorText ++ (pairs.render ++ '}' :: rest)) := by
  cases pairs with
  | nil => exact ⟨rest, .inl rfl⟩
  | cons => exact ⟨_, .inr rfl⟩

theorem Values.closes (values : Values) (rest : Text) :
    Closes (values.separatorText ++ (values.render ++ '}' :: rest)) := by
  cases values with
  | nil => exact ⟨rest, .inl rfl⟩
  | cons => exact ⟨_, .inr rfl⟩

mutual

/-- The parser reads the text of a document that has names for keys, unless there is a string that
Lua cannot read. -/
theorem Value.parseExpr_render {fuel : ℕ} {rest : Text} : ∀ value : Value, value.NamedKeys →
    2 * value.render.length ≤ fuel → Lua.Ends rest →
      Lua.parseExpr fuel (value.render ++ rest) =
        if value.portable then some (value.expr, rest) else none
  | .string string, _, hfuel, _ => by
    obtain ⟨fuel, rfl⟩ : ∃ f, fuel = f + 1 :=
      Nat.exists_eq_add_of_le' (by simp [Value.render, STRING.text] at hfuel; omega)
    exact parseExpr_string string rest
  | .number number, _, hfuel, hrest => by
    have hlength := number.length_text_pos
    rw [Value.render] at hfuel
    obtain ⟨fuel, rfl⟩ : ∃ f, fuel = f + 2 := Nat.exists_eq_add_of_le' (by omega)
    exact parseExpr_number number hrest
  | .obj pairs, hnamed, hfuel, _ => by
    rw [Value.render, List.length_cons, List.length_append, List.length_singleton] at hfuel
    obtain ⟨fuel, rfl⟩ : ∃ f, fuel = f + 1 := Nat.exists_eq_add_of_le' (by omega)
    rw [Value.render, List.cons_append, List.append_assoc, List.singleton_append,
      Lua.parseExpr_table, pairs.parseFields_render hnamed (by omega), Value.portable, Value.expr]
    cases pairs.portable <;> rfl
  | .arr values, hnamed, hfuel, _ => by
    rw [Value.render, List.length_cons, List.length_append, List.length_singleton] at hfuel
    obtain ⟨fuel, rfl⟩ : ∃ f, fuel = f + 1 := Nat.exists_eq_add_of_le' (by omega)
    rw [Value.render, List.cons_append, List.append_assoc, List.singleton_append,
      Lua.parseExpr_table, values.parseFields_render hnamed (by omega), Value.portable, Value.expr]
    cases values.portable <;> rfl
  | .true, _, hfuel, hrest => by
    obtain ⟨fuel, rfl⟩ : ∃ f, fuel = f + 1 := Nat.exists_eq_add_of_le' (le_trans (by decide) hfuel)
    exact Lua.parseExpr_of_token (nextToken_true hrest)
  | .false, _, hfuel, hrest => by
    obtain ⟨fuel, rfl⟩ : ∃ f, fuel = f + 1 := Nat.exists_eq_add_of_le' (le_trans (by decide) hfuel)
    exact Lua.parseExpr_of_token (nextToken_false hrest)
  | .null, _, hfuel, hrest => by
    obtain ⟨fuel, rfl⟩ : ∃ f, fuel = f + 1 := Nat.exists_eq_add_of_le' (le_trans (by decide) hfuel)
    exact Lua.parseExpr_of_token (nextToken_null hrest)

theorem Pairs.parseFields_render {fuel : ℕ} {rest : Text} : ∀ pairs : Pairs, pairs.NamedKeys →
    2 * pairs.render.length + 2 ≤ fuel →
      Lua.parseFields fuel (pairs.render ++ '}' :: rest) =
        if pairs.portable then some (pairs.fields, rest) else none
  | .nil, _, hfuel => by
    obtain ⟨fuel, rfl⟩ : ∃ f, fuel = f + 1 := Nat.exists_eq_add_of_le' (by omega)
    exact Lua.parseFields_close fuel rest
  | .cons key value pairs, ⟨hkey, hvalue, hpairs⟩, hfuel => by
    simp only [Pairs.render, List.length_append, List.length_cons] at hfuel
    obtain ⟨fuel, rfl⟩ : ∃ f, fuel = f + 1 := Nat.exists_eq_add_of_le' (by omega)
    have htail := pairs.closes rest
    have hparse : Lua.parseExpr fuel _ = _ := value.parseExpr_render hvalue (by omega) htail.ends
    have hrest : Lua.parseFields fuel (pairs.render ++ '}' :: rest) = _ :=
      pairs.parseFields_render hpairs (by omega)
    have hfield := Lua.startsField_name hkey (value.head_ne_assign
      (pairs.separatorText ++ (pairs.render ++ '}' :: rest)))
    rw [Pairs.render, Pairs.portable, Pairs.fields]
    simp only [List.append_assoc, List.cons_append]
    cases hportable : value.portable with
    | false =>
      rw [hportable] at hparse
      exact hfield.parseFields_none hparse
    | true =>
      rw [hportable] at hparse
      cases pairs with
      | nil => exact hfield.parseFields_last hparse
      | cons key' value' pairs =>
        rw [Pairs.separatorText, List.singleton_append] at hparse hfield ⊢
        rw [hfield.parseFields_cons hparse, hrest]
        cases (Pairs.cons key' value' pairs).portable <;> rfl

theorem Values.parseFields_render {fuel : ℕ} {rest : Text} : ∀ values : Values, values.NamedKeys →
    2 * values.render.length + 2 ≤ fuel →
      Lua.parseFields fuel (values.render ++ '}' :: rest) =
        if values.portable then some (values.fields, rest) else none
  | .nil, _, hfuel => by
    obtain ⟨fuel, rfl⟩ : ∃ f, fuel = f + 1 := Nat.exists_eq_add_of_le' (by omega)
    exact Lua.parseFields_close fuel rest
  | .cons value values, ⟨hvalue, hvalues⟩, hfuel => by
    simp only [Values.render, List.length_append] at hfuel
    obtain ⟨fuel, rfl⟩ : ∃ f, fuel = f + 1 := Nat.exists_eq_add_of_le' (by omega)
    have htail := values.closes rest
    have hparse : Lua.parseExpr fuel _ = _ := value.parseExpr_render hvalue (by omega) htail.ends
    have hrest : 2 * values.render.length + 2 ≤ fuel →
        Lua.parseFields fuel (values.render ++ '}' :: rest) = _ :=
      values.parseFields_render hvalues
    rw [Values.render, Values.portable, Values.fields]
    simp only [List.append_assoc]
    cases hportable : value.portable with
    | false =>
      rw [hportable] at hparse
      -- the string that Lua cannot read is the value or inside of it
      rcases value.startsField htail with hnone | hfield
      · exact Lua.parseFields_eq_none hnone
      · exact hfield.parseFields_none hparse
    | true =>
      rw [hportable] at hparse
      rcases value.startsField htail with hnone | hfield
      · rw [Lua.parseExpr_none hnone] at hparse
        exact absurd hparse (by simp)
      · cases values with
        | nil => exact hfield.parseFields_last hparse
        | cons value' values =>
          rw [Values.separatorText, List.length_singleton] at hfuel
          rw [Values.separatorText, List.singleton_append] at hparse hfield ⊢
          rw [hfield.parseFields_cons hparse, hrest (by omega)]
          cases (Values.cons value' values).portable <;> rfl

end

theorem parse_convert (json : Value) (h : json.NamedKeys) :
    Lua.parse (convert json) = if json.portable then some json.expr else none := by
  have hends : Lua.Ends [] := by simp [Lua.Ends]
  have hparse : Lua.parseExpr (2 * json.render.length + 2) (json.render ++ []) = _ :=
    json.parseExpr_render h (by omega) hends
  rw [List.append_nil] at hparse
  rw [convert_eq_render, Lua.parse, hparse]
  cases json.portable <;> rfl

/-! ## Values -/

section Evaluation

variable {N : Type} {numbers : Lua.Numbers N} {globals : Text → Lua.Value N}

mutual

theorem Value.eval_expr (hnull : globals "null".toList = .nil) : ∀ value : Value,
    value.NamedKeys → value.expr.eval numbers globals = some (value.toLua numbers)
  | .string _, _ | .true, _ | .false, _ => rfl
  -- `null` is a variable of Lua
  | .null, _ => congrArg some hnull
  | .number number, _ => by
    rw [Value.expr, Value.toLua, NUMBER.value]
    cases number.negative with
    | false => rfl
    | true =>
      show some (Lua.Value.number (numbers.neg (numbers.ofRat number.abs))) = _
      rw [numbers.neg_ofRat]
      rfl
  | .obj pairs, h => by
    rw [Value.expr, Lua.Expr.eval, pairs.assign_fields hnull h]
    show some (Lua.Value.table _) = some (Lua.Value.table _)
    congr 2
  | .arr values, h => by
    rw [Value.expr, Lua.Expr.eval, values.assign_fields hnull h fun _ _ => rfl]
    show some (Lua.Value.table _) = some (Lua.Value.table _)
    congr 2
    funext key
    cases key with
    | string _ => rfl
    | index i => cases i <;> rfl

/-- The pairs are assigned, and the last one of a key stands. -/
theorem Pairs.assign_fields (hnull : globals "null".toList = .nil) {index : ℕ}
    {get : Lua.Key → Lua.Value N} : ∀ pairs : Pairs, pairs.NamedKeys →
      pairs.fields.assign numbers globals index get = some fun
        | .string name => (pairs.get numbers name).getD (get (.string name))
        | .index i => get (.index i)
  | .nil, _ => by
    rw [Pairs.fields, Lua.Fields.assign]
    congr 1
    funext key
    cases key <;> rfl
  | .cons key value rest, ⟨hkey, hvalue, hrest⟩ => by
    have hcontent := STRING.value_eq_content hkey.2.1
    rw [Pairs.fields, Lua.Fields.assign, value.eval_expr hnull hvalue]
    show rest.fields.assign numbers globals index _ = _
    rw [rest.assign_fields hnull hrest]
    congr 1
    funext k
    cases k with
    | index i => simp
    | string name =>
      simp only [Pairs.get, hcontent]
      -- a later pair of the same key has the last word
      cases rest.get numbers name with
      | some other => rfl
      | none =>
        by_cases hname : key.content = name
        · simp [hname]
        · simp [hname, Function.update_of_ne, Ne.symm hname]

/-- The values are assigned to the indices from the next one on. -/
theorem Values.assign_fields (hnull : globals "null".toList = .nil) {index : ℕ}
    {get : Lua.Key → Lua.Value N} : ∀ values : Values, values.NamedKeys →
      (∀ i, index ≤ i → get (.index i) = .nil) →
        values.fields.assign numbers globals index get = some fun
          | .index i => if index ≤ i then values.get numbers (i - index) else get (.index i)
          | .string name => get (.string name)
  | .nil, _, hget => by
    rw [Values.fields, Lua.Fields.assign]
    congr 1
    funext key
    cases key with
    | string _ => rfl
    | index i =>
      by_cases hi : index ≤ i
      · simp [hi, hget i hi, Values.get]
      · simp [hi]
  | .cons value rest, ⟨hvalue, hrest⟩, hget => by
    have hupdate : ∀ i, index + 1 ≤ i →
        Function.update get (.index index) (value.toLua numbers) (.index i) = .nil := by
      intro i hi
      rw [Function.update_of_ne (by simp; omega)]
      exact hget i (by omega)
    rw [Values.fields, Lua.Fields.assign, value.eval_expr hnull hvalue]
    show rest.fields.assign numbers globals (index + 1) _ = _
    rw [rest.assign_fields hnull hrest hupdate]
    congr 1
    funext key
    cases key with
    | string name => simp
    | index i =>
      -- before the value, the value, and the values behind it
      rcases lt_trichotomy i index with hlt | rfl | hgt
      · simp [show ¬index + 1 ≤ i by omega, show ¬index ≤ i by omega, hlt.ne]
      · simp [Values.get]
      · obtain ⟨k, rfl⟩ : ∃ k, i = index + (k + 1) := ⟨i - index - 1, by omega⟩
        simp only [show index + 1 ≤ index + (k + 1) by omega, Nat.le_add_right, if_true,
          Nat.add_sub_cancel_left, Values.get, show index + (k + 1) - (index + 1) = k by omega]

end

/-- A document all keys of which are names in Lua is converted exactly if no string has an escape
that Lua does not have. -/
theorem converts_iff (hnull : globals "null".toList = .nil) {json : Value} (h : json.NamedKeys) :
    Converts numbers globals json ↔ json.portable = true := by
  have hparse := parse_convert json h
  constructor
  · rintro ⟨expression, hexpression, -⟩
    by_contra hportable
    rw [if_neg hportable, hexpression] at hparse
    exact absurd hparse (by simp)
  · intro hportable
    rw [if_pos hportable] at hparse
    exact ⟨json.expr, hparse, json.eval_expr hnull h⟩

end Evaluation

/-! ## Two documents -/

section Example

/-- Exact numbers. -/
def rationals : Lua.Numbers ℚ := ⟨id, Neg.neg, fun _ => rfl⟩

/-- No variables. -/
def noGlobals (_ : Text) : Lua.Value ℚ := .nil

def digit (c : Char) (h : c.isDigit = true) : NUMBER where
  negative := false
  int := ⟨[c], by simpa using h, by simp, by simp⟩
  fraction := none
  exp := none

/-- `{"x":[true,-2.5E1,null,{"y":"a\n"}]}` -/
def nestedDocument : Value :=
  .obj (.cons ⟨[.safe ⟨'x', by decide⟩]⟩
    (.arr (.cons .true (.cons
      (.number {
        negative := true
        int := (digit '2' (by decide)).int
        fraction := some ⟨['5'], by simp⟩
        exp := some ⟨true, none, (digit '1' (by decide)).int⟩ })
      (.cons .null (.cons
        (.obj (.cons ⟨[.safe ⟨'y', by decide⟩]⟩
          (.string ⟨[.safe ⟨'a', by decide⟩, .esc .n]⟩) .nil)) .nil)))))
    .nil)

theorem converts_nested : nestedDocument.NamedKeys ∧
    convert nestedDocument = "\x7bx=\x7btrue,-2.5E1,null,\x7by=\"a\\n\"\x7d\x7d\x7d".toList ∧
    Converts rationals noGlobals nestedDocument := by
  have hnamed : nestedDocument.NamedKeys := by
    refine ⟨by decide, ⟨trivial, trivial, trivial, ⟨by decide, trivial, trivial⟩, trivial⟩, trivial⟩
  exact ⟨hnamed, by decide +kernel, (converts_iff rfl hnamed).mpr (by decide +kernel)⟩

/-- `x=1,y` -/
def assignments : Text := "x=1,y".toList

/-- `{"x=1,y":2}` -/
def assignmentsDocument : Value :=
  .obj (.cons
    ⟨[.safe ⟨'x', by decide⟩, .safe ⟨'=', by decide⟩, .safe ⟨'1', by decide⟩,
      .safe ⟨',', by decide⟩, .safe ⟨'y', by decide⟩]⟩
    (.number (digit '2' (by decide))) .nil)

theorem parse_assignments : Lua.parse "\x7bx=1,y=2\x7d".toList =
    some (.table (.cons (some ['x']) (.numeral (Lua.decimal ['1'] [] 0))
      (.cons (some ['y']) (.numeral (Lua.decimal ['2'] [] 0)) .nil))) := rfl

/-- The key becomes an assignment of its own, and the name of another key. -/
theorem not_converts_assignments : convert assignmentsDocument = "\x7bx=1,y=2\x7d".toList ∧
    ¬Converts rationals noGlobals assignmentsDocument := by
  have htext : convert assignmentsDocument = "\x7bx=1,y=2\x7d".toList := by decide +kernel
  refine ⟨htext, ?_⟩
  rintro ⟨expression, hexpression, hvalue⟩
  rw [htext, parse_assignments] at hexpression
  obtain rfl := Option.some_inj.mp hexpression
  have htables := Lua.Value.table.inj (Option.some_inj.mp hvalue)
  have hkey := congrFun htables (.string assignments)
  exact absurd hkey nofun

end Example

end JsonToLua
