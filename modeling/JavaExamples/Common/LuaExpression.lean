import Mathlib.Algebra.Field.Rat
import JavaExamples.Common.Text

/-!
# Lua expressions

The expressions of Lua that hold data: constants, variables, negative numbers and table
constructors. The scanner and the parser read them from a text as those of Lua do, from version 5.2
on, and give up on what Lua does not accept, or accepts as an expression of another kind.

* `nextToken`: the scanner, `parseExpr`: the parser.
* `Expr.eval`: the value of an expression.
* `IsName`: the texts that are names.
* `nextToken_name`, `nextToken_numeral`, `nextToken_string`: what the scanner reads.
* `parseExpr_of_token`, `StartsField.parseFields_cons`: what the parser reads.

The numbers are a parameter: integers and floats, or rationals. A table holds what its constructor
has assigned last.
-/

namespace Lua

/-! ## Tokens -/

inductive Symbol where
  | openBrace
  | closeBrace
  | comma
  | semicolon
  | assign
  | minus
  deriving DecidableEq

inductive Token where
  | symbol (symbol : Symbol)
  | keyword (word : Text)
  | name (name : Text)
  | numeral (value : ℚ)
  | string (value : Text)
  /-- The end of the text. -/
  | eos
  deriving DecidableEq

def keywords : List Text :=
  ["and", "break", "do", "else", "elseif", "end", "false", "for", "function", "goto", "if", "in",
    "local", "nil", "not", "or", "repeat", "return", "then", "true", "until", "while"].map
    String.toList

def isNameChar (c : Char) : Bool := c.isAlphanum || c = '_'

/-- A letter or an underscore, and then letters, digits and underscores; and no keyword. -/
def IsName (s : Text) : Prop :=
  s.head?.any (fun c => !c.isDigit) = true ∧ s.all isNameChar = true ∧ keywords.contains s = false

instance (s : Text) : Decidable (IsName s) :=
  inferInstanceAs (Decidable (_ ∧ _ ∧ _))

def wordToken (word : Text) : Token :=
  if keywords.contains word then .keyword word else .name word

/-- The character of an escape sequence of one letter. -/
def escape : Char → Option Char
  | 'a' => some '\x07'
  | 'b' => some '\x08'
  | 'f' => some '\x0c'
  | 'n' => some '\n'
  | 'r' => some '\r'
  | 't' => some '\t'
  | 'v' => some '\x0b'
  | '\\' => some '\\'
  | '"' => some '"'
  | '\'' => some '\''
  | _ => none

/-- A string from after its opening quote on, and what is behind its closing one. -/
def readString : Text → Option (Text × Text)
  | [] => none
  | '"' :: rest => some ([], rest)
  | '\\' :: c :: rest => do
    let char ← escape c
    let (value, rest) ← readString rest
    return (char :: value, rest)
  | c :: rest =>
    if c = '\\' || c = '\n' || c = '\r' then none
    else do
      let (value, rest) ← readString rest
      return (c :: value, rest)

/-- The number that the digits before and after a point and a power of ten denote. -/
def decimal (whole fraction : Text) (exponent : ℤ) : ℚ :=
  Nat.ofDigitChars 10 (whole ++ fraction) 0 * 10 ^ (exponent - fraction.length)

/-- Digits after a point, if there is one. -/
def readFraction : Text → Text × Text
  | '.' :: rest => (rest.takeWhile Char.isDigit, rest.dropWhile Char.isDigit)
  | rest => ([], rest)

/-- A sign, if there is one. -/
def readSign : Text → Bool × Text
  | '+' :: rest => (false, rest)
  | '-' :: rest => (true, rest)
  | rest => (false, rest)

/-- A power of ten, if there is one; it has digits. -/
def readExponent : Text → Option (ℤ × Text)
  | [] => some (0, [])
  | c :: rest =>
    if c = 'e' || c = 'E' then
      let (negative, rest) := readSign rest
      let digits := rest.takeWhile Char.isDigit
      let exponent : ℤ := Nat.ofDigitChars 10 digits 0
      if digits = [] then none
      else some (if negative then -exponent else exponent, rest.dropWhile Char.isDigit)
    else some (0, c :: rest)

/-- A token that may go on with letters or a point does not. -/
def Ends (rest : Text) : Prop := ∀ c ∈ rest.head?, isNameChar c = false ∧ c ≠ '.'

instance : (rest : Text) → Decidable (Ends rest)
  | [] => .isTrue (by simp [Ends])
  | c :: _ => decidable_of_iff (isNameChar c = false ∧ c ≠ '.') (by simp [Ends])

/-- A numeral from its first digit on; one that goes on with a letter or a point is malformed. -/
def readNumeral (text : Text) : Option (ℚ × Text) := do
  let whole := text.takeWhile Char.isDigit
  let (fraction, rest) := readFraction (text.dropWhile Char.isDigit)
  let (exponent, rest) ← readExponent rest
  if Ends rest then some (decimal whole fraction exponent, rest) else none

def isSpace (c : Char) : Bool := [' ', '\t', '\n', '\x0b', '\x0c', '\r'].contains c

/-- A token that begins with neither a digit nor a letter. -/
def readSymbol (c : Char) (rest : Text) : Option (Token × Text) :=
  match c with
  | '"' => (readString rest).map (Prod.map .string id)
  | '{' => some (.symbol .openBrace, rest)
  | '}' => some (.symbol .closeBrace, rest)
  | ',' => some (.symbol .comma, rest)
  | ';' => some (.symbol .semicolon, rest)
  -- `==` and the start of a comment
  | '=' => if rest.head? = some '=' then none else some (.symbol .assign, rest)
  | '-' => if rest.head? = some '-' then none else some (.symbol .minus, rest)
  | _ => none

/-- The first token, and what is behind it. -/
def nextToken : Text → Option (Token × Text)
  | [] => some (.eos, [])
  | c :: rest =>
    if isSpace c then nextToken rest
    else if c.isDigit then (readNumeral (c :: rest)).map (Prod.map .numeral id)
    else if isNameChar c then
      some (wordToken ((c :: rest).takeWhile isNameChar), (c :: rest).dropWhile isNameChar)
    else readSymbol c rest

/-! ## Expressions -/

mutual

inductive Expr where
  | nil
  | boolean (value : Bool)
  | numeral (value : ℚ)
  | string (value : Text)
  | name (name : Text)
  | neg (operand : Expr)
  | table (fields : Fields)

/-- The fields of a table constructor, with a name or without. -/
inductive Fields where
  | nil
  | cons (name : Option Text) (value : Expr) (rest : Fields)

end

/-- The constant that a keyword is. -/
def constant (word : Text) : Option Expr :=
  if word = "nil".toList then some .nil
  else if word = "true".toList then some (.boolean true)
  else if word = "false".toList then some (.boolean false)
  else none

/-- The name of a field and the text from its expression on. It takes another token to tell a name
from an expression. -/
def fieldName (text : Text) : Option (Option Text × Text) := do
  let (token, rest) ← nextToken text
  match token with
  | .name name =>
    let (next, rest) ← nextToken rest
    return if next = .symbol .assign then (some name, rest) else (none, text)
  | _ => return (none, text)

/-- The expression that begins with a token, by what reads the operand of a minus and the fields of
a table. -/
def parseTerm (operand : Text → Option (Expr × Text)) (fields : Text → Option (Fields × Text))
    (rest : Text) : Token → Option (Expr × Text)
  | .keyword word => (constant word).map (·, rest)
  | .name name => some (.name name, rest)
  | .numeral value => some (.numeral value, rest)
  | .string value => some (.string value, rest)
  | .symbol .minus => (operand rest).map (Prod.map .neg id)
  | .symbol .openBrace => (fields rest).map (Prod.map .table id)
  | _ => none

mutual

/-- An expression, and what is behind it. -/
def parseExpr : ℕ → Text → Option (Expr × Text)
  | 0, _ => none
  | fuel + 1, text => do
    let (token, rest) ← nextToken text
    parseTerm (parseExpr fuel) (parseFields fuel) rest token

/-- The fields of a table and its closing brace. -/
def parseFields : ℕ → Text → Option (Fields × Text)
  | 0, _ => none
  | fuel + 1, text => do
    let (token, rest) ← nextToken text
    if token = .symbol .closeBrace then return (.nil, rest)
    let (name, start) ← fieldName text
    let (value, rest) ← parseExpr fuel start
    let (separator, rest) ← nextToken rest
    if separator = .symbol .closeBrace then return (.cons name value .nil, rest)
    if separator ≠ .symbol .comma ∧ separator ≠ .symbol .semicolon then none
    let (fields, rest) ← parseFields fuel rest
    return (.cons name value fields, rest)

end

/-- The expression that the whole text is. A token and a step without one take no more fuel than
this. -/
def parse (text : Text) : Option Expr := do
  let (expression, rest) ← parseExpr (2 * text.length + 2) text
  let (token, _) ← nextToken rest
  if token = .eos then some expression else none

/-! ## What the scanner reads -/

theorem takeWhile_append {p : Char → Bool} {s rest : Text} (hs : ∀ c ∈ s, p c = true)
    (hrest : ∀ c ∈ rest.head?, p c = false) : (s ++ rest).takeWhile p = s := by
  rw [List.takeWhile_append_of_pos hs]
  cases rest with
  | nil => simp
  | cons c rest => simp [hrest c rfl]

theorem dropWhile_append {p : Char → Bool} {s rest : Text} (hs : ∀ c ∈ s, p c = true)
    (hrest : ∀ c ∈ rest.head?, p c = false) : (s ++ rest).dropWhile p = rest := by
  rw [List.dropWhile_append_of_pos hs]
  cases rest with
  | nil => rfl
  | cons c rest => simp [hrest c rfl]

theorem isNameChar_of_isDigit {c : Char} (h : c.isDigit = true) : isNameChar c = true := by
  simp [isNameChar, Char.isAlphanum, h]

theorem Ends.not_nameChar {rest : Text} (h : Ends rest) : ∀ c ∈ rest.head?, isNameChar c = false :=
  fun c hc => (h c hc).1

theorem Ends.not_digit {rest : Text} (h : Ends rest) : ∀ c ∈ rest.head?, c.isDigit = false := by
  intro c hc
  by_contra hdigit
  rw [Bool.not_eq_false] at hdigit
  exact Bool.false_ne_true ((h c hc).1.symm.trans (isNameChar_of_isDigit hdigit))

theorem nextToken_cons (c : Char) (rest : Text) : nextToken (c :: rest) =
    if isSpace c then nextToken rest
    else if c.isDigit then (readNumeral (c :: rest)).map (Prod.map .numeral id)
    else if isNameChar c then
      some (wordToken ((c :: rest).takeWhile isNameChar), (c :: rest).dropWhile isNameChar)
    else readSymbol c rest := by
  rw [nextToken]

theorem isSpace_of_isNameChar {c : Char} (h : isNameChar c = true) : isSpace c = false := by
  by_contra hspace
  simp only [isSpace, Bool.not_eq_false, List.contains_iff_mem, List.mem_cons, List.not_mem_nil,
    or_false] at hspace
  obtain rfl | rfl | rfl | rfl | rfl | rfl := hspace
  all_goals exact absurd h (by decide)

theorem nextToken_word {c : Char} {s rest : Text} (hc : c.isDigit = false)
    (hs : ∀ a ∈ c :: s, isNameChar a = true) (hrest : Ends rest) :
    nextToken (c :: s ++ rest) = some (wordToken (c :: s), rest) := by
  have htake := takeWhile_append hs hrest.not_nameChar
  have hdrop := dropWhile_append hs hrest.not_nameChar
  rw [List.cons_append] at htake hdrop ⊢
  have hname := hs c List.mem_cons_self
  rw [nextToken_cons]
  simp only [hc, hname, isSpace_of_isNameChar hname, htake, hdrop, Bool.false_eq_true, if_false,
    if_true]

theorem nextToken_name {s rest : Text} (hs : IsName s) (hrest : Ends rest) :
    nextToken (s ++ rest) = some (.name s, rest) := by
  obtain ⟨hhead, hall, hkeyword⟩ := hs
  cases s with
  | nil => exact absurd hhead (by simp)
  | cons c s =>
    have hdigit : c.isDigit = false := by simpa using hhead
    rw [nextToken_word hdigit (List.all_eq_true.mp hall) hrest, wordToken, hkeyword]
    rfl

theorem nextToken_string (text : Text) :
    nextToken ('"' :: text) = (readString text).map (Prod.map .string id) := nextToken_cons '"' text

theorem nextToken_minus {rest : Text} (h : rest.head? ≠ some '-') :
    nextToken ('-' :: rest) = some (.symbol .minus, rest) :=
  (nextToken_cons '-' rest).trans (if_neg h)

theorem nextToken_assign {rest : Text} (h : rest.head? ≠ some '=') :
    nextToken ('=' :: rest) = some (.symbol .assign, rest) :=
  (nextToken_cons '=' rest).trans (if_neg h)

/-! ### Strings -/

@[simp]
theorem readString_quote (rest : Text) : readString ('"' :: rest) = some ([], rest) := rfl

theorem readString_escape (c : Char) (rest : Text) :
    readString ('\\' :: c :: rest) =
      (escape c).bind fun char => (readString rest).map (Prod.map (char :: ·) id) := by
  rw [readString]
  cases escape c with
  | none => rfl
  | some char => cases readString rest <;> rfl

theorem readString_cons {c : Char} (hquote : c ≠ '"') (hslash : c ≠ '\\') (hn : c ≠ '\n')
    (hr : c ≠ '\r') (rest : Text) :
    readString (c :: rest) = (readString rest).map (Prod.map (c :: ·) id) := by
  rw [readString]
  · simp only [hslash, hn, hr, decide_false, Bool.or_self, Bool.false_eq_true, if_false]
    cases readString rest <;> rfl
  · exact hquote
  · exact fun _ _ h => absurd h hslash

/-! ### Numerals -/

theorem readFraction_of_ne {rest : Text} (h : rest.head? ≠ some '.') :
    readFraction rest = ([], rest) := by
  rw [readFraction]
  rintro rest rfl
  exact h rfl

theorem readFraction_point {digits rest : Text} (hdigits : ∀ c ∈ digits, c.isDigit = true)
    (hrest : ∀ c ∈ rest.head?, c.isDigit = false) :
    readFraction ('.' :: (digits ++ rest)) = (digits, rest) := by
  rw [readFraction, takeWhile_append hdigits hrest, dropWhile_append hdigits hrest]

theorem readExponent_of_ends {rest : Text} (h : Ends rest) :
    readExponent rest = some (0, rest) := by
  cases rest with
  | nil => rfl
  | cons c rest =>
    -- an `e` would be part of the numeral
    have hc : c ≠ 'e' ∧ c ≠ 'E' := by
      constructor
      all_goals
        rintro rfl
        exact absurd (h _ rfl).1 (by decide)
    simp [readExponent, hc]

/-- The digits of an exponent, with its sign read. -/
theorem readExponent_append {c : Char} {text digits rest : Text} {negative : Bool}
    (hc : c = 'e' ∨ c = 'E') (hsign : readSign text = (negative, digits ++ rest))
    (hne : digits ≠ []) (hdigits : ∀ c ∈ digits, c.isDigit = true) (hrest : Ends rest) :
    readExponent (c :: text) =
      some (if negative then -(Nat.ofDigitChars 10 digits 0 : ℤ) else Nat.ofDigitChars 10 digits 0,
        rest) := by
  have htake := takeWhile_append hdigits hrest.not_digit
  have hdrop := dropWhile_append hdigits hrest.not_digit
  rw [readExponent, if_pos (by simpa using hc), hsign]
  simp only [htake, hdrop, hne, if_false]

theorem nextToken_numeral {text rest : Text} {value : ℚ}
    (hdigit : ∃ c ∈ text.head?, c.isDigit = true) (h : readNumeral text = some (value, rest)) :
    nextToken text = some (.numeral value, rest) := by
  obtain ⟨c, hc, hdigit⟩ := hdigit
  cases text with
  | nil => exact absurd hc (by simp)
  | cons a text =>
    obtain rfl : a = c := by simpa using hc
    have hspace := isSpace_of_isNameChar (isNameChar_of_isDigit hdigit)
    rw [nextToken_cons, hspace, hdigit, h]
    rfl

/-! ## What the parser reads -/

section Rules

variable {fuel : ℕ} {text rest : Text}

theorem parseExpr_succ (fuel : ℕ) (text : Text) : parseExpr (fuel + 1) text =
    (nextToken text).bind fun next =>
      parseTerm (parseExpr fuel) (parseFields fuel) next.2 next.1 := by
  rw [parseExpr]
  rfl

theorem parseExpr_of_token {token : Token} (h : nextToken text = some (token, rest)) :
    parseExpr (fuel + 1) text = parseTerm (parseExpr fuel) (parseFields fuel) rest token := by
  rw [parseExpr_succ, h]
  rfl

theorem parseExpr_none (h : nextToken text = none) : parseExpr fuel text = none := by
  cases fuel with
  | zero => rw [parseExpr]
  | succ fuel =>
    rw [parseExpr_succ, h]
    rfl

theorem parseExpr_minus (h : rest.head? ≠ some '-') :
    parseExpr (fuel + 1) ('-' :: rest) = (parseExpr fuel rest).map (Prod.map .neg id) :=
  parseExpr_of_token (nextToken_minus h)

theorem parseExpr_table (fuel : ℕ) (rest : Text) :
    parseExpr (fuel + 1) ('{' :: rest) = (parseFields fuel rest).map (Prod.map .table id) :=
  parseExpr_of_token (nextToken_cons '{' rest)

theorem parseFields_close (fuel : ℕ) (rest : Text) :
    parseFields (fuel + 1) ('}' :: rest) = some (.nil, rest) := by
  rw [parseFields, nextToken_cons]
  rfl

/-- The text begins with a field. -/
def StartsField (text : Text) (name : Option Text) (start : Text) : Prop :=
  (∀ rest, nextToken text ≠ some (.symbol .closeBrace, rest)) ∧ fieldName text = some (name, start)

theorem startsField_name {name : Text} (hname : IsName name) (h : rest.head? ≠ some '=') :
    StartsField (name ++ '=' :: rest) (some name) rest := by
  have hends : Ends ('=' :: rest) := by
    intro c hc
    obtain rfl : '=' = c := by simpa using hc
    decide
  have htoken := nextToken_name hname hends
  have hassign := nextToken_assign h
  constructor
  · intro rest' hclose
    rw [htoken] at hclose
    simp at hclose
  · simp [fieldName, htoken, hassign]

/-- A text that begins with a token that is no name. -/
theorem startsField_of_ne {token : Token} (htoken : nextToken text = some (token, rest))
    (hclose : token ≠ .symbol .closeBrace) (hname : ∀ name, token ≠ .name name) :
    StartsField text none text := by
  constructor
  · intro rest' h
    rw [htoken] at h
    exact hclose (by simpa using congrArg (Option.map Prod.fst) h)
  · rw [fieldName, htoken]
    cases token with
    | name name => exact absurd rfl (hname name)
    | _ => rfl

/-- A text that begins with a variable. -/
theorem startsField_variable {name rest' : Text} {next : Token}
    (htoken : nextToken text = some (.name name, rest))
    (hnext : nextToken rest = some (next, rest')) (hne : next ≠ .symbol .assign) :
    StartsField text none text := by
  constructor
  · intro rest' h
    rw [htoken] at h
    simp at h
  · simp [fieldName, htoken, hnext, hne]

variable {name : Option Text} {start : Text} {value : Expr}

/-- A field, and then the closing brace or a separator and the fields behind it. -/
theorem StartsField.parseFields_eq (h : StartsField text name start) :
    parseFields (fuel + 1) text = (parseExpr fuel start).bind fun parsed =>
      (nextToken parsed.2).bind fun separator =>
        if separator.1 = .symbol .closeBrace then some (.cons name parsed.1 .nil, separator.2)
        else if separator.1 ≠ .symbol .comma ∧ separator.1 ≠ .symbol .semicolon then none
        else (parseFields fuel separator.2).map (Prod.map (.cons name parsed.1) id) := by
  obtain ⟨hclose, hfield⟩ := h
  -- the first token has been read to see whether there is a name
  cases htoken : nextToken text with
  | none =>
    rw [fieldName, htoken] at hfield
    simp at hfield
  | some first =>
    obtain ⟨token, rest⟩ := first
    have hne : token ≠ .symbol .closeBrace := fun heq => hclose rest (heq ▸ htoken)
    simp only [parseFields, htoken, hfield, hne, Option.bind_eq_bind, Option.bind_some, if_false]
    cases parseExpr fuel start with
    | none => rfl
    | some parsed =>
      simp only [Option.bind_some]
      cases nextToken parsed.2 with
      | none => rfl
      | some separator =>
        simp only [Option.bind_some]
        split
        · rfl
        · split
          · rfl
          · cases parseFields fuel separator.2 <;> rfl

theorem StartsField.parseFields_none (h : StartsField text name start)
    (hvalue : parseExpr fuel start = none) : parseFields (fuel + 1) text = none := by
  rw [h.parseFields_eq, hvalue]
  rfl

theorem StartsField.parseFields_last (h : StartsField text name start)
    (hvalue : parseExpr fuel start = some (value, '}' :: rest)) :
    parseFields (fuel + 1) text = some (.cons name value .nil, rest) := by
  rw [h.parseFields_eq, hvalue]
  rfl

theorem StartsField.parseFields_cons (h : StartsField text name start)
    (hvalue : parseExpr fuel start = some (value, ',' :: rest)) :
    parseFields (fuel + 1) text =
      (parseFields fuel rest).map (Prod.map (.cons name value) id) := by
  rw [h.parseFields_eq, hvalue]
  rfl

theorem parseFields_eq_none (h : nextToken text = none) : parseFields fuel text = none := by
  cases fuel with
  | zero => rfl
  | succ fuel =>
    rw [parseFields, h]
    rfl

end Rules

/-! ## Values -/

inductive Key where
  | index (index : ℕ)
  | string (value : Text)
  deriving DecidableEq

/-- A table is what it holds at its keys. -/
inductive Value (N : Type) where
  | nil
  | boolean (value : Bool)
  | number (value : N)
  | string (value : Text)
  | table (get : Key → Value N)

/-- Numbers, and what a numeral is rounded to. -/
structure Numbers (N : Type) where
  ofRat : ℚ → N
  neg : N → N
  neg_ofRat : ∀ q, neg (ofRat q) = ofRat (-q)

section Evaluation

variable {N : Type} (numbers : Numbers N) (globals : Text → Value N)

mutual

/-- The value of an expression. -/
def Expr.eval : Expr → Option (Value N)
  | .nil => some .nil
  | .boolean value => some (.boolean value)
  | .numeral value => some (.number (numbers.ofRat value))
  | .string value => some (.string value)
  | .name name => some (globals name)
  | .neg operand => do
    match ← operand.eval with
    | .number value => some (.number (numbers.neg value))
    | _ => none
  | .table fields => do
    let get ← fields.assign 1 fun _ => .nil
    return .table get

/-- The table after the fields have been assigned; those without names get the next indices. -/
def Fields.assign (index : ℕ) (get : Key → Value N) : Fields → Option (Key → Value N)
  | .nil => some get
  | .cons none value rest => do
    let value ← value.eval
    rest.assign (index + 1) (Function.update get (.index index) value)
  | .cons (some name) value rest => do
    let value ← value.eval
    rest.assign index (Function.update get (.string name) value)

end

end Evaluation

end Lua
