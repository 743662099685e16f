import Mathlib.Data.List.DropRight
import Mathlib.Tactic.Common

/-!
# Text

Strings as lists of characters, with the library operations on them that header and token parsers
use. Splitting at a separator is `List.splitOn`.

* `isSpace` — the Unicode property White_Space.
* `trimSpace` — the text without its leading and trailing white space.
* `cut` — the parts before and after the first occurrence of a separator.
* `tokenize`, `split` — the parts of a text for a `StringTokenizer` and for `String.split`.
* `lines` — the lines of a text for `BufferedReader.readLine`.
* `isBlank` — whether a text holds nothing but what Java calls white space.
* `ofInt` — the decimal notation of a number, which no other number has (`ofInt_injective`).
* `equalsIgnoreCase` — equality up to case, for comparisons with ASCII texts.

`trimSpace_append_cons` says that trimming leaves alone everything up to a character that is not
white space, if the text starts with none.
-/

/-- A string, as its list of characters. -/
abbrev Text := List Char

namespace Text

/-! ## Trimming -/

/-- The characters with the Unicode property White_Space. -/
def isSpace (c : Char) : Bool :=
  (9 ≤ c.toNat && c.toNat ≤ 13) || c.toNat == 32 || c.toNat == 0x85 || c.toNat == 0xA0 ||
    c.toNat == 0x1680 || (0x2000 ≤ c.toNat && c.toNat ≤ 0x200A) || c.toNat == 0x2028 ||
    c.toNat == 0x2029 || c.toNat == 0x202F || c.toNat == 0x205F || c.toNat == 0x3000

/-- The text without leading and trailing white space. -/
def trimSpace (s : Text) : Text := (s.dropWhile isSpace).rdropWhile isSpace

/-- Dropping from the right stops at the last element that does not qualify, whatever stands
before it. -/
theorem rdropWhile_append_cons {α : Type*} {p : α → Bool} {xs ys : List α} {y : α}
    (hy : p y = false) :
    (xs ++ y :: ys).rdropWhile p = xs ++ y :: ys.rdropWhile p := by
  induction ys using List.reverseRecOn with
  | nil => rw [List.rdropWhile_concat_neg _ _ _ (by simp [hy]), List.rdropWhile_nil]
  | append_singleton ys z ih =>
    have hcons : xs ++ y :: (ys ++ [z]) = (xs ++ y :: ys) ++ [z] := by simp
    rw [hcons]
    by_cases hz : p z
    · rw [List.rdropWhile_concat_pos _ _ _ hz, List.rdropWhile_concat_pos _ _ _ hz, ih]
    · rw [List.rdropWhile_concat_neg _ _ _ hz, List.rdropWhile_concat_neg _ _ _ hz, hcons]

/-- A text with no white space at its ends is its own trimming. -/
theorem rdropWhile_eq_self {α : Type*} {p : α → Bool} {xs : List α}
    (h : ∀ x ∈ xs, p x = false) : xs.rdropWhile p = xs := by
  rw [List.rdropWhile_eq_self_iff]
  intro hne
  simp [h _ (List.getLast_mem hne)]

/-- A text that trimming leaves nothing of is white space throughout. -/
theorem isSpace_of_trimSpace_eq_nil {s : Text} (h : trimSpace s = []) {c : Char} (hc : c ∈ s) :
    isSpace c := by
  rw [trimSpace, List.rdropWhile_eq_nil_iff] at h
  -- were there a character left at the front, it would be no white space
  have hdrop : s.dropWhile isSpace = [] := by
    rcases hs : s.dropWhile isSpace with _ | ⟨d, rest⟩
    · rfl
    · have hd : isSpace d := h d (by rw [hs]; exact List.mem_cons_self)
      have hne : s.dropWhile isSpace ≠ [] := by
        rw [hs]
        exact List.cons_ne_nil d rest
      have hfront := List.head_dropWhile_not isSpace hne
      simp only [hs, List.head_cons] at hfront
      rw [hd] at hfront
      cases hfront
  exact List.dropWhile_eq_nil_iff.mp hdrop c hc

/-- Trimming a text that starts with none of the white space leaves it unchanged up to any
character that is not white space. -/
theorem trimSpace_append_cons {xs ys : Text} {y : Char} (hxs : ∀ x ∈ xs, isSpace x = false)
    (hy : isSpace y = false) :
    trimSpace (xs ++ y :: ys) = xs ++ y :: ys.rdropWhile isSpace := by
  have hdrop : (xs ++ y :: ys).dropWhile isSpace = xs ++ y :: ys := by
    cases xs with
    | nil => simp [hy]
    | cons x xs => simp [hxs x List.mem_cons_self]
  rw [trimSpace, hdrop, rdropWhile_append_cons hy]

/-! ## Cutting at a separator -/

/-- The parts of `s` before and after the first `sep`, if there is one. -/
def cut (sep : Char) : Text → Option (Text × Text)
  | [] => none
  | c :: s => if c = sep then some ([], s) else (cut sep s).map fun p => (c :: p.1, p.2)

/-- A text is cut at the separator that its first part does not contain. -/
theorem cut_append_cons {sep : Char} {xs ys : Text} (h : sep ∉ xs) :
    cut sep (xs ++ sep :: ys) = some (xs, ys) := by
  induction xs with
  | nil => simp [cut]
  | cons x xs ih =>
    rw [List.mem_cons, not_or] at h
    simp [cut, Ne.symm h.1, ih h.2]

/-- A text without the separator is not cut. -/
theorem cut_eq_none {sep : Char} {s : Text} (h : sep ∉ s) : cut sep s = none := by
  induction s with
  | nil => rfl
  | cons c s ih =>
    rw [List.mem_cons, not_or] at h
    rw [cut, if_neg (Ne.symm h.1), ih h.2, Option.map_none]

/-! ## Java's tokens -/

/-- The tokens of a `StringTokenizer`: none of them is empty. -/
def tokenize (delim : Char) (s : Text) : List Text := (s.splitOn delim).filter (· ≠ [])

/-- `String.split` by a single character: empty strings at the end are left out, and a text without
the separator is its own and only part. -/
def split (sep : Char) (s : Text) : List Text :=
  if sep ∈ s then (s.splitOn sep).rdropWhile (·.isEmpty) else [s]

/-- No part of a split holds the separator, and all characters of the parts are in the text. -/
theorem notMem_and_subset_of_mem_splitOn {sep : Char} {s part : Text} (h : part ∈ s.splitOn sep) :
    sep ∉ part ∧ part ⊆ s := by
  induction s generalizing part with
  | nil =>
    rw [List.splitOn_nil, List.mem_singleton] at h
    subst h
    exact ⟨List.not_mem_nil, List.Subset.refl _⟩
  | cons c s ih =>
    rw [List.splitOn_cons_eq_if_modifyHead] at h
    split at h
    · next hc =>
      rcases List.mem_cons.mp h with rfl | h
      · exact ⟨List.not_mem_nil, List.nil_subset _⟩
      · exact ⟨(ih h).1, List.subset_cons_of_subset _ (ih h).2⟩
    · next hc =>
      -- the first part gets longer by `c`, the others stay
      obtain ⟨first, rest, hsplit⟩ := List.exists_cons_of_ne_nil (List.splitOn_ne_nil sep s)
      rw [hsplit, List.modifyHead_cons] at h
      rcases List.mem_cons.mp h with rfl | h
      · obtain ⟨hsep, hsub⟩ := ih (hsplit ▸ List.mem_cons_self)
        refine ⟨fun hmem => ?_, List.cons_subset_cons c hsub⟩
        rcases List.mem_cons.mp hmem with rfl | hmem
        · exact hc (beq_self_eq_true sep)
        · exact hsep hmem
      · have hpart := ih (hsplit ▸ List.mem_cons_of_mem _ h)
        exact ⟨hpart.1, List.subset_cons_of_subset _ hpart.2⟩

theorem notMem_of_mem_tokenize {delim : Char} {s token : Text} (h : token ∈ tokenize delim s) :
    delim ∉ token :=
  (notMem_and_subset_of_mem_splitOn (List.mem_of_mem_filter h)).1

theorem notMem_and_subset_of_mem_split {sep : Char} {s part : Text} (h : part ∈ split sep s) :
    sep ∉ part ∧ part ⊆ s := by
  rw [split] at h
  split at h
  · exact notMem_and_subset_of_mem_splitOn ((List.rdropWhile_prefix _ _).mem h)
  · next hsep =>
    rw [List.mem_singleton] at h
    subst h
    exact ⟨hsep, List.Subset.refl _⟩

/-- Lines that are not empty are the tokens of their text. -/
theorem tokenize_flatMap {α : Type*} {delim : Char} {f : α → Text} {xs : List α}
    (h : ∀ x ∈ xs, f x ≠ [] ∧ delim ∉ f x) :
    tokenize delim (xs.flatMap fun x => f x ++ [delim]) = xs.map f := by
  induction xs with
  | nil => simp [tokenize, List.splitOn_nil]
  | cons x xs ih =>
    obtain ⟨hne, hdelim⟩ := h x List.mem_cons_self
    have hline : (x :: xs).flatMap (fun x => f x ++ [delim]) =
        f x ++ delim :: xs.flatMap fun x => f x ++ [delim] := by simp
    have hrest := ih fun y hy => h y (List.mem_cons_of_mem _ hy)
    rw [tokenize] at hrest
    rw [tokenize, hline, List.splitOn_append_cons_self, List.splitOn_eq_singleton hdelim,
      List.filter_append, hrest]
    simp [hne]

/-- A text with one separator and something behind it has two parts. -/
theorem split_append_cons {sep : Char} {xs ys : Text} (hxs : sep ∉ xs) (hys : sep ∉ ys)
    (hne : ys ≠ []) : split sep (xs ++ sep :: ys) = [xs, ys] := by
  have hlast : ([xs] ++ [ys] : List Text).rdropWhile (·.isEmpty) = [xs] ++ [ys] :=
    List.rdropWhile_concat_neg _ _ _ (by simpa using hne)
  rw [split, if_pos (by simp), List.splitOn_append_cons_self, List.splitOn_eq_singleton hxs,
    List.splitOn_eq_singleton hys, hlast]
  rfl

/-- With nothing behind the separator there is no second part. -/
theorem length_split_append_singleton {sep : Char} {xs : Text} (hxs : sep ∉ xs) :
    (split sep (xs ++ [sep])).length ≤ 1 := by
  have hlast : ([xs] ++ [[]] : List Text).rdropWhile (·.isEmpty) =
      [xs].rdropWhile (·.isEmpty) := List.rdropWhile_concat_pos _ _ _ rfl
  rw [split, if_pos (by simp), List.splitOn_append_cons_self, List.splitOn_eq_singleton hxs,
    List.splitOn_nil, hlast]
  exact (List.rdropWhile_prefix _ _).length_le

/-! ## Java's lines -/

/-- The lines that `BufferedReader.readLine` returns from `s` until it returns `null`, where `line`
is what the reader holds of the first one. -/
def linesFrom (line : Text) : Text → List Text
  | [] => if line = [] then [] else [line]
  | '\n' :: s => line :: linesFrom [] s
  | '\r' :: '\n' :: s => line :: linesFrom [] s
  | '\r' :: s => line :: linesFrom [] s
  | c :: s => linesFrom (line ++ [c]) s

def lines (s : Text) : List Text := linesFrom [] s

/-- A line ends at its line feed. -/
theorem linesFrom_append_cons {line xs s : Text} (h : ∀ c ∈ xs, c ≠ '\n' ∧ c ≠ '\r') :
    linesFrom line (xs ++ '\n' :: s) = (line ++ xs) :: linesFrom [] s := by
  induction xs generalizing line with
  | nil => rw [List.nil_append, linesFrom, List.append_nil]
  | cons c xs ih =>
    obtain ⟨⟨hfeed, hreturn⟩, hrest⟩ := List.forall_mem_cons.mp h
    rw [List.cons_append, linesFrom, ih hrest, List.append_assoc, List.singleton_append]
    · rintro rfl
      exact hfeed rfl
    · rintro s' rfl
      exact absurd rfl hreturn
    · rintro rfl
      exact hreturn rfl

/-- Texts without line breaks are the lines of the text that ends each of them with a line feed. -/
theorem lines_flatMap {α : Type*} {f : α → Text} {xs : List α}
    (h : ∀ x ∈ xs, ∀ c ∈ f x, c ≠ '\n' ∧ c ≠ '\r') :
    lines (xs.flatMap fun x => f x ++ ['\n']) = xs.map f := by
  induction xs with
  | nil => rfl
  | cons x xs ih =>
    obtain ⟨hx, hrest⟩ := List.forall_mem_cons.mp h
    have hline : (x :: xs).flatMap (fun x => f x ++ ['\n']) =
        f x ++ '\n' :: xs.flatMap fun x => f x ++ ['\n'] := by simp
    rw [lines, hline, linesFrom_append_cons hx, List.nil_append, List.map_cons]
    exact congrArg _ (ih hrest)

/-! ## Java's white space -/

/-- `Character.isWhitespace`: separators that are not non-breaking, and some control characters. -/
def isWhitespace (c : Char) : Bool :=
  (9 ≤ c.toNat && c.toNat ≤ 13) || (0x1C ≤ c.toNat && c.toNat ≤ 0x20) || c.toNat == 0x1680 ||
    (0x2000 ≤ c.toNat && c.toNat ≤ 0x200A && c.toNat != 0x2007) || c.toNat == 0x2028 ||
    c.toNat == 0x2029 || c.toNat == 0x205F || c.toNat == 0x3000

/-- `StringUtils.isBlank`, the empty text included. -/
def isBlank (s : Text) : Bool := s.all isWhitespace

/-! ## Comparison without case -/

/-- The lower-case ASCII letter that Java's case mappings take a character to, if there is one:
besides the upper-case letters, four characters outside of ASCII have one. -/
def foldCase (c : Char) : Char :=
  if 65 ≤ c.toNat ∧ c.toNat ≤ 90 then Char.ofNat (c.toNat + 32)
  else if c.toNat = 0x17F then 's'  -- long s
  else if c.toNat = 0x212A then 'k'  -- Kelvin sign
  else if c.toNat = 0x130 ∨ c.toNat = 0x131 then 'i'  -- with a dot above, and without one
  else c

/-- `String.equalsIgnoreCase`, where one of the two texts is ASCII. -/
def equalsIgnoreCase (s t : Text) : Bool := s.map foldCase = t.map foldCase

theorem equalsIgnoreCase_self (s : Text) : equalsIgnoreCase s s := decide_eq_true rfl

/-! ## Numbers -/

/-- `Integer.toString`. -/
def ofInt : ℤ → Text
  | .ofNat n => Nat.toDigits 10 n
  | .negSucc n => '-' :: Nat.toDigits 10 (n + 1)

theorem toDigits_injective {m n : ℕ} (h : Nat.toDigits 10 m = Nat.toDigits 10 n) : m = n := by
  have hread := congrArg (fun digits => Nat.ofDigitChars 10 digits 0) h
  simpa only [Nat.ofDigitChars_ten_toDigits] using hread

/-- Digits do not start with a minus sign. -/
theorem toDigits_ne_minus_cons (m : ℕ) (digits : List Char) :
    Nat.toDigits 10 m ≠ '-' :: digits := by
  intro h
  have hmem : '-' ∈ Nat.toDigits 10 m := by
    rw [h]
    exact List.mem_cons_self
  have hdigit := Nat.isDigit_of_mem_toDigits (by decide) (by decide) hmem
  revert hdigit
  decide

theorem ofInt_injective : Function.Injective ofInt := by
  intro i j h
  cases i with
  | ofNat m =>
    cases j with
    | ofNat n => exact congrArg Int.ofNat (toDigits_injective h)
    | negSucc n => exact absurd h (toDigits_ne_minus_cons m _)
  | negSucc m =>
    cases j with
    | ofNat n => exact absurd h.symm (toDigits_ne_minus_cons n _)
    | negSucc n =>
      have hdigits := toDigits_injective (List.cons.inj h).2
      exact congrArg Int.negSucc (Nat.succ.inj hdigits)

end Text
