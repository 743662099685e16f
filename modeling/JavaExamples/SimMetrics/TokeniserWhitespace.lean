import JavaExamples.SimMetrics.QGramsDistance
import Mathlib.Data.List.TakeWhile

/-!
# Tokens between white space

The loop of `TokeniserWhitespace` steps over a letter if `Character.isWhitespace` says so, but cuts
at five delimiters, and the last of them, the non-breaking space, is no white space to Java.

* `tokenize_returns`: without non-breaking spaces, the tokens are the parts of the string between
  the delimiters, once a first letter that is white space is left out.
* With one, the loop stays where it is and never ends.
-/

namespace SimMetrics

namespace TokeniserWhitespace

def delimiters : List JavaChar := [0x0D, 0x0A, 0x09, 0x20, 0xA0]

/-- `Character.isWhitespace`: separators that are not non-breaking, and some control characters. -/
def isWhitespace (ch : JavaChar) : Bool :=
  (9 ≤ ch.toNat && ch.toNat ≤ 13) || (0x1C ≤ ch.toNat && ch.toNat ≤ 0x20) || ch.toNat == 0x1680 ||
    (0x2000 ≤ ch.toNat && ch.toNat ≤ 0x200A && ch.toNat != 0x2007) || ch.toNat == 0x2028 ||
    ch.toNat == 0x2029 || ch.toNat == 0x205F || ch.toNat == 0x3000

/-- Whether nothing is left of a term when it is trimmed of the letters up to the space. -/
def isTrimmedAway (term : JavaString) : Bool := term.all fun ch => ch.toNat ≤ 0x20

def indexOf (s : JavaString) (ch : JavaChar) (fromIndex : ℕ) : Option ℕ :=
  ((s.drop fromIndex).idxOf? ch).map fun i => i + fromIndex

/-- The earlier one of a position and one that may have been found. -/
def earlier (nextGapPos : ℕ) : Option ℕ → ℕ
  | some testPos => if testPos < nextGapPos then testPos else nextGapPos
  | none => nextGapPos

/-- The loop over the delimiters. -/
def nextGapPos (input : JavaString) (curPos : ℕ) : ℕ :=
  delimiters.foldl (fun nextGapPos delimiter =>
    earlier nextGapPos (indexOf input delimiter curPos)) input.length

def keeps (isWord : JavaString → Bool) (term : JavaString) : Bool :=
  ¬isWord term ∧ ¬isTrimmedAway term

/-- One round of the loop at a position inside of `input`. -/
def pass (isWord : JavaString → Bool) (input : JavaString) (state : List JavaString × ℕ) :
    List JavaString × ℕ :=
  let (returnVect, curPos) := state
  let curPos := if (input[curPos]?).any isWhitespace then curPos + 1 else curPos
  let term := (input.take (nextGapPos input curPos)).drop curPos
  (if keeps isWord term then returnVect ++ [term] else returnVect, nextGapPos input curPos)

/-- The loop, for as many rounds as there is fuel. -/
def tokenize (isWord : JavaString → Bool) (input : JavaString) :
    ℕ → List JavaString × ℕ → Option (List JavaString)
  | 0, _ => none
  | fuel + 1, state =>
    if state.2 < input.length then tokenize isWord input fuel (pass isWord input state)
    else some state.1

/-! ## The next delimiter -/

theorem earlier_zero (found : Option ℕ) : earlier 0 found = 0 := by
  cases found <;> rfl

theorem earlier_some_zero (n : ℕ) : earlier n (some 0) = 0 := by
  cases n <;> rfl

theorem earlier_add (n k : ℕ) (found : Option ℕ) :
    earlier (n + k) (found.map fun i => i + k) = earlier n found + k := by
  cases found with
  | none => rfl
  | some i =>
    simp only [Option.map_some, earlier, Nat.add_lt_add_iff_right]
    split <;> rfl

/-- How far a string goes without a delimiter. -/
def gap (delimiters : List JavaChar) (s : JavaString) : ℕ :=
  (s.takeWhile fun ch => ch ∉ delimiters).length

theorem gap_cons_of_mem {delimiters : List JavaChar} {ch : JavaChar} (h : ch ∈ delimiters)
    (rest : JavaString) : gap delimiters (ch :: rest) = 0 := by
  simp [gap, h]

theorem gap_cons_of_notMem {delimiters : List JavaChar} {ch : JavaChar} (h : ch ∉ delimiters)
    (rest : JavaString) : gap delimiters (ch :: rest) = gap delimiters rest + 1 := by
  simp [gap, h]

theorem gap_nil (s : JavaString) : gap [] s = s.length := by
  induction s with
  | nil => rfl
  | cons ch rest ih => rw [gap_cons_of_notMem List.not_mem_nil, ih, List.length_cons]

theorem take_gap (delimiters : List JavaChar) (s : JavaString) :
    s.take (gap delimiters s) = s.takeWhile fun ch => ch ∉ delimiters :=
  (List.prefix_iff_eq_take.mp (List.takeWhile_prefix _)).symm

theorem drop_gap (delimiters : List JavaChar) (s : JavaString) :
    s.drop (gap delimiters s) = s.dropWhile fun ch => ch ∉ delimiters := by
  induction s with
  | nil => rfl
  | cons ch rest ih =>
    by_cases h : ch ∈ delimiters
    · rw [gap_cons_of_mem h, List.drop_zero, List.dropWhile_cons_of_neg (by simpa using h)]
    · rw [gap_cons_of_notMem h, List.drop_succ_cons, ih,
        List.dropWhile_cons_of_pos (by simpa using h)]

/-- Looking for one more delimiter cuts at it too. -/
theorem earlier_gap (known : List JavaChar) (delimiter : JavaChar) (rest : JavaString) :
    earlier (gap known rest) (rest.idxOf? delimiter) = gap (known ++ [delimiter]) rest := by
  induction rest with
  | nil => rfl
  | cons ch rest ih =>
    rw [List.idxOf?_cons]
    -- whether the first letter is the new delimiter, one that is known, or neither
    by_cases hdelimiter : ch = delimiter
    · have hmem : ch ∈ known ++ [delimiter] := by simp [hdelimiter]
      rw [if_pos (beq_iff_eq.mpr hdelimiter), gap_cons_of_mem hmem, earlier_some_zero]
    rw [if_neg (by simpa using hdelimiter)]
    by_cases hknown : ch ∈ known
    · rw [gap_cons_of_mem hknown, gap_cons_of_mem (List.mem_append_left _ hknown), earlier_zero]
    · rw [gap_cons_of_notMem hknown, earlier_add, ih, gap_cons_of_notMem]
      simp [hknown, hdelimiter]

theorem foldl_earlier (input : JavaString) (curPos : ℕ) (known further : List JavaChar) :
    further.foldl (fun nextGapPos delimiter =>
        earlier nextGapPos (indexOf input delimiter curPos))
      (gap known (input.drop curPos) + curPos) =
      gap (known ++ further) (input.drop curPos) + curPos := by
  induction further generalizing known with
  | nil => rw [List.foldl_nil, List.append_nil]
  | cons delimiter further ih =>
    rw [List.foldl_cons, indexOf, earlier_add, earlier_gap, ih, List.append_assoc,
      List.singleton_append]

/-- The loop over the delimiters finds the first of them. -/
theorem nextGapPos_eq {input : JavaString} {curPos : ℕ} (h : curPos ≤ input.length) :
    nextGapPos input curPos = gap delimiters (input.drop curPos) + curPos := by
  -- before the loop no delimiter is known
  have hnone : gap [] (input.drop curPos) + curPos = input.length := by
    rw [gap_nil, List.length_drop, Nat.sub_add_cancel h]
  have hfold := foldl_earlier input curPos [] delimiters
  rw [hnone, List.nil_append] at hfold
  exact hfold

/-! ## One round -/

section Pass

variable {input : JavaString} {curPos : ℕ}

def isDelimiter (ch : JavaChar) : Bool := ch ∈ delimiters

theorem isWhitespace_of_isDelimiter {ch : JavaChar} (h : isDelimiter ch = true) (hne : ch ≠ 0xA0) :
    isWhitespace ch = true := by
  simp only [isDelimiter, delimiters, decide_eq_true_eq, List.mem_cons, List.not_mem_nil,
    or_false] at h
  rcases h with rfl | rfl | rfl | rfl | rfl
  · decide
  · decide
  · decide
  · decide
  · exact absurd rfl hne

/-- Where a round begins: a first letter that is white space is left out. -/
def skipWhitespace : JavaString → JavaString
  | [] => []
  | ch :: rest => if isWhitespace ch then rest else ch :: rest

theorem mem_skipWhitespace {s : JavaString} (h : 0xA0 ∈ s) : 0xA0 ∈ skipWhitespace s := by
  cases s with
  | nil => exact h
  | cons ch rest =>
    rw [skipWhitespace]
    split
    · rename_i hwhitespace
      rcases List.mem_cons.mp h with rfl | h
      · exact absurd hwhitespace (by decide)
      · exact h
    · exact h

theorem mem_of_mem_skipWhitespace {s : JavaString} {ch : JavaChar} (h : ch ∈ skipWhitespace s) :
    ch ∈ s := by
  cases s with
  | nil => exact h
  | cons first rest =>
    rw [skipWhitespace] at h
    split at h
    · exact List.mem_cons_of_mem _ h
    · exact h

/-- The first letter does not stay in front, as it is white space or no delimiter. -/
theorem length_dropWhile_le {ch : JavaChar} (rest : JavaString) (hne : ch ≠ 0xA0) :
    ((skipWhitespace (ch :: rest)).dropWhile fun ch => ch ∉ delimiters).length ≤ rest.length := by
  rw [skipWhitespace]
  -- the letter is skipped, or it is no delimiter and goes into the term
  split
  · exact (List.dropWhile_suffix _).length_le
  · rename_i hwhitespace
    have hdelimiter : ch ∉ delimiters := fun hmem =>
      hwhitespace (isWhitespace_of_isDelimiter (decide_eq_true hmem) hne)
    rw [List.dropWhile_cons_of_pos (p := fun ch => ch ∉ delimiters) (decide_eq_true hdelimiter)]
    exact (List.dropWhile_suffix _).length_le

/-- A round takes what is in front of the next delimiter, and stops at it. -/
theorem pass_eq (isWord : JavaString → Bool) (returnVect : List JavaString)
    (h : curPos < input.length) :
    ∃ next ≤ input.length, curPos ≤ next ∧
      input.drop next = (skipWhitespace (input.drop curPos)).dropWhile (fun ch => ch ∉ delimiters) ∧
      pass isWord input (returnVect, curPos) = (returnVect ++
        [(skipWhitespace (input.drop curPos)).takeWhile fun ch => ch ∉ delimiters].filter
          (keeps isWord), next) := by
  -- the position behind a letter that is skipped
  obtain ⟨start, hstart, hlast, hfirst, hskip⟩ : ∃ start,
      start = (if (input[curPos]?).any isWhitespace then curPos + 1 else curPos) ∧
      start ≤ input.length ∧ curPos ≤ start ∧
      input.drop start = skipWhitespace (input.drop curPos) := by
    refine ⟨_, rfl, ?_⟩
    rw [List.getElem?_eq_getElem h, Option.any_some, List.drop_eq_getElem_cons h, skipWhitespace]
    split
    · exact ⟨h, Nat.le_succ _, rfl⟩
    · exact ⟨h.le, le_rfl, List.drop_eq_getElem_cons h⟩
  have hnext := nextGapPos_eq hlast
  have hgap : gap delimiters (input.drop start) ≤ input.length - start := by
    rw [gap, ← List.length_drop]
    exact (List.takeWhile_prefix _).length_le
  refine ⟨nextGapPos input start, by omega, by omega, ?_, ?_⟩
  · rw [← hskip, hnext, Nat.add_comm, ← List.drop_drop, drop_gap]
  · rw [pass, ← hstart, List.drop_take, hnext, Nat.add_sub_cancel, take_gap, hskip,
      List.filter_cons, List.filter_nil]
    split
    · rfl
    · rw [List.append_nil]

/-- A non-breaking space that is ahead stays ahead. -/
theorem pass_of_mem (isWord : JavaString → Bool) (returnVect : List JavaString)
    (h : 0xA0 ∈ input.drop curPos) :
    curPos < input.length ∧ 0xA0 ∈ input.drop (pass isWord input (returnVect, curPos)).2 := by
  have hlt : curPos < input.length := by
    by_contra hge
    rw [List.drop_of_length_le (not_lt.mp hge)] at h
    exact absurd h List.not_mem_nil
  refine ⟨hlt, ?_⟩
  obtain ⟨next, -, -, hdrop, hpass⟩ := pass_eq isWord returnVect hlt
  rw [hpass, hdrop]
  -- it is neither skipped nor part of the term
  have hmem := mem_skipWhitespace h
  rw [← List.takeWhile_append_dropWhile (p := fun ch => ch ∉ delimiters)
    (l := skipWhitespace (input.drop curPos)), List.mem_append] at hmem
  rcases hmem with hmem | hmem
  · exact absurd (List.mem_takeWhile_imp hmem) (by decide)
  · exact hmem

/-- Without a non-breaking space ahead, a round goes on. -/
theorem lt_pass (isWord : JavaString → Bool) (returnVect : List JavaString)
    (hlt : curPos < input.length) (h : 0xA0 ∉ input.drop curPos) :
    curPos < (pass isWord input (returnVect, curPos)).2 := by
  obtain ⟨next, hnext, -, hdrop, hpass⟩ := pass_eq isWord returnVect hlt
  have hne : input[curPos] ≠ 0xA0 := by
    rintro heq
    rw [List.drop_eq_getElem_cons hlt, heq] at h
    exact h List.mem_cons_self
  have hlength := congrArg List.length hdrop
  rw [List.drop_eq_getElem_cons hlt, List.length_drop] at hlength
  have hle := length_dropWhile_le (input.drop (curPos + 1)) hne
  rw [List.length_drop] at hle
  rw [hpass]
  dsimp only
  omega

end Pass

/-! ## The loop -/

/-- The parts between the delimiters, after a first letter that is white space. -/
def words (isWord : JavaString → Bool) (input : JavaString) : List JavaString :=
  ((skipWhitespace input).splitOnP isDelimiter).filter (keeps isWord)

theorem words_nil (isWord : JavaString → Bool) : words isWord [] = [] := by
  simp [words, skipWhitespace, keeps, isTrimmedAway]

/-- What is in front of the next delimiter is the first word, and the others begin behind it. -/
theorem words_eq (isWord : JavaString → Bool) {s : JavaString} (h : 0xA0 ∉ s) :
    words isWord s =
      [(skipWhitespace s).takeWhile fun ch => ch ∉ delimiters].filter (keeps isWord) ++
        words isWord ((skipWhitespace s).dropWhile fun ch => ch ∉ delimiters) := by
  have hsplit := List.takeWhile_append_dropWhile (p := fun ch => ch ∉ delimiters)
    (l := skipWhitespace s)
  have hword : ∀ ch ∈ (skipWhitespace s).takeWhile fun ch => ch ∉ delimiters,
      isDelimiter ch = false := fun ch hch => by
    simpa [isDelimiter] using List.mem_takeWhile_imp hch
  -- the string ends with the first word, or a delimiter follows
  rcases hbehind : (skipWhitespace s).dropWhile fun ch => ch ∉ delimiters with _ | ⟨ch, rest⟩
  · rw [hbehind, List.append_nil] at hsplit
    rw [words_nil, List.append_nil, words]
    nth_rewrite 1 [← hsplit]
    rw [List.splitOnP_eq_singleton hword]
  · have hdelimiter : isDelimiter ch = true := by
      have hhead := List.head?_dropWhile_not (fun ch => ch ∉ delimiters) (skipWhitespace s)
      rw [hbehind, List.head?_cons] at hhead
      simpa [isDelimiter] using hhead
    -- behind that delimiter a round of the loop would go on
    have hne : ch ≠ 0xA0 := by
      rintro rfl
      exact h (mem_of_mem_skipWhitespace (hsplit ▸ List.mem_append_right _
        (hbehind ▸ List.mem_cons_self)))
    rw [hbehind] at hsplit
    rw [words]
    nth_rewrite 1 [← hsplit]
    rw [List.splitOnP_append_cons_of_forall_mem hword ch hdelimiter, words, skipWhitespace,
      if_pos (isWhitespace_of_isDelimiter hdelimiter hne), ← List.filter_append,
      List.singleton_append]

variable {isWord : JavaString → Bool} {input : JavaString}

theorem tokenize_eq_none (curPos : ℕ) (h : 0xA0 ∈ input.drop curPos) (fuel : ℕ)
    (returnVect : List JavaString) : tokenize isWord input fuel (returnVect, curPos) = none := by
  -- the invariant is that the non-breaking space is ahead
  induction fuel generalizing returnVect curPos with
  | zero => rfl
  | succ fuel ih =>
    obtain ⟨hlt, hmem⟩ := pass_of_mem isWord returnVect h
    rw [tokenize, if_pos hlt]
    exact ih _ hmem _

theorem tokenize_eq_some {curPos : ℕ} (hle : curPos ≤ input.length) (h : 0xA0 ∉ input.drop curPos)
    {fuel : ℕ} (hfuel : input.length - curPos < fuel) (returnVect : List JavaString) :
    tokenize isWord input fuel (returnVect, curPos) =
      some (returnVect ++ words isWord (input.drop curPos)) := by
  -- every round moves on, so the fuel outlasts what is left of the input
  induction fuel generalizing returnVect curPos with
  | zero => exact absurd hfuel (Nat.not_lt_zero _)
  | succ fuel ih =>
    rw [tokenize]
    rcases hle.lt_or_eq with hlt | heq
    · have hprogress := lt_pass isWord returnVect hlt h
      obtain ⟨next, hnext, -, hdrop, hpass⟩ :=
        pass_eq isWord returnVect hlt
      rw [hpass] at hprogress ⊢
      have hahead : 0xA0 ∉ input.drop next := by
        rw [hdrop]
        exact fun hmem => h (mem_of_mem_skipWhitespace ((List.dropWhile_suffix _).subset hmem))
      rw [if_pos hlt, ih hnext hahead (by dsimp only at hprogress; omega), words_eq isWord h, hdrop,
        List.append_assoc]
    · rw [if_neg (by dsimp only; omega), heq, List.drop_length, words_nil, List.append_nil]

/-- A run that has ended does not change with more fuel. -/
theorem tokenize_add {fuel : ℕ} {state : List JavaString × ℕ} {tokens : List JavaString}
    (h : tokenize isWord input fuel state = some tokens) (more : ℕ) :
    tokenize isWord input (fuel + more) state = some tokens := by
  induction fuel generalizing state with
  | zero => simp [tokenize] at h
  | succ fuel ih =>
    rw [tokenize] at h
    rw [Nat.add_right_comm, tokenize]
    split at h
    · rename_i hlt
      rw [if_pos hlt]
      exact ih h
    · rename_i hge
      rw [if_neg hge]
      exact h

theorem tokenize_eq_words {fuel : ℕ} {tokens : List JavaString}
    (h : tokenize isWord input fuel ([], 0) = some tokens) :
    0xA0 ∉ input ∧ tokens = words isWord input := by
  have hmem : 0xA0 ∉ input := fun hmem => by
    rw [tokenize_eq_none 0 hmem fuel []] at h
    exact absurd h (by simp)
  -- with more fuel than needed both results are those of one run
  have hwords : tokenize isWord input (fuel + (input.length + 1)) ([], 0) =
      some (words isWord input) :=
    tokenize_eq_some (Nat.zero_le _) hmem (by omega) []
  exact ⟨hmem, Option.some.inj ((tokenize_add h _).symm.trans hwords)⟩

/-- The loop returns if there is no non-breaking space, and then the tokens are the words. -/
theorem tokenize_returns (isWord : JavaString → Bool) (input : JavaString) :
    ((∃ fuel tokens, tokenize isWord input fuel ([], 0) = some tokens) ↔ 0xA0 ∉ input) ∧
      (0xA0 ∉ input → ∀ fuel > input.length,
        tokenize isWord input fuel ([], 0) = some (words isWord input)) := by
  have hreturns : 0xA0 ∉ input → ∀ fuel > input.length,
      tokenize isWord input fuel ([], 0) = some (words isWord input) := fun h fuel hfuel =>
    tokenize_eq_some (Nat.zero_le _) h hfuel []
  refine ⟨⟨?_, fun h => ⟨input.length + 1, _, hreturns h _ (Nat.lt_succ_self _)⟩⟩, hreturns⟩
  rintro ⟨fuel, tokens, hsome⟩
  exact (tokenize_eq_words hsome).1

/-- What is made of the tokens of two strings is made of their words. Two strings take no more fuel
than the longer one. -/
theorem tokenize_both {β : Type} (isWord : JavaString → Bool) (string1 string2 : JavaString)
    (make : ℕ → List JavaString → List JavaString → β) {P : β → Prop}
    (h : ∀ fuel, P (make fuel (words isWord string1) (words isWord string2))) :
    ((∃ fuel result, ((tokenize isWord string1 fuel ([], 0)).bind fun str1Tokens =>
        (tokenize isWord string2 fuel ([], 0)).bind fun str2Tokens =>
          some (make fuel str1Tokens str2Tokens)) = some result) ↔
        0xA0 ∉ string1 ∧ 0xA0 ∉ string2) ∧
      ∀ fuel result, ((tokenize isWord string1 fuel ([], 0)).bind fun str1Tokens =>
        (tokenize isWord string2 fuel ([], 0)).bind fun str2Tokens =>
          some (make fuel str1Tokens str2Tokens)) = some result → P result := by
  refine ⟨⟨?_, ?_⟩, ?_⟩
  · rintro ⟨fuel, result, hresult⟩
    obtain ⟨str1Tokens, htokens1, hresult⟩ := Option.bind_eq_some_iff.mp hresult
    obtain ⟨str2Tokens, htokens2, -⟩ := Option.bind_eq_some_iff.mp hresult
    exact ⟨(tokenize_eq_words htokens1).1, (tokenize_eq_words htokens2).1⟩
  · rintro ⟨hbreak1, hbreak2⟩
    obtain ⟨fuel, hfuel⟩ := exists_gt (max string1.length string2.length)
    have htokens1 : tokenize isWord string1 fuel ([], 0) = some (words isWord string1) :=
      tokenize_eq_some (Nat.zero_le _) hbreak1 ((le_max_left _ _).trans_lt hfuel) []
    have htokens2 : tokenize isWord string2 fuel ([], 0) = some (words isWord string2) :=
      tokenize_eq_some (Nat.zero_le _) hbreak2 ((le_max_right _ _).trans_lt hfuel) []
    refine ⟨fuel, make fuel (words isWord string1) (words isWord string2), ?_⟩
    rw [htokens1, htokens2]
    rfl
  · intro fuel result hresult
    obtain ⟨str1Tokens, htokens1, hresult⟩ := Option.bind_eq_some_iff.mp hresult
    obtain ⟨str2Tokens, htokens2, hresult⟩ := Option.bind_eq_some_iff.mp hresult
    obtain ⟨-, rfl⟩ := tokenize_eq_words htokens1
    obtain ⟨-, rfl⟩ := tokenize_eq_words htokens2
    exact Option.some.inj hresult ▸ h fuel

end TokeniserWhitespace

end SimMetrics
