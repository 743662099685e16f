import JavaExamples.SimMetrics.JaroWinkler

/-!
# Soundex

Words are compared by the codes of their letters. What `toUpperCase` does to letters is a parameter.

* `soundex_format`: a code is a letter and a dash, then digits, then zeros. A `Y` behind the first
  letter is no vowel to it and gets no digit, so it stays as it is.
* `soundex_similarity`: with the metric that is set by default, words with the same code come to
  `43/45`, never to `1`, and other words to `17/18` at most.
-/

namespace SimMetrics

/-- The internal metric is `JaroWinkler` unless the constructor is given another one. -/
structure Soundex where
  internalStringMetric : JavaString → JavaString → ℚ := JaroWinkler.getSimilarity {}

namespace Soundex

open SubCost5_3_Minus3 (code)

def SOUNDEXLENGTH : ℕ := 6

/-- `replaceAll` of the letters of a class, one by one. -/
def replaceAll (letters : JavaChar → Bool) (replacement s : JavaString) : JavaString :=
  s.flatMap fun ch => if letters ch then replacement else [ch]

/-- The class `[A-Z]`. -/
def isLetter (ch : JavaChar) : Bool := 0x41 ≤ ch.toNat ∧ ch.toNat ≤ 0x5A

/-- The class `\s`. -/
def isSpace (ch : JavaChar) : Bool := ch.toNat ∈ [0x20, 0x09, 0x0A, 0x0B, 0x0C, 0x0D]

def digits : List (List JavaChar × JavaChar) :=
  [("AEIOUWH", '0'), ("BPFV", '1'), ("CSKGJQXZ", '2'), ("DT", '3'), ("L", '4'), ("MN", '5'),
    ("R", '6')].map fun (letters, digit) => (letters.toList.map code, code digit)

/-- The loop that removes equal adjacent digits. -/
def removeAdjacent (lastChar : JavaChar) : JavaString → JavaString
  | [] => []
  | curChar :: rest =>
    if curChar ≠ lastChar then curChar :: removeAdjacent curChar rest
    else removeAdjacent lastChar rest

/-- What becomes of a word that is tidied up and has letters. -/
def digitsOf (wordStr : JavaString) : JavaString :=
  let wordStr := if wordStr.length > SOUNDEXLENGTH * 4 + 1 then
      code '-' :: (wordStr.take (SOUNDEXLENGTH * 4)).drop 1
    else code '-' :: wordStr.drop 1
  let wordStr := digits.foldl (fun wordStr (letters, digit) =>
    replaceAll letters.contains [digit] wordStr) wordStr
  let wordStr := code '-' :: removeAdjacent (code '-') (wordStr.drop 1)
  replaceAll (fun ch => ch = code '0') [] (wordStr.drop 1)

def calcSoundEx (toUpperCase : JavaString → JavaString) (wordString : JavaString)
    (soundExLen : ℕ) : JavaString :=
  let soundExLen := if soundExLen > 10 then 10 else soundExLen
  let soundExLen := if soundExLen < 4 then 4 else soundExLen
  if wordString.length = 0 then []
  else
    let wordStr := replaceAll (fun ch => ¬isLetter ch) [code ' '] (toUpperCase wordString)
    match replaceAll isSpace [] wordStr with
    | [] => []
    | firstLetter :: wordStr =>
      (firstLetter :: code '-' ::
        (digitsOf (firstLetter :: wordStr) ++ List.replicate 18 (code '0'))).take soundExLen

def getSimilarity (metric : Soundex) (toUpperCase : JavaString → JavaString)
    (string1 string2 : JavaString) : ℚ :=
  let soundex1 := calcSoundEx toUpperCase string1 SOUNDEXLENGTH
  let soundex2 := calcSoundEx toUpperCase string2 SOUNDEXLENGTH
  metric.internalStringMetric soundex1 soundex2

/-! ## The format of the codes -/

theorem replaceAll_singleton (letters : JavaChar → Bool) (digit : JavaChar) (s : JavaString) :
    replaceAll letters [digit] s = s.map fun ch => if letters ch then digit else ch := by
  induction s with
  | nil => rfl
  | cons ch rest ih =>
    rw [replaceAll, List.flatMap_cons, ← replaceAll, ih, List.map_cons]
    split <;> rfl

theorem replaceAll_nil (letters : JavaChar → Bool) (s : JavaString) :
    replaceAll letters [] s = s.filter fun ch => ¬letters ch := by
  induction s with
  | nil => rfl
  | cons ch rest ih =>
    rw [replaceAll, List.flatMap_cons, ← replaceAll, ih, List.filter_cons]
    cases letters ch <;> rfl

/-- Tidying up leaves the letters. -/
theorem clean_eq (s : JavaString) :
    replaceAll isSpace [] (replaceAll (fun ch => ¬isLetter ch) [code ' '] s) =
      s.filter isLetter := by
  rw [replaceAll_nil, replaceAll_singleton]
  induction s with
  | nil => rfl
  | cons ch rest ih =>
    rw [List.map_cons, List.filter_cons, List.filter_cons, ih]
    cases hletter : isLetter ch with
    | false => rfl
    | true =>
      have hspace : isSpace ch = false := by
        simp only [isLetter, decide_eq_true_eq] at hletter
        rw [isSpace, decide_eq_false_iff_not]
        simp only [List.mem_cons, List.not_mem_nil, or_false]
        omega
      simp [hspace]

/-- What becomes of a letter. -/
def digitOf (ch : JavaChar) : JavaChar :=
  digits.foldl (fun ch (letters, digit) => if letters.contains ch then digit else ch) ch

theorem foldl_replaceAll (classes : List (List JavaChar × JavaChar)) (s : JavaString) :
    classes.foldl (fun s (letters, digit) => replaceAll letters.contains [digit] s) s =
      s.map fun ch =>
        classes.foldl
          (fun ch (letters, digit) => if letters.contains ch then digit else ch) ch := by
  induction classes generalizing s with
  | nil => exact (List.map_id s).symm
  | cons first rest ih =>
    obtain ⟨letters, digit⟩ := first
    rw [List.foldl_cons, ih]
    dsimp only
    rw [replaceAll_singleton, List.map_map]
    simp [Function.comp_def]

theorem foldl_digits (s : JavaString) :
    digits.foldl (fun s (letters, digit) => replaceAll letters.contains [digit] s) s =
      s.map digitOf :=
  foldl_replaceAll digits s

/-- The digits of the classes, and the letter that is in none. -/
def codeLetters : List JavaChar := "123456Y".toList.map code

theorem digitOf_mem {ch : JavaChar} (h : isLetter ch = true) :
    digitOf ch = code '0' ∨ digitOf ch ∈ codeLetters := by
  -- the 26 letters one by one
  have hall : ∀ i : Fin 26, digitOf (BitVec.ofNat 16 (0x41 + i)) = code '0' ∨
      digitOf (BitVec.ofNat 16 (0x41 + i)) ∈ codeLetters := by decide
  simp only [isLetter, decide_eq_true_eq] at h
  have hi := hall ⟨ch.toNat - 0x41, by omega⟩
  rwa [show 0x41 + (ch.toNat - 0x41) = ch.toNat by omega, BitVec.ofNat_toNat,
    BitVec.setWidth_eq] at hi

theorem removeAdjacent_sublist (lastChar : JavaChar) (s : JavaString) :
    (removeAdjacent lastChar s).Sublist s := by
  induction s generalizing lastChar with
  | nil => exact List.Sublist.refl _
  | cons ch rest ih =>
    rw [removeAdjacent]
    split
    · exact (ih ch).cons_cons ch
    · exact (ih lastChar).cons ch

theorem digitsOf_mem {wordStr : JavaString} (h : ∀ ch ∈ wordStr, isLetter ch = true) :
    ∀ ch ∈ digitsOf wordStr, ch ∈ codeLetters := by
  intro ch hch
  rw [digitsOf, foldl_digits, replaceAll_nil, List.mem_filter, List.drop_succ_cons,
    List.drop_zero] at hch
  obtain ⟨hadjacent, hzero⟩ := hch
  have hmapped := (removeAdjacent_sublist _ _).subset hadjacent
  rw [← List.map_drop, List.mem_map] at hmapped
  obtain ⟨letter, hletter, rfl⟩ := hmapped
  -- the word is cut at its end or not
  have hword : letter ∈ wordStr := by
    split at hletter
    · exact List.mem_of_mem_take (List.mem_of_mem_drop hletter)
    · exact List.mem_of_mem_drop hletter
  rcases digitOf_mem (h letter hword) with hdigit | hdigit
  · exact absurd hdigit (by simpa using hzero)
  · exact hdigit

theorem soundExLen_eq (n : ℕ) :
    (if (if n > 10 then 10 else n) < 4 then 4 else if n > 10 then 10 else n) =
      max 4 (min n 10) := by
  split <;> split <;> omega

section Code

variable {toUpperCase : JavaString → JavaString} {w : JavaString} {n : ℕ}

theorem calcSoundEx_nil (h : w = [] ∨ (toUpperCase w).filter isLetter = []) :
    calcSoundEx toUpperCase w n = [] := by
  simp only [calcSoundEx, clean_eq, List.length_eq_zero_iff]
  rcases h with hw | hletters
  · rw [if_pos hw]
  · rw [hletters]
    exact ite_self []

theorem calcSoundEx_cons (hw : w ≠ []) {letter : JavaChar} {rest : JavaString}
    (hletters : (toUpperCase w).filter isLetter = letter :: rest) :
    calcSoundEx toUpperCase w n = (letter :: code '-' ::
      (digitsOf (letter :: rest) ++ List.replicate 18 (code '0'))).take (max 4 (min n 10)) := by
  simp only [calcSoundEx, clean_eq, soundExLen_eq, List.length_eq_zero_iff, if_neg hw, hletters]

end Code

/-- What a code looks like: the first letter and a dash, digits, zeros. -/
structure IsCode (n : ℕ) (soundex : JavaString) (letter : JavaChar) : Prop where
  isLetter : isLetter letter = true
  length : soundex.length = n
  digits : ∃ digits zeros, soundex =
      letter :: code '-' :: (digits ++ List.replicate zeros (code '0')) ∧
    ∀ ch ∈ digits, ch ∈ codeLetters

theorem isCode_take {wordStr : JavaString} (h : ∀ ch ∈ wordStr, ch ∈ codeLetters)
    {letter : JavaChar} (hletter : isLetter letter = true) {n : ℕ} (hn : n ≤ 18) :
    IsCode (n + 2) ((letter :: code '-' ::
      (wordStr ++ List.replicate 18 (code '0'))).take (n + 2)) letter where
  isLetter := hletter
  length := by
    rw [List.length_take]
    simp only [List.length_cons, List.length_append, List.length_replicate]
    omega
  digits := by
    refine ⟨wordStr.take n, min (n - wordStr.length) 18, ?_,
      fun ch hch => h ch (List.mem_of_mem_take hch)⟩
    rw [List.take_succ_cons, List.take_succ_cons, List.take_append, List.take_replicate]

theorem isCode_calcSoundEx {toUpperCase : JavaString → JavaString} {w : JavaString} (n : ℕ)
    (hw : w ≠ []) {letter : JavaChar} {rest : JavaString}
    (hletters : (toUpperCase w).filter isLetter = letter :: rest) :
    IsCode (max 4 (min n 10)) (calcSoundEx toUpperCase w n) letter := by
  have hall : ∀ ch ∈ letter :: rest, isLetter ch = true := fun ch hch =>
    List.of_mem_filter (hletters ▸ hch)
  obtain ⟨k, hk⟩ : ∃ k, max 4 (min n 10) = k + 2 := ⟨max 4 (min n 10) - 2, by omega⟩
  rw [calcSoundEx_cons hw hletters, hk]
  exact isCode_take (digitsOf_mem hall) (hall letter List.mem_cons_self) (by omega)

/-- A word has a code if there are letters in it. The code begins with the first of them. -/
theorem soundex_format (toUpperCase : JavaString → JavaString) (w : JavaString) (n : ℕ) :
    (calcSoundEx toUpperCase w n = [] ↔ w = [] ∨ (toUpperCase w).filter isLetter = []) ∧
      ∀ letter rest, w ≠ [] → (toUpperCase w).filter isLetter = letter :: rest →
        IsCode (max 4 (min n 10)) (calcSoundEx toUpperCase w n) letter := by
  refine ⟨⟨fun hnil => ?_, calcSoundEx_nil⟩, fun letter rest hw => isCode_calcSoundEx n hw⟩
  -- a word with letters has a code of at least four characters
  by_contra hboth
  obtain ⟨hw, hletters⟩ := not_or.mp hboth
  obtain ⟨letter, rest, hcons⟩ := List.exists_cons_of_ne_nil hletters
  have hlength := (isCode_calcSoundEx n hw hcons).length
  rw [hnil, List.length_nil] at hlength
  omega

/-! ## The similarity -/

theorem IsCode.zero_notMem {n : ℕ} {soundex : JavaString} {letter : JavaChar}
    (h : IsCode n soundex letter) : 0 ∉ soundex := by
  obtain ⟨digits, zeros, rfl, hdigits⟩ := h.digits
  rw [List.mem_cons, List.mem_cons, List.mem_append, not_or, not_or, not_or]
  refine ⟨?_, by decide, fun hmem => absurd (hdigits 0 hmem) (by decide), fun hmem => ?_⟩
  · rintro rfl
    exact absurd h.isLetter (by decide)
  · exact absurd (List.eq_of_mem_replicate hmem) (by decide)

/-- A code that is not empty is a code of a letter. -/
theorem exists_isCode {toUpperCase : JavaString → JavaString} {w : JavaString}
    (h : calcSoundEx toUpperCase w SOUNDEXLENGTH ≠ []) :
    ∃ letter, IsCode 6 (calcSoundEx toUpperCase w SOUNDEXLENGTH) letter := by
  have hw : w ≠ [] := fun hnil => h (calcSoundEx_nil (.inl hnil))
  have hletters : (toUpperCase w).filter isLetter ≠ [] := fun hnil =>
    h (calcSoundEx_nil (.inr hnil))
  obtain ⟨letter, rest, hcons⟩ := List.exists_cons_of_ne_nil hletters
  exact ⟨letter, isCode_calcSoundEx SOUNDEXLENGTH hw hcons⟩

section Codes

variable {soundex1 soundex2 : JavaString} {letter1 letter2 : JavaChar}

theorem jaro_le (h1 : IsCode 6 soundex1 letter1) (h2 : IsCode 6 soundex2 letter2) :
    Jaro.getSimilarity soundex1 soundex2 ≤ 8 / 9 := by
  -- neither code finds its last letter
  have hle := Jaro.getSimilarity_le (s := soundex1) (t := soundex2) le_rfl
    (Jaro.length_getCommonCharacters_le _ _ h2.zero_notMem)
    (Jaro.length_getCommonCharacters_le _ _ h1.zero_notMem)
  rw [h1.length, h2.length] at hle
  norm_num at hle
  exact hle

theorem getPrefixLength_le_five (h1 : IsCode 6 soundex1 letter1) (h2 : IsCode 6 soundex2 letter2)
    (hne : soundex1 ≠ soundex2) : JaroWinkler.getPrefixLength soundex1 soundex2 ≤ 5 := by
  obtain ⟨hle, hsame, -⟩ := JaroWinkler.getPrefixLength_spec soundex1 soundex2
  -- codes that agree in six letters agree altogether
  by_contra hlong
  refine hne (List.ext_getElem? fun i => ?_)
  rcases Nat.lt_or_ge i 6 with hi | hi
  · exact hsame i (by omega)
  · rw [List.getElem?_eq_none (h1.length.trans_le hi),
      List.getElem?_eq_none (h2.length.trans_le hi)]

theorem similarity_of_ne (h1 : IsCode 6 soundex1 letter1) (h2 : IsCode 6 soundex2 letter2)
    (hne : soundex1 ≠ soundex2) : JaroWinkler.getSimilarity {} soundex1 soundex2 ≤ 17 / 18 := by
  have hbegins : (1 / 2 : ℚ) ≤ 1 - JaroWinkler.getPrefixLength soundex1 soundex2 / 10 := by
    have hfive : (JaroWinkler.getPrefixLength soundex1 soundex2 : ℚ) ≤ 5 := by
      exact_mod_cast getPrefixLength_le_five h1 h2 hne
    linarith
  have hlack : (1 / 9 : ℚ) ≤ 1 - Jaro.getSimilarity soundex1 soundex2 := by
    linarith [jaro_le h1 h2]
  have hproduct := mul_le_mul hbegins hlack (by norm_num) (le_trans (by norm_num) hbegins)
  rw [JaroWinkler.getSimilarity_eq_jaro]
  linarith

theorem similarity_self (h1 : IsCode 6 soundex1 letter1) :
    JaroWinkler.getSimilarity {} soundex1 soundex1 = 43 / 45 := by
  rw [JaroWinkler.getSimilarity_self h1.zero_notMem (by rw [h1.length]; decide), h1.length]
  norm_num

end Codes

theorem similarity_nil {soundex1 soundex2 : JavaString} (h : soundex1 = [] ∨ soundex2 = []) :
    JaroWinkler.getSimilarity {} soundex1 soundex2 = 0 := by
  have hbegins : JaroWinkler.getPrefixLength soundex1 soundex2 = 0 := by
    have hle := (JaroWinkler.getPrefixLength_spec soundex1 soundex2).1
    rcases h with rfl | rfl
    · simpa using hle
    · simpa using hle
  rw [JaroWinkler.getSimilarity_eq_jaro, hbegins, Jaro.getSimilarity_nil h]
  norm_num

section Words

variable {toUpperCase : JavaString → JavaString} {s t : JavaString}

/-- Words with letters that have the same code. -/
def SameCode (toUpperCase : JavaString → JavaString) (s t : JavaString) : Prop :=
  calcSoundEx toUpperCase s SOUNDEXLENGTH = calcSoundEx toUpperCase t SOUNDEXLENGTH ∧
    calcSoundEx toUpperCase s SOUNDEXLENGTH ≠ []

theorem getSimilarity_of_ne
    (hne : calcSoundEx toUpperCase s SOUNDEXLENGTH ≠ calcSoundEx toUpperCase t SOUNDEXLENGTH) :
    getSimilarity {} toUpperCase s t ≤ 17 / 18 := by
  by_cases hempty : calcSoundEx toUpperCase s SOUNDEXLENGTH = [] ∨
      calcSoundEx toUpperCase t SOUNDEXLENGTH = []
  · exact (similarity_nil hempty).trans_le (by norm_num)
  · obtain ⟨h1, h2⟩ := not_or.mp hempty
    obtain ⟨letter1, h1⟩ := exists_isCode h1
    obtain ⟨letter2, h2⟩ := exists_isCode h2
    exact similarity_of_ne h1 h2 hne

theorem getSimilarity_of_same
    (hsame : calcSoundEx toUpperCase s SOUNDEXLENGTH = calcSoundEx toUpperCase t SOUNDEXLENGTH)
    (hne : calcSoundEx toUpperCase s SOUNDEXLENGTH ≠ []) :
    getSimilarity {} toUpperCase s t = 43 / 45 := by
  obtain ⟨letter, h⟩ := exists_isCode hne
  rw [getSimilarity]
  dsimp only
  rw [← hsame, similarity_self h]

theorem getSimilarity_eq_iff :
    getSimilarity {} toUpperCase s t = 43 / 45 ↔ SameCode toUpperCase s t := by
  refine ⟨fun heq => ?_, fun ⟨hsame, hne⟩ => getSimilarity_of_same hsame hne⟩
  have hsame : calcSoundEx toUpperCase s SOUNDEXLENGTH =
      calcSoundEx toUpperCase t SOUNDEXLENGTH := by
    by_contra hne
    have hle := getSimilarity_of_ne hne
    rw [heq] at hle
    norm_num at hle
  -- without a code the similarity is `0`
  refine ⟨hsame, fun hnil => ?_⟩
  have hzero : getSimilarity {} toUpperCase s t = 0 := similarity_nil (.inl hnil)
  rw [heq] at hzero
  norm_num at hzero

theorem getSimilarity_le (toUpperCase : JavaString → JavaString) (s t : JavaString) :
    getSimilarity {} toUpperCase s t ≤ 43 / 45 := by
  by_cases hsame : calcSoundEx toUpperCase s SOUNDEXLENGTH =
      calcSoundEx toUpperCase t SOUNDEXLENGTH
  · by_cases hnil : calcSoundEx toUpperCase s SOUNDEXLENGTH = []
    · have hzero : getSimilarity {} toUpperCase s t = 0 := similarity_nil (.inl hnil)
      rw [hzero]
      norm_num
    · exact (getSimilarity_of_same hsame hnil).le
  · exact (getSimilarity_of_ne hsame).trans (by norm_num)

theorem getSimilarity_nonneg (toUpperCase : JavaString → JavaString) (s t : JavaString) :
    0 ≤ getSimilarity {} toUpperCase s t :=
  (Jaro.getSimilarity_nonneg _ _).trans
    (JaroWinkler.le_getSimilarity (Jaro.getSimilarity_le_one _ _))

/-- Words with the same code have the greatest similarity there is, which is not `1`, and words with
different codes are clearly below it. A word without letters is not even similar to itself. -/
theorem soundex_similarity (toUpperCase : JavaString → JavaString) (s t : JavaString) :
    (getSimilarity {} toUpperCase s t = 43 / 45 ↔ SameCode toUpperCase s t) ∧
    (calcSoundEx toUpperCase s SOUNDEXLENGTH ≠ calcSoundEx toUpperCase t SOUNDEXLENGTH →
      getSimilarity {} toUpperCase s t ≤ 17 / 18) ∧
    (calcSoundEx toUpperCase s SOUNDEXLENGTH = [] ∨ calcSoundEx toUpperCase t SOUNDEXLENGTH = [] →
      getSimilarity {} toUpperCase s t = 0) :=
  ⟨getSimilarity_eq_iff, getSimilarity_of_ne, similarity_nil⟩

end Words

end Soundex

end SimMetrics
