import JavaExamples.Common.BitMask
import JavaExamples.Common.DateOrder

/-!
# Dates as flags

A list of dates in one integer: the bit of a date is at its distance in days from the first date of
the list. Dates before that one share the lowest bit with it. How large an integer may be is left to
the implementation of `BigInteger`, which throws outside the range it supports.

* `toFlag_eq_some`: the flag of a date, whenever there is one.
* `toFlags_eq_none_iff`: in the range that the JDK supports, the one distance without a flag.
* `bits_removeMasks`: what a sequence of removals leaves.
* `flags_refine_dates`: among dates from the first one on, the integer is the set of the dates.
* `toFlag_overlap`: which dates share a bit, and what follows for lists in any order.
-/

namespace Bitwise.DateBitwise

open BitMask

section Model

/-! The values that `BigInteger` supports. -/
variable (supported : ℤ → Bool)

/-- What an operation of `BigInteger` returns for its value; `none` stands for the
`ArithmeticException` outside the supported range. -/
def inRange (v : ℤ) : Option ℤ := if supported v then some v else none

/-- `(int)` of a `long`. -/
def toInt (n : ℤ) : ℤ := n.bmod (2 ^ 32)

/-- `toFlag(idx)`. -/
def toFlagAt (idx : ℤ) : Option ℤ := do
  let v ← inRange supported ((1 : ℤ) <<< idx)
  if v > 1 then some v else some 1

/-- `toFlag(first, date)`, with `ChronoUnit.DAYS.between(first, date)`. -/
def toFlag (first date : LocalDate) : Option ℤ :=
  toFlagAt supported (toInt (date.toEpochDay - first.toEpochDay))

/-- `reduce` of a stream, where the operation may throw. -/
def reduce {α : Type} (op : α → α → Option α) : List α → Option α
  | [] => none
  | x :: xs => xs.foldlM op x

/-- The flags of the dates; `none` stands for the exception of `get()` as well. -/
def toFlags (dates : List LocalDate) : Option ℤ := do
  -- the lambda reads `dates.get(0)`, which an element of the list shows to exist
  let flags ← dates.mapM fun it => toFlag supported (dates.headD it) it
  reduce (fun flags flag => inRange supported (Int.lor flags flag)) flags

/-- `removeFlag(flags, flag)`. -/
def removeMask (flags flag : ℤ) : Option ℤ := inRange supported (Int.ldiff flags flag)

def removeFlag (flags : ℤ) (first d : LocalDate) : Option ℤ := do
  removeMask supported flags (← toFlag supported first d)

/-- `hasFlag(flags, flag)`. -/
def hasMask (flags flag : ℤ) : Option Bool :=
  (inRange supported (Int.land flags flag)).map (· == flag)

def hasFlag (flags : ℤ) (first d : LocalDate) : Option Bool := do
  hasMask supported flags (← toFlag supported first d)

/-- Removing the dates of a list, one after the other. -/
def removeFlags (flags : ℤ) (first : LocalDate) (removals : List LocalDate) : Option ℤ :=
  removals.foldlM (fun flags d => removeFlag supported flags first d) flags

end Model

/-- The range of the JDK: magnitudes of up to `Integer.MAX_VALUE` bits. -/
def supportedByJdk (v : ℤ) : Bool := v.natAbs.log2 < 2 ^ 31 - 1

/-- The distance of a date from the first one is an `int`. -/
def FitsInt (first d : LocalDate) : Prop :=
  -2 ^ 31 ≤ d.toEpochDay - first.toEpochDay ∧ d.toEpochDay - first.toEpochDay < 2 ^ 31

instance (first d : LocalDate) : Decidable (FitsInt first d) := inferInstanceAs (Decidable (_ ∧ _))

/-- The bit of a date: its distance, or the lowest bit for the dates up to the first one. -/
def position (first d : LocalDate) : ℕ := (d.toEpochDay - first.toEpochDay).toNat

/-- The integer with the bit of a date alone. -/
def mask (first d : LocalDate) : ℤ := 2 ^ position first d

/-! ## One date -/

section OneDate

variable {supported : ℤ → Bool}

@[simp]
theorem inRange_eq_some {v w : ℤ} :
    inRange supported v = some w ↔ supported v = true ∧ v = w := by
  simp [inRange]

theorem inRange_of_unbounded (hunbounded : ∀ v, supported v = true) (v : ℤ) :
    inRange supported v = some v := by
  simp [hunbounded]

/-- Shifting to the left is a power of two. -/
theorem one_shiftLeft_natCast (n : ℕ) : (1 : ℤ) <<< (n : ℤ) = 2 ^ n := by
  exact_mod_cast Int.one_shiftLeft n

/-- A shift by a negative index is to the right, and leaves nothing. -/
theorem one_shiftLeft_negSucc (n : ℕ) : (1 : ℤ) <<< (Int.negSucc n) = 0 := by
  have hzero : 1 >>> (n + 1) = 0 := by
    rw [Nat.shiftRight_eq_div_pow]
    exact Nat.div_eq_of_lt (Nat.one_lt_two_pow (Nat.succ_ne_zero n))
  exact congrArg Int.ofNat hzero

/-- Where the shift returns, the guard corrects a shift to the right to one. -/
theorem toFlagAt_eq (idx : ℤ) :
    toFlagAt supported idx =
      if supported ((1 : ℤ) <<< idx) then some (2 ^ idx.toNat) else none := by
  unfold toFlagAt inRange
  split
  case isFalse => rfl
  case isTrue =>
    cases idx with
    | ofNat n =>
      have hpos : (1 : ℤ) ≤ 2 ^ n := by
        exact_mod_cast Nat.one_le_two_pow
      simp only [Option.bind_eq_bind, Option.bind_some, Int.ofNat_eq_natCast,
        one_shiftLeft_natCast, Int.toNat_natCast]
      split
      · rfl
      · congr 1
        omega
    | negSucc n =>
      simp only [Option.bind_eq_bind, Option.bind_some, one_shiftLeft_negSucc]
      rfl

/-- The cast keeps a difference that an `int` holds. -/
theorem toInt_distance {first d : LocalDate} (h : FitsInt first d) :
    toInt (d.toEpochDay - first.toEpochDay) = d.toEpochDay - first.toEpochDay := by
  obtain ⟨hlow, hhigh⟩ := h
  apply Int.bmod_eq_of_le
  · simpa using hlow
  · simpa using hhigh

theorem toFlag_eq {first d : LocalDate} (h : FitsInt first d) :
    toFlag supported first d =
      if supported ((1 : ℤ) <<< (d.toEpochDay - first.toEpochDay)) then some (mask first d)
      else none := by
  rw [toFlag, toInt_distance h, toFlagAt_eq, mask, position]

theorem toFlag_eq_some {first d : LocalDate} (h : FitsInt first d) {flag : ℤ}
    (hflag : toFlag supported first d = some flag) : flag = mask first d := by
  rw [toFlag_eq h] at hflag
  split at hflag
  · exact (Option.some.inj hflag).symm
  · cases hflag

theorem toFlag_of_unbounded (hunbounded : ∀ v, supported v = true) {first d : LocalDate}
    (h : FitsInt first d) : toFlag supported first d = some (mask first d) := by
  rw [toFlag_eq h, if_pos (hunbounded _)]

@[simp]
theorem bits_mask (first d : LocalDate) : bits (mask first d) = {position first d} := by
  rw [mask, bits_two_pow]

theorem hasMask_eq_some {flags flag : ℤ} {found : Bool}
    (hfound : hasMask supported flags flag = some found) :
    found = true ↔ bits flag ⊆ bits flags := by
  obtain ⟨v, hv, rfl⟩ := Option.map_eq_some_iff.mp hfound
  obtain ⟨-, rfl⟩ := inRange_eq_some.mp hv
  rw [beq_iff_eq, land_eq_right_iff]

/-- A date is found iff its bit is set. -/
theorem hasFlag_eq_some {flags : ℤ} {first d : LocalDate} (h : FitsInt first d) {found : Bool}
    (hfound : hasFlag supported flags first d = some found) :
    found = true ↔ position first d ∈ bits flags := by
  obtain ⟨flag, hflag, hmask⟩ := Option.bind_eq_some_iff.mp hfound
  rw [hasMask_eq_some hmask, toFlag_eq_some h hflag, bits_mask, Set.singleton_subset_iff]

theorem removeFlag_eq_some {flags left : ℤ} {first d : LocalDate} (h : FitsInt first d)
    (hleft : removeFlag supported flags first d = some left) :
    left = Int.ldiff flags (mask first d) := by
  obtain ⟨flag, hflag, hmask⟩ := Option.bind_eq_some_iff.mp hleft
  obtain ⟨-, rfl⟩ := inRange_eq_some.mp hmask
  rw [toFlag_eq_some h hflag]

theorem removeFlag_of_unbounded (hunbounded : ∀ v, supported v = true) (flags : ℤ)
    {first d : LocalDate} (h : FitsInt first d) :
    removeFlag supported flags first d = some (Int.ldiff flags (mask first d)) := by
  rw [removeFlag, toFlag_of_unbounded hunbounded h]
  exact inRange_of_unbounded hunbounded _

theorem exists_hasFlag_of_unbounded (hunbounded : ∀ v, supported v = true) (flags : ℤ)
    {first d : LocalDate} (h : FitsInt first d) :
    ∃ found, hasFlag supported flags first d = some found := by
  rw [hasFlag, toFlag_of_unbounded hunbounded h]
  exact ⟨_, congrArg (Option.map _) (inRange_of_unbounded hunbounded _)⟩

end OneDate

/-- Two dates have one bit iff they are the same or neither is after the first date. -/
theorem position_eq_iff {first a b : LocalDate} :
    position first a = position first b ↔ a = b ∨ (a ≤ first ∧ b ≤ first) := by
  rw [← LocalDate.toEpochDay_injective.eq_iff, ← LocalDate.toEpochDay_strictMono.le_iff_le,
    ← LocalDate.toEpochDay_strictMono.le_iff_le]
  unfold position
  omega

/-! ## Lists and removals -/

section Lists

variable {supported : ℤ → Bool}

/-- Where every step of a fold returns, it is the fold of the operation. -/
theorem foldlM_inRange_eq_some {op : ℤ → ℤ → ℤ} {xs : List ℤ} {x y : ℤ}
    (h : xs.foldlM (fun a b => inRange supported (op a b)) x = some y) : y = xs.foldl op x := by
  induction xs generalizing x with
  | nil => exact (Option.some.inj h).symm
  | cons b xs ih =>
    obtain ⟨v, hv, hrest⟩ := Option.bind_eq_some_iff.mp h
    obtain ⟨-, rfl⟩ := inRange_eq_some.mp hv
    exact ih hrest

theorem foldlM_inRange_of_unbounded (hunbounded : ∀ v, supported v = true) (op : ℤ → ℤ → ℤ)
    (xs : List ℤ) (x : ℤ) :
    xs.foldlM (fun a b => inRange supported (op a b)) x = some (xs.foldl op x) := by
  induction xs generalizing x with
  | nil => rfl
  | cons b xs ih =>
    rw [List.foldlM_cons, inRange_of_unbounded hunbounded]
    exact ih _

theorem mapM_eq_some_iff {α β : Type} {f : α → Option β} {xs : List α} {ys : List β} :
    xs.mapM f = some ys ↔ xs.map f = ys.map some := by
  induction xs generalizing ys with
  | nil => cases ys <;> simp
  | cons x xs ih =>
    simp only [List.mapM_cons, List.map_cons, Option.bind_eq_bind, Option.bind_eq_some_iff,
      Option.pure_def, Option.some.injEq]
    constructor
    · rintro ⟨y, hy, ys, hys, rfl⟩
      rw [List.map_cons, hy, ih.mp hys]
    · intro h
      obtain ⟨y, ys, rfl⟩ := List.exists_cons_of_ne_nil (l := ys) (by rintro rfl; simp at h)
      obtain ⟨hy, hys⟩ := List.cons.inj h
      exact ⟨y, hy, ys, ih.mpr hys, rfl⟩

theorem toFlags_cons (first : LocalDate) (rest : List LocalDate) :
    toFlags supported (first :: rest) = ((first :: rest).mapM (toFlag supported first)).bind
      (reduce fun flags flag => inRange supported (Int.lor flags flag)) := rfl

theorem fitsInt_self (first : LocalDate) : FitsInt first first := by
  unfold FitsInt
  omega

theorem forall_fitsInt_cons {first : LocalDate} {rest : List LocalDate}
    (h : ∀ d ∈ rest, FitsInt first d) : ∀ d ∈ first :: rest, FitsInt first d :=
  List.forall_mem_cons.mpr ⟨fitsInt_self first, h⟩

/-- The flags of a list of dates, when all of them exist, are their masks. -/
theorem eq_map_mask {first : LocalDate} {dates : List LocalDate} {flags : List ℤ}
    (h : ∀ d ∈ dates, FitsInt first d) (hflags : dates.mapM (toFlag supported first) = some flags) :
    flags = dates.map (mask first) := by
  apply List.map_injective_iff.mpr (Option.some_injective ℤ)
  rw [← mapM_eq_some_iff.mp hflags, List.map_map]
  apply List.map_congr_left
  intro d hd
  -- the flag of a date of the list is one of those that exist
  have hmem : toFlag supported first d ∈ flags.map some := by
    rw [← mapM_eq_some_iff.mp hflags]
    exact List.mem_map_of_mem hd
  obtain ⟨flag, -, hflag⟩ := List.mem_map.mp hmem
  rw [← hflag, toFlag_eq_some (h d hd) hflag.symm]
  rfl

/-- The masks of a list, put together. -/
def masks (first : LocalDate) (rest : List LocalDate) : ℤ :=
  (rest.map (mask first)).foldl Int.lor (mask first first)

theorem toFlags_eq_some {first : LocalDate} {rest : List LocalDate}
    (h : ∀ d ∈ rest, FitsInt first d) {flags : ℤ}
    (hflags : toFlags supported (first :: rest) = some flags) : flags = masks first rest := by
  obtain ⟨fs, hfs, hreduce⟩ := Option.bind_eq_some_iff.mp hflags
  obtain rfl := eq_map_mask (forall_fitsInt_cons h) hfs
  exact foldlM_inRange_eq_some hreduce

theorem toFlags_of_unbounded (hunbounded : ∀ v, supported v = true) {first : LocalDate}
    {rest : List LocalDate} (h : ∀ d ∈ rest, FitsInt first d) :
    toFlags supported (first :: rest) = some (masks first rest) := by
  have hmasks : (first :: rest).mapM (toFlag supported first) =
      some ((first :: rest).map (mask first)) := by
    rw [mapM_eq_some_iff, List.map_map]
    apply List.map_congr_left
    intro d hd
    exact toFlag_of_unbounded hunbounded (forall_fitsInt_cons h d hd)
  rw [toFlags_cons, hmasks]
  exact foldlM_inRange_of_unbounded hunbounded _ _ _

/-- The bits of a list are those of its dates. -/
theorem bits_masks (first : LocalDate) (rest : List LocalDate) :
    bits (masks first rest) = {i | ∃ d ∈ first :: rest, position first d = i} := by
  rw [masks, bits_foldl_lor, bits_mask]
  ext i
  simp [eq_comm]

/-- What is left of the flags, once the masks of the dates are taken out. -/
def removeMasks (flags : ℤ) (first : LocalDate) (removals : List LocalDate) : ℤ :=
  (removals.map (mask first)).foldl Int.ldiff flags

theorem removeFlags_of_unbounded (hunbounded : ∀ v, supported v = true) (flags : ℤ)
    {first : LocalDate} {removals : List LocalDate} (h : ∀ d ∈ removals, FitsInt first d) :
    removeFlags supported flags first removals = some (removeMasks flags first removals) := by
  induction removals generalizing flags with
  | nil => rfl
  | cons d removals ih =>
    obtain ⟨hd, hrest⟩ := List.forall_mem_cons.mp h
    rw [removeFlags, List.foldlM_cons, removeFlag_of_unbounded hunbounded flags hd]
    exact ih _ hrest

theorem bits_removeMasks (flags : ℤ) (first : LocalDate) (removals : List LocalDate) :
    bits (removeMasks flags first removals) =
      bits flags \ {i | ∃ d ∈ removals, position first d = i} := by
  rw [removeMasks, bits_foldl_ldiff]
  congr 1
  ext i
  simp [eq_comm]

end Lists

/-! ## The range of the JDK -/

theorem log2_lor_lt {m n bits : ℕ} (hm : m.log2 < bits) (hn : n.log2 < bits) :
    (m ||| n).log2 < bits := by
  rcases eq_or_ne m 0 with rfl | hm0
  · rwa [Nat.zero_or]
  rcases eq_or_ne n 0 with rfl | hn0
  · rwa [Nat.or_zero]
  have hor : m ||| n ≠ 0 := by
    rw [Ne, Nat.or_eq_zero_iff]
    exact fun h => hm0 h.1
  rw [Nat.log2_lt hor]
  apply Nat.or_lt_two_pow
  · exact (Nat.log2_lt hm0).mp hm
  · exact (Nat.log2_lt hn0).mp hn

/-- Integers of the range that are not negative stay in it under `or`. -/
theorem foldlM_lor_isSome {xs : List ℕ} {x : ℕ} (hx : supportedByJdk x = true)
    (hxs : ∀ y ∈ xs, supportedByJdk y = true) :
    ∃ flags, (xs.map Nat.cast).foldlM
      (fun flags flag => inRange supportedByJdk (Int.lor flags flag)) (x : ℤ) = some flags := by
  induction xs generalizing x with
  | nil => exact ⟨x, rfl⟩
  | cons y xs ih =>
    obtain ⟨hy, hrest⟩ := List.forall_mem_cons.mp hxs
    have hor : supportedByJdk ((x ||| y : ℕ) : ℤ) = true := by
      simp only [supportedByJdk, Int.natAbs_natCast, decide_eq_true_iff] at hx hy ⊢
      exact log2_lor_lt hx hy
    have hlor : inRange supportedByJdk (Int.lor x y) = some ((x ||| y : ℕ) : ℤ) := by
      rw [inRange_eq_some]
      exact ⟨hor, rfl⟩
    rw [List.map_cons, List.foldlM_cons, hlor]
    exact ih hor hrest

@[simp]
theorem supportedByJdk_two_pow (n : ℕ) : supportedByJdk (2 ^ n) = true ↔ n < 2 ^ 31 - 1 := by
  simp [supportedByJdk, Int.natAbs_pow, Nat.log2_two_pow]

/-- Of the distances that an `int` holds, the greatest one alone has no flag. -/
theorem toFlag_eq_none_iff {first d : LocalDate} (h : FitsInt first d) :
    toFlag supportedByJdk first d = none ↔ d.toEpochDay - first.toEpochDay = 2 ^ 31 - 1 := by
  obtain ⟨-, hhigh⟩ := id h
  rw [toFlag_eq h]
  generalize d.toEpochDay - first.toEpochDay = distance at hhigh
  suffices hrange : supportedByJdk ((1 : ℤ) <<< distance) = true ↔ distance ≠ 2 ^ 31 - 1 by
    simp [hrange]
  cases distance with
  | ofNat n =>
    rw [Int.ofNat_eq_natCast] at hhigh ⊢
    rw [one_shiftLeft_natCast, supportedByJdk_two_pow]
    omega
  | negSucc n =>
    rw [one_shiftLeft_negSucc]
    simp [supportedByJdk]

/-- A list has flags iff none of its dates is at that distance from the first one. -/
theorem toFlags_eq_none_iff {first : LocalDate} {rest : List LocalDate}
    (h : ∀ d ∈ rest, FitsInt first d) :
    toFlags supportedByJdk (first :: rest) = none ↔
      ∃ d ∈ rest, d.toEpochDay - first.toEpochDay = 2 ^ 31 - 1 := by
  constructor
  · intro hnone
    by_contra hall
    push Not at hall
    have hposition : ∀ d ∈ first :: rest,
        toFlag supportedByJdk first d = some ((2 ^ position first d : ℕ) : ℤ) ∧
          supportedByJdk ((2 ^ position first d : ℕ) : ℤ) = true := by
      intro d hd
      have hdistance : d.toEpochDay - first.toEpochDay ≠ 2 ^ 31 - 1 := by
        rcases List.mem_cons.mp hd with rfl | hd
        · omega
        · exact hall d hd
      have hfits := forall_fitsInt_cons h d hd
      obtain ⟨flag, hflag⟩ := Option.ne_none_iff_exists'.mp
        (mt (toFlag_eq_none_iff hfits).mp hdistance)
      have hlt : position first d < 2 ^ 31 - 1 := by
        obtain ⟨-, hhigh⟩ := hfits
        unfold position
        omega
      rw [hflag, toFlag_eq_some hfits hflag, mask]
      push_cast
      exact ⟨rfl, (supportedByJdk_two_pow _).mpr hlt⟩
    have hflags : (first :: rest).mapM (toFlag supportedByJdk first) =
        some (((first :: rest).map fun d => 2 ^ position first d).map Nat.cast) := by
      rw [mapM_eq_some_iff, List.map_map, List.map_map]
      apply List.map_congr_left
      intro d hd
      exact (hposition d hd).1
    obtain ⟨flags, hfold⟩ := @foldlM_lor_isSome (rest.map fun d => 2 ^ position first d) _
      (hposition first List.mem_cons_self).2 (by
        intro y hy
        obtain ⟨d, hd, rfl⟩ := List.mem_map.mp hy
        exact (hposition d (List.mem_cons_of_mem _ hd)).2)
    rw [toFlags_cons, hflags] at hnone
    cases hnone.symm.trans hfold
  · rintro ⟨d, hd, hdistance⟩
    rw [← toFlag_eq_none_iff (h d hd)] at hdistance
    rw [Option.eq_none_iff_forall_ne_some]
    intro flags hflags
    rw [toFlags_cons] at hflags
    obtain ⟨fs, hfs, -⟩ := Option.bind_eq_some_iff.mp hflags
    -- the exception of one date is that of the list
    have hmem : none ∈ fs.map some := by
      rw [← mapM_eq_some_iff.mp hfs, ← hdistance]
      exact List.mem_map_of_mem (List.mem_cons_of_mem _ hd)
    simp at hmem

/-! ## The set of the dates -/

/-- From the first date on, the dates with their bit set are those of the set. -/
def Represents (first : LocalDate) (flags : ℤ) (dates : Set LocalDate) : Prop :=
  ∀ q, first ≤ q → (position first q ∈ bits flags ↔ q ∈ dates)

/-- Dates from the first one on have a bit each. -/
theorem position_inj {first a b : LocalDate} (ha : first ≤ a) (hb : first ≤ b) :
    position first a = position first b ↔ a = b := by
  rw [position_eq_iff]
  constructor
  · rintro (h | ⟨ha', hb'⟩)
    · exact h
    · exact (le_antisymm ha' ha).trans (le_antisymm hb' hb).symm
  · exact .inl

theorem represents_masks {first : LocalDate} {rest : List LocalDate}
    (h : ∀ d ∈ rest, first ≤ d) :
    Represents first (masks first rest) {d | d ∈ first :: rest} := by
  intro q hq
  rw [bits_masks, Set.mem_ofPred_eq, Set.mem_ofPred_eq]
  constructor
  · rintro ⟨d, hd, hposition⟩
    have hle : first ≤ d := by
      rcases List.mem_cons.mp hd with rfl | hd
      · exact le_rfl
      · exact h d hd
    rwa [← (position_inj hle hq).mp hposition]
  · intro hmem
    exact ⟨q, hmem, rfl⟩

/-- A removal takes one date out of the set. -/
theorem Represents.ldiff {first d : LocalDate} {flags : ℤ} {dates : Set LocalDate}
    (h : Represents first flags dates) (hle : first ≤ d) :
    Represents first (Int.ldiff flags (mask first d)) (dates \ {d}) := by
  intro q hq
  rw [bits_ldiff, bits_mask, Set.mem_sdiff, Set.mem_sdiff, ← h q hq, Set.mem_singleton_iff,
    Set.mem_singleton_iff, position_inj hq hle]

theorem Represents.removeMasks {first : LocalDate} {removals : List LocalDate} {flags : ℤ}
    {dates : Set LocalDate} (h : Represents first flags dates)
    (hremovals : ∀ d ∈ removals, first ≤ d) :
    Represents first (removeMasks flags first removals) (dates \ {d | d ∈ removals}) := by
  induction removals generalizing flags dates with
  | nil => simpa [DateBitwise.removeMasks] using h
  | cons d removals ih =>
    obtain ⟨hd, hrest⟩ := List.forall_mem_cons.mp hremovals
    have hset : dates \ {d' | d' ∈ d :: removals} = (dates \ {d}) \ {d' | d' ∈ removals} := by
      ext q
      simp [and_assoc]
    rw [hset]
    exact ih (h.ldiff hd) hrest

/-- Removing what is not there leaves the integer as it is. -/
theorem Represents.ldiff_of_notMem {first d : LocalDate} {flags : ℤ} {dates : Set LocalDate}
    (h : Represents first flags dates) (hle : first ≤ d) (hd : d ∉ dates) :
    Int.ldiff flags (mask first d) = flags := by
  have habsent : position first d ∉ bits flags := by
    rwa [h d hle]
  apply bits_injective
  rw [bits_ldiff, bits_mask]
  exact Set.sdiff_singleton_eq_self habsent

theorem removeMasks_perm {first : LocalDate} {removals removals' : List LocalDate} (flags : ℤ)
    (hperm : removals.Perm removals') :
    removeMasks flags first removals' = removeMasks flags first removals := by
  apply bits_injective
  simp only [bits_removeMasks, hperm.mem_iff]

/-- Over an unbounded `BigInteger`, the flags of a list whose first date is the earliest, after any
removals, are the set of the dates that were not removed. -/
theorem flags_refine_dates {supported : ℤ → Bool} (hunbounded : ∀ v, supported v = true)
    {first : LocalDate} {rest removals : List LocalDate}
    (hrest : ∀ d ∈ rest, first ≤ d ∧ FitsInt first d)
    (hremovals : ∀ d ∈ removals, first ≤ d ∧ FitsInt first d) :
    ∃ flags left, toFlags supported (first :: rest) = some flags ∧
      removeFlags supported flags first removals = some left ∧
      (∀ q, first ≤ q → FitsInt first q →
        hasFlag supported left first q = some (decide (q ∈ first :: rest ∧ q ∉ removals))) ∧
      (∀ removals', removals.Perm removals' →
        removeFlags supported flags first removals' = some left) ∧
      ∀ d, first ≤ d → FitsInt first d → ¬(d ∈ first :: rest ∧ d ∉ removals) →
        removeFlag supported left first d = some left := by
  have hset := (represents_masks fun d hd => (hrest d hd).1).removeMasks
    fun d hd => (hremovals d hd).1
  refine ⟨_, _, toFlags_of_unbounded hunbounded fun d hd => (hrest d hd).2,
    removeFlags_of_unbounded hunbounded _ fun d hd => (hremovals d hd).2, ?_, ?_, ?_⟩
  · intro q hq hfits
    obtain ⟨found, hfound⟩ := exists_hasFlag_of_unbounded hunbounded _ hfits
    rw [hfound, Option.some.injEq, Bool.eq_iff_iff, decide_eq_true_iff,
      hasFlag_eq_some hfits hfound]
    exact hset q hq
  · intro removals' hperm
    rw [removeFlags_of_unbounded hunbounded _ fun d hd => (hremovals d (hperm.mem_iff.mpr hd)).2,
      removeMasks_perm _ hperm]
  · intro d hle hfits hd
    rw [removeFlag_of_unbounded hunbounded _ hfits, hset.ldiff_of_notMem hle hd]

theorem january_pos : 1 ≤ 1 := Nat.le_refl 1

theorem january_le : 1 ≤ 12 := by decide

/-- A day of January 2021. -/
def january (day : ℕ) (h : 1 ≤ day ∧ day ≤ 31) : LocalDate where
  year := 2021
  month := 1
  day := day
  month_pos := january_pos
  month_le := january_le
  day_pos := h.1
  day_le := h.2

/-- The first, the third and the second, of which the third is removed. -/
theorem flags_refine_dates_january :
    ∃ flags left, toFlags (fun _ => true)
        [january 1 (by decide), january 3 (by decide), january 2 (by decide)] = some flags ∧
      removeFlags (fun _ => true) flags (january 1 (by decide)) [january 3 (by decide)] =
        some left ∧
      hasFlag (fun _ => true) left (january 1 (by decide)) (january 2 (by decide)) = some true := by
  obtain ⟨flags, left, hflags, hleft, hfound, -⟩ :=
    @flags_refine_dates (fun _ => true) (fun _ => rfl) (january 1 (by decide))
      [january 3 (by decide), january 2 (by decide)] [january 3 (by decide)]
      (by decide +kernel) (by decide +kernel)
  refine ⟨flags, left, hflags, hleft, ?_⟩
  rw [hfound (january 2 (by decide)) (by decide +kernel) (by decide +kernel)]
  decide +kernel

/-! ## Lists in any order -/

section AnyOrder

variable {supported : ℤ → Bool}

/-- Of two masks of one bit each, removing the one takes the other away iff they are the same. -/
theorem hasFlag_removeFlag {first a b : LocalDate} (ha : FitsInt first a) (hb : FitsInt first b)
    {flags left : ℤ} {found found' : Bool}
    (hleft : removeFlag supported flags first a = some left)
    (hfound : hasFlag supported flags first b = some found)
    (hfound' : hasFlag supported left first b = some found') :
    found' = true ↔ found = true ∧ position first b ≠ position first a := by
  rw [hasFlag_eq_some hb hfound', hasFlag_eq_some hb hfound, removeFlag_eq_some ha hleft,
    bits_ldiff, bits_mask, Set.mem_sdiff, Set.mem_singleton_iff]

theorem land_mask_eq_zero_iff (first a b : LocalDate) :
    Int.land (mask first a) (mask first b) = 0 ↔ position first a ≠ position first b := by
  rw [land_eq_zero_iff, bits_mask, bits_mask, Set.disjoint_singleton]

/-- The dates of the list that are after the first one, each once. -/
def later (first : LocalDate) (rest : List LocalDate) : Finset LocalDate :=
  (rest.filter fun d => first < d).toFinset

theorem mem_later {first d : LocalDate} {rest : List LocalDate} :
    d ∈ later first rest ↔ d ∈ rest ∧ first < d := by
  simp [later]

theorem position_eq_zero_iff {first d : LocalDate} : position first d = 0 ↔ d ≤ first := by
  rw [← LocalDate.toEpochDay_strictMono.le_iff_le]
  unfold position
  omega

/-- The lowest bit, and one for each later date. -/
theorem bits_eq_insert (first : LocalDate) (rest : List LocalDate) :
    {i | ∃ d ∈ first :: rest, position first d = i} =
      (insert 0 ((later first rest).image (position first)) : Finset ℕ) := by
  ext i
  simp only [Set.mem_ofPred_eq, Finset.coe_insert, Finset.coe_image, Set.mem_insert_iff,
    Set.mem_image, Finset.mem_coe, mem_later]
  constructor
  · rintro ⟨d, hd, rfl⟩
    -- the dates up to the first one share the lowest bit
    rcases le_or_gt d first with hle | hlt
    · left
      exact position_eq_zero_iff.mpr hle
    · right
      rcases List.mem_cons.mp hd with rfl | hd
      · exact absurd hlt (lt_irrefl _)
      · exact ⟨d, ⟨hd, hlt⟩, rfl⟩
  · rintro (rfl | ⟨d, ⟨hd, -⟩, rfl⟩)
    · exact ⟨first, List.mem_cons_self, position_eq_zero_iff.mpr le_rfl⟩
    · exact ⟨d, List.mem_cons_of_mem _ hd, rfl⟩

theorem ncard_bits_masks (first : LocalDate) (rest : List LocalDate) :
    (bits (masks first rest)).ncard = (later first rest).card + 1 := by
  have hinj : Set.InjOn (position first) (later first rest) := by
    intro a ha b hb hab
    exact (position_inj (mem_later.mp ha).2.le (mem_later.mp hb).2.le).mp hab
  have hzero : 0 ∉ (later first rest).image (position first) := by
    intro hmem
    obtain ⟨d, hd, hposition⟩ := Finset.mem_image.mp hmem
    exact absurd (position_eq_zero_iff.mp hposition) (not_le.mpr (mem_later.mp hd).2)
  rw [bits_masks, bits_eq_insert, Set.ncard_coe_finset, Finset.card_insert_of_notMem hzero,
    Finset.card_image_of_injOn hinj]

/-- Each date of the list has a bit of its own iff the first one is the earliest. -/
theorem later_card_eq_iff (first : LocalDate) (rest : List LocalDate) :
    (later first rest).card + 1 = (first :: rest).toFinset.card ↔ ∀ d ∈ rest, first ≤ d := by
  have hfirst : first ∉ later first rest := fun h => lt_irrefl _ (mem_later.mp h).2
  have hsubset : insert first (later first rest) ⊆ (first :: rest).toFinset := by
    intro d hd
    rw [List.mem_toFinset, List.mem_cons]
    rcases Finset.mem_insert.mp hd with rfl | hd
    · exact .inl rfl
    · exact .inr (mem_later.mp hd).1
  rw [← Finset.card_insert_of_notMem hfirst]
  constructor
  -- with as many elements as the list, the subset leaves no date of it out
  · intro hcard d hd
    have hmem : d ∈ insert first (later first rest) := by
      rw [Finset.eq_of_subset_of_card_le hsubset hcard.ge, List.mem_toFinset]
      exact List.mem_cons_of_mem _ hd
    rcases Finset.mem_insert.mp hmem with rfl | hd
    · exact le_rfl
    · exact (mem_later.mp hd).2.le
  · intro h
    congr 1
    apply hsubset.antisymm
    intro d hd
    rw [List.mem_toFinset, List.mem_cons] at hd
    rcases hd with rfl | hd
    · exact Finset.mem_insert_self _ _
    · rcases (h d hd).eq_or_lt with rfl | hlt
      · exact Finset.mem_insert_self _ _
      · exact Finset.mem_insert_of_mem (mem_later.mpr ⟨hd, hlt⟩)

/-- Whenever the flags exist, different dates share their bit iff neither is after the first one;
the dates of a list up to the first one have one bit together, and removing a date touches those
that share its bit alone. -/
theorem toFlag_overlap {first a b : LocalDate} (hne : a ≠ b) (ha : FitsInt first a)
    (hb : FitsInt first b) :
    (∀ flagA flagB, toFlag supported first a = some flagA → toFlag supported first b = some flagB →
      (Int.land flagA flagB = 0 ↔ first < a ∨ first < b)) ∧
    (∀ flags left found found', removeFlag supported flags first a = some left →
      hasFlag supported flags first b = some found →
      hasFlag supported left first b = some found' →
      (found' = true ↔ found = true ∧ (first < a ∨ first < b))) ∧
    ∀ rest, (∀ d ∈ rest, FitsInt first d) →
      ∀ flags, toFlags supported (first :: rest) = some flags →
        (bits flags).ncard = (later first rest).card + 1 ∧
        ((bits flags).ncard = (first :: rest).toFinset.card ↔ ∀ d ∈ rest, first ≤ d) := by
  have hposition : position first a ≠ position first b ↔ first < a ∨ first < b := by
    rw [Ne, position_eq_iff, or_iff_right hne, not_and_or, not_le, not_le]
  refine ⟨?_, ?_, ?_⟩
  · intro flagA flagB hflagA hflagB
    rw [toFlag_eq_some ha hflagA, toFlag_eq_some hb hflagB, land_mask_eq_zero_iff, hposition]
  · intro flags left found found' hleft hfound hfound'
    rw [hasFlag_removeFlag ha hb hleft hfound hfound', ne_comm, hposition]
  · intro rest hrest flags hflags
    obtain rfl := toFlags_eq_some hrest hflags
    have hncard := ncard_bits_masks first rest
    exact ⟨hncard, by rw [hncard, later_card_eq_iff]⟩

end AnyOrder

/-- With the third as the first date of the list, the first and the second have one bit, so that
three dates have one bit together and removing the one takes the other away. -/
theorem toFlag_overlap_january :
    january 1 (by decide) ≠ january 2 (by decide) ∧
      toFlag supportedByJdk (january 3 (by decide)) (january 1 (by decide)) = some 1 ∧
      toFlag supportedByJdk (january 3 (by decide)) (january 2 (by decide)) = some 1 ∧
      Int.land 1 1 ≠ 0 ∧
      toFlags supportedByJdk
        [january 3 (by decide), january 1 (by decide), january 2 (by decide)] = some 1 ∧
      bits 1 = {0} ∧
      hasFlag supportedByJdk 1 (january 3 (by decide)) (january 2 (by decide)) = some true ∧
      removeFlag supportedByJdk 1 (january 3 (by decide)) (january 1 (by decide)) = some 0 ∧
      hasFlag supportedByJdk 0 (january 3 (by decide)) (january 2 (by decide)) = some false := by
  have hbits : bits 1 = {0} := bits_two_pow 0
  refine ⟨?_, ?_, ?_, ?_, ?_, hbits, ?_, ?_, ?_⟩ <;> decide +kernel

/-- The first, and the fourth after the third, whose flags 1 and 2 the JDK supports. -/
theorem toFlag_overlap_later :
    toFlag supportedByJdk (january 3 (by decide)) (january 1 (by decide)) = some 1 ∧
      toFlag supportedByJdk (january 3 (by decide)) (january 4 (by decide)) = some 2 ∧
      Int.land 1 2 = 0 := by
  have hone : toFlag supportedByJdk (january 3 (by decide)) (january 1 (by decide)) = some 1 := by
    decide +kernel
  have htwo : toFlag supportedByJdk (january 3 (by decide)) (january 4 (by decide)) = some 2 := by
    decide +kernel
  refine ⟨hone, htwo, ?_⟩
  exact ((toFlag_overlap (by decide +kernel) (by decide +kernel) (by decide +kernel)).1 1 2 hone
    htwo).mpr (by decide +kernel)

end Bitwise.DateBitwise
