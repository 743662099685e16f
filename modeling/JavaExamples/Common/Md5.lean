import Mathlib.Data.List.Basic

/-!
# MD5

The message digest MD5 of a sequence of bytes, on 32-bit words.

* `pad` — the message with its length, in blocks of 64 bytes.
* `compress` — one block, 64 rounds on the four words of the state.
* `digest` — the 16 bytes of the final state.
-/

namespace Md5

abbrev Word := BitVec 32

/-- The state of the digest. -/
structure Working where
  a : Word
  b : Word
  c : Word
  d : Word
  deriving DecidableEq

def initial : Working := ⟨0x67452301, 0xefcdab89, 0x98badcfe, 0x10325476⟩

/-- How far each round rotates; the rounds come in four groups of 16. -/
def shifts : List ℕ :=
  (List.replicate 4 [7, 12, 17, 22] ++ List.replicate 4 [5, 9, 14, 20] ++
    List.replicate 4 [4, 11, 16, 23] ++ List.replicate 4 [6, 10, 15, 21]).flatten

/-- The first 32 bits of the fractional part of `|sin i|`, for `i` from 1 to 64. -/
def constants : List Word :=
  [0xd76aa478, 0xe8c7b756, 0x242070db, 0xc1bdceee, 0xf57c0faf, 0x4787c62a,
    0xa8304613, 0xfd469501, 0x698098d8, 0x8b44f7af, 0xffff5bb1, 0x895cd7be,
    0x6b901122, 0xfd987193, 0xa679438e, 0x49b40821, 0xf61e2562, 0xc040b340,
    0x265e5a51, 0xe9b6c7aa, 0xd62f105d, 0x02441453, 0xd8a1e681, 0xe7d3fbc8,
    0x21e1cde6, 0xc33707d6, 0xf4d50d87, 0x455a14ed, 0xa9e3e905, 0xfcefa3f8,
    0x676f02d9, 0x8d2a4c8a, 0xfffa3942, 0x8771f681, 0x6d9d6122, 0xfde5380c,
    0xa4beea44, 0x4bdecfa9, 0xf6bb4b60, 0xbebfbc70, 0x289b7ec6, 0xeaa127fa,
    0xd4ef3085, 0x04881d05, 0xd9d4d039, 0xe6db99e5, 0x1fa27cf8, 0xc4ac5665,
    0xf4292244, 0x432aff97, 0xab9423a7, 0xfc93a039, 0x655b59c3, 0x8f0ccc92,
    0xffeff47d, 0x85845dd1, 0x6fa87e4f, 0xfe2ce6e0, 0xa3014314, 0x4e0811a1,
    0xf7537e82, 0xbd3af235, 0x2ad7d2bb, 0xeb86d391]

/-- The mixing function of a round and the word of the block that it takes. -/
def mix (round : ℕ) (w : Working) : Word × ℕ :=
  if round < 16 then ((w.b &&& w.c) ||| (~~~w.b &&& w.d), round)
  else if round < 32 then ((w.d &&& w.b) ||| (~~~w.d &&& w.c), (5 * round + 1) % 16)
  else if round < 48 then (w.b ^^^ w.c ^^^ w.d, (3 * round + 5) % 16)
  else (w.c ^^^ (w.b ||| ~~~w.d), 7 * round % 16)

def roundStep (block : List Word) (w : Working) (round : ℕ) : Working :=
  let (mixed, taken) := mix round w
  let sum := mixed + w.a + constants.getD round 0 + block.getD taken 0
  ⟨w.d, w.b + sum.rotateLeft (shifts.getD round 0), w.b, w.c⟩

/-- All rounds on one block, added to the state before. -/
def compress (w : Working) (block : List Word) : Working :=
  let mixed := (List.range 64).foldl (roundStep block) w
  ⟨w.a + mixed.a, w.b + mixed.b, w.c + mixed.c, w.d + mixed.d⟩

/-- The `n` lowest bytes of a number, the lowest first. -/
def littleEndian (n value : ℕ) : List UInt8 :=
  (List.range n).map fun i => UInt8.ofNat (value >>> (8 * i))

/-- The 32-bit words of a sequence of bytes, the lowest byte of each first. -/
def words : List UInt8 → List Word
  | b₀ :: b₁ :: b₂ :: b₃ :: rest =>
    BitVec.ofNat 32 (b₀.toNat + (b₁.toNat <<< 8) + (b₂.toNat <<< 16) + (b₃.toNat <<< 24)) ::
      words rest
  | _ => []

/-- The message, a 1 bit, 0 bits up to 8 bytes before the end of a block, and the length in bits. -/
def pad (message : List UInt8) : List UInt8 :=
  message ++ 0x80 :: List.replicate ((119 - message.length % 64) % 64) 0 ++
    littleEndian 8 (8 * message.length)

def digest (message : List UInt8) : List UInt8 :=
  let final := (words (pad message)).toChunks 16 |>.foldl compress initial
  [final.a, final.b, final.c, final.d].flatMap fun word => littleEndian 4 word.toNat

example : digest [] = [0xd4, 0x1d, 0x8c, 0xd9, 0x8f, 0x00, 0xb2, 0x04, 0xe9, 0x80, 0x09, 0x98,
    0xec, 0xf8, 0x42, 0x7e] := by
  decide +kernel

end Md5
