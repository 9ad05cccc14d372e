/-
# MD5

The digest that `md5sum` prints.  The bytes are followed by `80`, by zeros and by the number
of their bits in eight bytes, so that blocks of sixty-four bytes are filled.  Every block
turns a state of four words into the next one in sixty-four steps.

| steps | mixed bits | word of the block | rotations |
| --- | --- | --- | --- |
| 0–15 | `(b & c) ^ (~b & d)` | `i` | 7 12 17 22 |
| 16–31 | `(d & b) ^ (~d & c)` | `5i + 1` | 5 9 14 20 |
| 32–47 | `b ^ c ^ d` | `3i + 5` | 4 11 16 23 |
| 48–63 | `c ^ (b or ~d)` | `7i` | 6 10 15 21 |

Part of the kernel that the executable runs with (`Shell.kernel`).  The theorems of the library
are about every kernel, and none is about this one alone.
-/

namespace Walkthrough
namespace Shell
namespace Md5

/-- The constants of the steps: the fractions of sines. -/
def sines : Array UInt32 :=
  #[0xd76aa478, 0xe8c7b756, 0x242070db, 0xc1bdceee, 0xf57c0faf, 0x4787c62a,
   0xa8304613, 0xfd469501, 0x698098d8, 0x8b44f7af, 0xffff5bb1, 0x895cd7be,
   0x6b901122, 0xfd987193, 0xa679438e, 0x49b40821, 0xf61e2562, 0xc040b340,
   0x265e5a51, 0xe9b6c7aa, 0xd62f105d, 0x02441453, 0xd8a1e681, 0xe7d3fbc8,
   0x21e1cde6, 0xc33707d6, 0xf4d50d87, 0x455a14ed, 0xa9e3e905, 0xfcefa3f8,
   0x676f02d9, 0x8d2a4c8a, 0xfffa3942, 0x8771f681, 0x6d9d6122, 0xfde5380c,
   0xa4beea44, 0x4bdecfa9, 0xf6bb4b60, 0xbebfbc70, 0x289b7ec6, 0xeaa127fa,
   0xd4ef3085, 0x04881d05, 0xd9d4d039, 0xe6db99e5, 0x1fa27cf8, 0xc4ac5665,
   0xf4292244, 0x432aff97, 0xab9423a7, 0xfc93a039, 0x655b59c3, 0x8f0ccc92,
   0xffeff47d, 0x85845dd1, 0x6fa87e4f, 0xfe2ce6e0, 0xa3014314, 0x4e0811a1,
   0xf7537e82, 0xbd3af235, 0x2ad7d2bb, 0xeb86d391]

/-- The rotations of the steps, four for each sixteen. -/
def rotations : Array UInt32 :=
  #[7, 12, 17, 22, 5, 9, 14, 20, 4, 11, 16, 23, 6, 10, 15, 21]

/-- The four words between blocks. -/
structure State where
  a : UInt32 := 0x67452301
  b : UInt32 := 0xefcdab89
  c : UInt32 := 0x98badcfe
  d : UInt32 := 0x10325476
deriving DecidableEq, Repr

/-- A word with its bits rotated to the left. -/
def rotate (x n : UInt32) : UInt32 :=
  (x <<< n) ||| (x >>> (32 - n))

/-- The mixed bits of a step, and the word of the block that it takes. -/
def mix (s : State) (i : Nat) : UInt32 × Nat :=
  match i / 16 with
  | 0 => ((s.b &&& s.c) ^^^ (~~~s.b &&& s.d), i)
  | 1 => ((s.d &&& s.b) ^^^ (~~~s.d &&& s.c), (5 * i + 1) % 16)
  | 2 => (s.b ^^^ s.c ^^^ s.d, (3 * i + 5) % 16)
  | _ => (s.c ^^^ (s.b ||| ~~~s.d), (7 * i) % 16)

/-- One step. -/
def step (words : Array UInt32) (s : State) (i : Nat) : State :=
  let (bits, k) := mix s i
  let sum := s.a + bits + sines.getD i 0 + words.getD k 0
  let turned := rotate sum (rotations.getD (i / 16 * 4 + i % 4) 0)
  { a := s.d, b := s.b + turned, c := s.b, d := s.c }

/-- One block. -/
def block (s : State) (words : Array UInt32) : State :=
  let t := (List.range 64).foldl (step words) s
  { a := s.a + t.a, b := s.b + t.b, c := s.c + t.c, d := s.d + t.d }

/-- The words of bytes, four bytes each, the lowest first. -/
def wordsOf : List UInt8 → List UInt32
  | a :: b :: c :: d :: bs =>
    (a.toUInt32 ||| b.toUInt32 <<< 8 ||| c.toUInt32 <<< 16 ||| d.toUInt32 <<< 24) :: wordsOf bs
  | _ => []

/-- The bytes of a number, the lowest first. -/
def bytesOf (n : Nat) : (count : Nat) → List UInt8
  | 0 => []
  | count + 1 => UInt8.ofNat n :: bytesOf (n / 256) count

/-- The bytes with what fills the last block. -/
def padded (bs : List UInt8) : List UInt8 :=
  let zeros := (119 - bs.length % 64) % 64
  bs ++ 0x80 :: List.replicate zeros 0 ++ bytesOf (8 * bs.length) 8

/-- The state after blocks of sixteen words; `count` bounds their number. -/
def blocks : (count : Nat) → State → List UInt32 → State
  | 0, s, _ => s
  | count + 1, s, ws =>
    if ws.isEmpty then s else blocks count (block s (ws.take 16).toArray) (ws.drop 16)

/-- The digest of bytes. -/
def digest (bs : List UInt8) : List UInt8 :=
  let ws := wordsOf (padded bs)
  let s := blocks ws.length {} ws
  [s.a, s.b, s.c, s.d].flatMap fun w => bytesOf w.toNat 4

/-- The digest in hexadecimal digits. -/
def hexDigest (bs : List UInt8) : List Char :=
  (digest bs).flatMap fun b => [Nat.digitChar (b.toNat / 16), Nat.digitChar (b.toNat % 16)]

end Md5
end Shell
end Walkthrough
