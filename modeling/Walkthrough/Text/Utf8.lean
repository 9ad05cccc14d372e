/-
# UTF-8 with recovery

`encode` writes characters as UTF-8.  `decodeLossy` reads any bytes: it is a one-byte
machine that holds the part of a character read so far.  A byte that cannot continue the
held part ends it, the part becomes one `U+FFFD`, and the byte is looked at again as the
first of a character, so every maximal invalid part is written as exactly one `U+FFFD`.

| first byte | continuation bytes | range of the first of them |
| --- | ---: | --- |
| `00`–`7F` | 0 | |
| `C2`–`DF` | 1 | `80`–`BF` |
| `E0` | 2 | `A0`–`BF` |
| `E1`–`EC`, `EE`, `EF` | 2 | `80`–`BF` |
| `ED` | 2 | `80`–`9F` |
| `F0` | 3 | `90`–`BF` |
| `F1`–`F3` | 3 | `80`–`BF` |
| `F4` | 3 | `80`–`8F` |
-/

namespace Walkthrough
namespace Text
namespace Utf8

/-- The character that stands for an invalid part. -/
def replacement : Char := Char.ofNat 0xFFFD

/-- What has been read of a character: nothing, or the value of the bits so far, how many
continuation bytes follow, and the range the next of them must lie in. -/
inductive Held where
  | nothing
  | part (bits more lo hi : Nat)
deriving DecidableEq, Repr

/-- A byte at the start of a character: the characters it completes and what it leaves held. -/
def begin (b : Nat) : List Char × Held :=
  if b < 0x80 then ([Char.ofNat b], .nothing)
  else if b < 0xC2 then ([replacement], .nothing)
  else if b < 0xE0 then ([], .part (b - 0xC0) 1 0x80 0xBF)
  else if b = 0xE0 then ([], .part 0 2 0xA0 0xBF)
  else if b = 0xED then ([], .part 0xD 2 0x80 0x9F)
  else if b < 0xF0 then ([], .part (b - 0xE0) 2 0x80 0xBF)
  else if b = 0xF0 then ([], .part 0 3 0x90 0xBF)
  else if b < 0xF4 then ([], .part (b - 0xF0) 3 0x80 0xBF)
  else if b = 0xF4 then ([], .part 4 3 0x80 0x8F)
  else ([replacement], .nothing)

/-- One byte: the characters it completes and what is held after it. -/
def feed : Held → Nat → List Char × Held
  | .nothing, b => begin b
  | .part bits more lo hi, b =>
    if lo ≤ b ∧ b ≤ hi then
      if more ≤ 1 then ([Char.ofNat (bits * 64 + (b - 0x80))], .nothing)
      else ([], .part (bits * 64 + (b - 0x80)) (more - 1) 0x80 0xBF)
    else (replacement :: (begin b).1, (begin b).2)

/-- What the end of the bytes makes of a held part. -/
def flush : Held → List Char
  | .nothing => []
  | .part .. => [replacement]

/-- The characters of the bytes behind a held part. -/
def decodeFrom : Held → List UInt8 → List Char
  | h, [] => flush h
  | h, b :: bs => (feed h b.toNat).1 ++ decodeFrom (feed h b.toNat).2 bs

/-- The characters of any bytes, each maximal invalid part as one `U+FFFD`. -/
def decodeLossy (bs : List UInt8) : List Char :=
  decodeFrom .nothing bs

/-- The bytes of a text. -/
def encode (s : List Char) : List UInt8 :=
  s.flatMap String.utf8EncodeChar

/-- The text of the bytes, when they are the bytes of a text. -/
def decode? (bs : List UInt8) : Option (List Char) :=
  if encode (decodeLossy bs) = bs then some (decodeLossy bs) else none

/-- How many bytes a text has. -/
def size (s : List Char) : Nat :=
  s.foldr (fun c n => c.utf8Size + n) 0

end Utf8
end Text
end Walkthrough
