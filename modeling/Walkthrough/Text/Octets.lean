/-
# Octet texts

The shell works on bytes that need not be UTF-8.  An octet text is a list of characters
below 256, each standing for the byte of its number; ASCII reads the same in both.
-/

import Walkthrough.Text.Utf8

namespace Walkthrough
namespace Text

/-- A text whose characters stand for bytes. -/
abbrev Octets := List Char

namespace Octets

/-- The octet text of bytes. -/
def ofBytes (bs : List UInt8) : Octets :=
  bs.map fun b => Char.ofNat b.toNat

/-- The bytes of an octet text. -/
def toBytes (t : Octets) : List UInt8 :=
  t.map fun c => UInt8.ofNat c.toNat

/-- The octets of a text in UTF-8. -/
def ofText (s : String) : Octets :=
  ofBytes (Utf8.encode s.toList)

/-- The text of octets, invalid parts replaced. -/
def toText (t : Octets) : String :=
  String.ofList (Utf8.decodeLossy (toBytes t))

/-- The decimal digits of a number. -/
def ofNat (n : Nat) : Octets :=
  Nat.toDigits 10 n

/-- The decimal digits of a number, a minus before them when it is negative. -/
def ofInt : Int → Octets
  | .ofNat n => ofNat n
  | .negSucc n => '-' :: ofNat (n + 1)

end Octets
end Text
end Walkthrough
