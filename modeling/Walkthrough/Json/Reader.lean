/-
# Reading JSON

The reader walks the characters of a text and keeps the number of bytes behind it, so a
failure can name the byte it happened at.  Two places are named: the cursor itself
(`here`), and one byte further but never behind the end (`ahead`), for a character that
was looked at and not taken.

Nesting is bounded: `readValue d` enters at most `d` arrays and objects, one inside the
other.  The loops over items, members and characters of a string are bounded by the
length of the text, which they shorten at every turn.
-/

import Walkthrough.Json.Failure
import Walkthrough.Json.Value

namespace Walkthrough
namespace Json

open Number (Binary64)

/-- The rest of a text and the number of bytes before it. -/
structure Cursor where
  offset : Nat
  rest : List Char
deriving DecidableEq, Repr

/-- A reader takes characters off the front of the text or fails. -/
abbrev Reader (α : Type) := Cursor → Except Failure (α × Cursor)

namespace Cursor

/-- The start of a text. -/
def ofText (text : List Char) : Cursor := ⟨0, text⟩

/-- The cursor behind a character, with the text that follows it. -/
def past (c : Cursor) (x : Char) (rest : List Char) : Cursor := ⟨c.offset + x.utf8Size, rest⟩

/-- The byte behind the next one, or the end of the text. -/
def aheadOffset (c : Cursor) : Nat :=
  match c.rest with
  | [] => c.offset
  | _ :: _ => c.offset + 1

/-- A failure at the cursor. -/
def here (c : Cursor) (cause : Cause) : Failure := ⟨cause, c.offset⟩

/-- A failure at the character the cursor looks at. -/
def ahead (c : Cursor) (cause : Cause) : Failure := ⟨cause, c.aheadOffset⟩

/-- A failure behind the byte the cursor looks at. -/
def behindByte (c : Cursor) (cause : Cause) : Failure := ⟨cause, c.offset + 1⟩

end Cursor

/-- The four characters allowed between tokens. -/
def isSpace (c : Char) : Bool :=
  c == ' ' || c == '\t' || c == '\n' || c == '\r'

/-- The cursor behind the characters that satisfy `p`; each of them has one byte. -/
def skipWhile (p : Char → Bool) (c : Cursor) : Cursor :=
  ⟨c.offset + (c.rest.takeWhile p).length, c.rest.dropWhile p⟩

/-- The cursor behind the space at it. -/
def skipSpace (c : Cursor) : Cursor :=
  skipWhile isSpace c

/-! ## Words and numbers -/

/-- Reads the characters of a word. -/
def readWord : List Char → Reader Unit
  | [], c => .ok ((), c)
  | w :: ws, c =>
    match c.rest with
    | [] => .error (c.here .endInValue)
    | x :: rest =>
      if x = w then readWord ws (c.past x rest) else .error (c.behindByte .expectedWord)

/-- Whether the character is a decimal digit. -/
def isDigit (c : Char) : Bool :=
  decide ('0'.toNat ≤ c.toNat) && decide (c.toNat ≤ '9'.toNat)

/-- The value of a decimal digit. -/
def digitValue (c : Char) : Nat :=
  c.toNat - '0'.toNat

/-- The greatest significand that is kept exactly. -/
def maxSignificand : Nat := Nat.pow 2 64 - 1

/-- The digits read so far: a significand, the power of ten it is scaled by, and whether a
digit was dropped because the significand had no room for it. -/
structure Digits where
  significand : Nat
  exponent : Int
  full : Bool
deriving DecidableEq, Repr

/-- One more digit before the point: dropped digits scale the number up. -/
def Digits.pushWhole (d : Digits) (c : Char) : Digits :=
  if d.full || decide (maxSignificand < d.significand * 10 + digitValue c) then
    ⟨d.significand, d.exponent + 1, true⟩
  else ⟨d.significand * 10 + digitValue c, d.exponent, false⟩

/-- One more digit behind the point: a kept digit scales the number down. -/
def Digits.pushPart (d : Digits) (c : Char) : Digits :=
  if d.full || decide (maxSignificand < d.significand * 10 + digitValue c) then
    ⟨d.significand, d.exponent, true⟩
  else ⟨d.significand * 10 + digitValue c, d.exponent - 1, false⟩

/-- The greatest exponent that is read. -/
def maxWrittenExponent : Nat := Nat.pow 2 31 - 1

/-- Reads the value of exponent digits; `none` with the cursor behind the digit that makes
it too great. -/
def exponentFrom : (value : Nat) → Cursor → List Char → Option Nat × Cursor
  | value, c, [] => (some value, c)
  | value, c, x :: rest =>
    if isDigit x then
      let value' := value * 10 + digitValue x
      if maxWrittenExponent < value' then (none, c.past x rest)
      else exponentFrom value' (c.past x rest) rest
    else (some value, c)

/-- The double of the digits, scaled further. -/
def realOf (isNegative : Bool) (significand : Nat) (exponent : Int) (c : Cursor) :
    Except Failure (Numeral × Cursor) :=
  match Binary64.ofDecimal significand exponent with
  | some v => .ok (.real isNegative v, c)
  | none => .error (c.here .numberOutOfRange)

/-- Reads the exponent behind its mark. -/
def readExponent (isNegative : Bool) (d : Digits) (c : Cursor) :
    Except Failure (Numeral × Cursor) :=
  let signed : Bool × Cursor := match c.rest with
    | '+' :: rest => (false, c.past '+' rest)
    | '-' :: rest => (true, c.past '-' rest)
    | _ => (false, c)
  let c := signed.2
  match c.rest with
  | [] => .error (c.here .endInValue)
  | x :: _ =>
    if isDigit x then
      match exponentFrom 0 c c.rest with
      | (some e, c') =>
        realOf isNegative d.significand (if signed.1 then d.exponent - e else d.exponent + e) c'
      | (none, c') =>
        if d.significand ≠ 0 ∧ signed.1 = false then .error (c'.here .numberOutOfRange)
        else .ok (.real isNegative Binary64.zero, skipWhile isDigit c')
    else .error (c.behindByte .invalidNumber)

/-- Reads what may follow the digits of a number with a point: an exponent. -/
def readScale (isNegative : Bool) (d : Digits) (c : Cursor) : Except Failure (Numeral × Cursor) :=
  match c.rest with
  | 'e' :: rest => readExponent isNegative d (c.past 'e' rest)
  | 'E' :: rest => readExponent isNegative d (c.past 'E' rest)
  | _ => realOf isNegative d.significand d.exponent c

/-- Reads the digits behind the point, at least one. -/
def readPart (isNegative : Bool) (d : Digits) (c : Cursor) : Except Failure (Numeral × Cursor) :=
  let ds := c.rest.takeWhile isDigit
  if ds.isEmpty then
    match c.rest with
    | [] => .error (c.ahead .endInValue)
    | _ :: _ => .error (c.ahead .invalidNumber)
  else readScale isNegative (ds.foldl Digits.pushPart ⟨d.significand, d.exponent, false⟩)
    (skipWhile isDigit c)

/-- The number of whole digits without point and exponent.  Zero with a sign is a double,
and so is a number that has no room among the whole ones. -/
def wholeNumeral (isNegative : Bool) (d : Digits) (c : Cursor) :
    Except Failure (Numeral × Cursor) :=
  if d.full then realOf isNegative d.significand d.exponent c
  else if !isNegative then .ok (.natural d.significand, c)
  else if d.significand = 0 ∨ Nat.pow 2 63 < d.significand then realOf true d.significand 0 c
  else .ok (.negative d.significand, c)

/-- Reads what may follow the whole digits. -/
def readFraction (isNegative : Bool) (d : Digits) (c : Cursor) :
    Except Failure (Numeral × Cursor) :=
  match c.rest with
  | '.' :: rest => readPart isNegative d (c.past '.' rest)
  | 'e' :: rest => readExponent isNegative d (c.past 'e' rest)
  | 'E' :: rest => readExponent isNegative d (c.past 'E' rest)
  | _ => wholeNumeral isNegative d c

/-- Reads a number behind its sign.  A leading zero stands alone. -/
def readUnsigned (isNegative : Bool) (c : Cursor) : Except Failure (Numeral × Cursor) :=
  match c.rest with
  | [] => .error (c.here .endInValue)
  | x :: rest =>
    if x = '0' then
      let c' := c.past x rest
      match rest with
      | y :: _ =>
        if isDigit y then .error (c'.ahead .invalidNumber)
        else readFraction isNegative ⟨0, 0, false⟩ c'
      | [] => readFraction isNegative ⟨0, 0, false⟩ c'
    else if isDigit x then
      readFraction isNegative ((c.rest.takeWhile isDigit).foldl Digits.pushWhole ⟨0, 0, false⟩)
        (skipWhile isDigit c)
    else .error (c.behindByte .invalidNumber)

/-- Reads a number, at its sign or its first digit. -/
def readNumber : Reader Numeral := fun c =>
  match c.rest with
  | '-' :: rest => readUnsigned true (c.past '-' rest)
  | _ => readUnsigned false c

/-! ## Strings -/

/-- The value of a hexadecimal digit. -/
def hexValue? (c : Char) : Option Nat :=
  if isDigit c then some (digitValue c)
  else if 'a'.toNat ≤ c.toNat ∧ c.toNat ≤ 'f'.toNat then some (c.toNat - 'a'.toNat + 10)
  else if 'A'.toNat ≤ c.toNat ∧ c.toNat ≤ 'F'.toNat then some (c.toNat - 'A'.toNat + 10)
  else none

/-- Reads four hexadecimal digits. -/
def readHex : Reader Nat := fun c =>
  if Text.Utf8.size (c.rest.take 4) < 4 then
    .error ⟨.endInString, c.offset + Text.Utf8.size (c.rest.take 4)⟩
  else match c.rest with
    | x₁ :: x₂ :: x₃ :: x₄ :: rest =>
      match hexValue? x₁, hexValue? x₂, hexValue? x₃, hexValue? x₄ with
      | some n₁, some n₂, some n₃, some n₄ =>
        .ok (((n₁ * 16 + n₂) * 16 + n₃) * 16 + n₄, ⟨c.offset + 4, rest⟩)
      | _, _, _, _ => .error ⟨.invalidEscape, c.offset + 4⟩
    | _ => .error ⟨.invalidEscape, c.offset + 4⟩

/-- Reads one expected character between the two halves of a surrogate pair. -/
def readPairMark (mark : Char) : Reader Unit := fun c =>
  match c.rest with
  | [] => .error (c.here .endInString)
  | x :: rest => if x = mark then .ok ((), c.past x rest) else .error (c.behindByte .unfinishedPair)

/-- Reads a `\u` escape behind its letter: one code unit, or two that form a pair. -/
def readUnicode : Reader Char := fun c => do
  let (high, c) ← readHex c
  if 0xDC00 ≤ high ∧ high ≤ 0xDFFF then .error (c.here .loneSurrogate)
  else if high < 0xD800 ∨ 0xDBFF < high then .ok (Char.ofNat high, c)
  else do
    let ((), c) ← readPairMark '\\' c
    let ((), c) ← readPairMark 'u' c
    let (low, c) ← readHex c
    if low < 0xDC00 ∨ 0xDFFF < low then .error (c.here .loneSurrogate)
    else .ok (Char.ofNat ((high - 0xD800) * 1024 + (low - 0xDC00) + 0x10000), c)

/-- The character of an escape of one letter. -/
def shortEscape? (c : Char) : Option Char :=
  if c = '\x22' then some '\x22'
  else if c = '\\' then some '\\'
  else if c = '/' then some '/'
  else if c = 'b' then some '\x08'
  else if c = 'f' then some '\x0c'
  else if c = 'n' then some '\n'
  else if c = 'r' then some '\r'
  else if c = 't' then some '\t'
  else none

/-- Reads an escape behind its backslash. -/
def readEscape : Reader Char := fun c =>
  match c.rest with
  | [] => .error (c.here .endInString)
  | x :: rest =>
    if x = 'u' then readUnicode (c.past x rest)
    else match shortEscape? x with
      | some y => .ok (y, c.past x rest)
      | none => .error (c.behindByte .invalidEscape)

/-- Reads the characters of a string and its closing quote. -/
def readCharacters : (steps : Nat) → Reader (List Char)
  | 0, c => .error (c.here .endInString)
  | steps + 1, c =>
    match c.rest with
    | [] => .error (c.here .endInString)
    | x :: rest =>
      if x = '\x22' then .ok ([], c.past x rest)
      else if x = '\\' then do
        let (y, c) ← readEscape (c.past x rest)
        let (ys, c) ← readCharacters steps c
        .ok (y :: ys, c)
      else if x.toNat < 0x20 then .error (c.behindByte .controlCharacter)
      else do
        let (ys, c) ← readCharacters steps (c.past x rest)
        .ok (x :: ys, c)

/-- Reads a string behind its opening quote. -/
def readString : Reader String := fun c => do
  let (s, c) ← readCharacters (c.rest.length + 1) c
  .ok (String.ofList s, c)

/-! ## Arrays and objects -/

/-- Moves to the next item of an array, and tells whether there is one. -/
def nextItem (first : Bool) : Reader Bool := fun c =>
  let c := skipSpace c
  match c.rest with
  | [] => .error (c.ahead .endInList)
  | ']' :: _ => .ok (false, c)
  | x :: rest =>
    if first then .ok (true, c)
    else if x = ',' then
      let c := skipSpace (c.past x rest)
      match c.rest with
      | [] => .error (c.ahead .endInValue)
      | ']' :: _ => .error (c.ahead .trailingComma)
      | _ :: _ => .ok (true, c)
    else .error (c.ahead .expectedListComma)

/-- Reads a key at its opening quote. -/
def readKey (c : Cursor) : Except Failure (Option String × Cursor) :=
  match c.rest with
  | [] => .error (c.ahead .endInValue)
  | x :: rest =>
    if x = '\x22' then do
      let (k, c) ← readString (c.past x rest)
      .ok (some k, c)
    else if x = '\x7d' then .error (c.ahead .trailingComma)
    else .error (c.ahead .keyNotString)

/-- Reads the next key of an object, if there is one. -/
def nextKey (first : Bool) : Reader (Option String) := fun c =>
  let c := skipSpace c
  match c.rest with
  | [] => .error (c.ahead .endInObject)
  | x :: rest =>
    if x = '\x7d' then .ok (none, c)
    else if first then readKey c
    else if x = ',' then readKey (skipSpace (c.past x rest))
    else .error (c.ahead .expectedObjectComma)

/-- Reads the colon behind a key. -/
def readColon : Reader Unit := fun c =>
  let c := skipSpace c
  match c.rest with
  | [] => .error (c.ahead .endInObject)
  | x :: rest => if x = ':' then .ok ((), c.past x rest) else .error (c.ahead .expectedColon)

/-- Reads the items of an array and its closing bracket. -/
def readItems (item : Reader Value) : (steps : Nat) → (first : Bool) → Reader (List Value)
  | 0, _, c => .error (c.ahead .endInList)
  | steps + 1, first, c => do
    let (more, c) ← nextItem first c
    if more then do
      let (v, c) ← item c
      let (vs, c) ← readItems item steps false c
      .ok (v :: vs, c)
    else .ok ([], c.past ']' (c.rest.drop 1))

/-- Reads the members of an object and its closing brace. -/
def readMembers (item : Reader Value) :
    (steps : Nat) → (first : Bool) → Reader (List (String × Value))
  | 0, _, c => .error (c.ahead .endInObject)
  | steps + 1, first, c => do
    let (key, c) ← nextKey first c
    match key with
    | none => .ok ([], c.past '\x7d' (c.rest.drop 1))
    | some k => do
      let ((), c) ← readColon c
      let (v, c) ← item c
      let (ms, c) ← readMembers item steps false c
      .ok ((k, v) :: ms, c)

/-- Reads a value that enters no array and no object, at its first character. -/
def readScalar : Reader Value := fun c =>
  match c.rest with
  | [] => .error (c.ahead .endInValue)
  | x :: rest =>
    if x = 'n' then (readWord ['u', 'l', 'l'] (c.past x rest)).map fun r => (.null, r.2)
    else if x = 't' then (readWord ['r', 'u', 'e'] (c.past x rest)).map fun r => (.bool true, r.2)
    else if x = 'f' then
      (readWord ['a', 'l', 's', 'e'] (c.past x rest)).map fun r => (.bool false, r.2)
    else if x = '\x22' then (readString (c.past x rest)).map fun r => (.string r.1, r.2)
    else if x = '-' ∨ isDigit x = true then (readNumber c).map fun r => (.number r.1, r.2)
    else .error (c.ahead .expectedValue)

/-- Reads a value that enters at most `depth` arrays and objects, one inside the other. -/
def readValue : (depth : Nat) → Reader Value
  | depth, c =>
    let c := skipSpace c
    match c.rest with
    | '[' :: rest =>
      match depth with
      | 0 => .error (c.ahead .tooDeep)
      | depth + 1 => do
        let (vs, c) ← readItems (readValue depth) (rest.length + 1) true (c.past '[' rest)
        .ok (.array vs, c)
    | '\x7b' :: rest =>
      match depth with
      | 0 => .error (c.ahead .tooDeep)
      | depth + 1 => do
        let (ms, c) ← readMembers (readValue depth) (rest.length + 1) true (c.past '\x7b' rest)
        .ok (.object ms, c)
    | _ => readScalar c

/-- How many arrays and objects may be open at once. -/
def maxDepth : Nat := 127

/-- Fails when something other than space is left. -/
def expectEnd (c : Cursor) : Except Failure Unit :=
  let c := skipSpace c
  match c.rest with
  | [] => .ok ()
  | _ :: _ => .error (c.ahead .trailingCharacters)

/-- The value that a whole text writes. -/
def parse (text : List Char) : Except Failure Value := do
  let (v, c) ← readValue maxDepth (Cursor.ofText text)
  expectEnd c
  .ok v

end Json
end Walkthrough
