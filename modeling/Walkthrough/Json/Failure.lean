/-
# Why a text is not JSON, and where

A failure names its cause and the byte at which reading stopped.  `Position.at` turns the
byte into a line and a column: lines count from one and end at a newline, the column is
the number of bytes of that line before the position.
-/

import Walkthrough.Text.Utf8

namespace Walkthrough
namespace Json

/-- Why reading stopped. -/
inductive Cause where
  | endInValue
  | endInObject
  | endInList
  | endInString
  | expectedValue
  | expectedWord
  | invalidNumber
  | numberOutOfRange
  | expectedColon
  | expectedListComma
  | expectedObjectComma
  | keyNotString
  | trailingComma
  | trailingCharacters
  | invalidEscape
  | unfinishedPair
  | loneSurrogate
  | controlCharacter
  | tooDeep
deriving DecidableEq, Repr

/-- The wording of a cause. -/
def Cause.message : Cause → String
  | .endInValue => "EOF while parsing a value"
  | .endInObject => "EOF while parsing an object"
  | .endInList => "EOF while parsing a list"
  | .endInString => "EOF while parsing a string"
  | .expectedValue => "expected value"
  | .expectedWord => "expected ident"
  | .invalidNumber => "invalid number"
  | .numberOutOfRange => "number out of range"
  | .expectedColon => "expected `:`"
  | .expectedListComma => "expected `,` or `]`"
  | .expectedObjectComma => "expected `,` or `\x7d`"
  | .keyNotString => "key must be a string"
  | .trailingComma => "trailing comma"
  | .trailingCharacters => "trailing characters"
  | .invalidEscape => "invalid escape"
  | .unfinishedPair => "unexpected end of hex escape"
  | .loneSurrogate => "lone leading surrogate in hex escape"
  | .controlCharacter => "control character (\\u0000-\\u001F) found while parsing a string"
  | .tooDeep => "recursion limit exceeded"

/-- A cause and the number of bytes before the place it names. -/
structure Failure where
  cause : Cause
  offset : Nat
deriving DecidableEq, Repr

/-- A line, from one, and the bytes of it before a place. -/
structure Position where
  line : Nat
  column : Nat
deriving DecidableEq, Repr

/-- The position `bytes` bytes further into the text. -/
def Position.advance : Position → List Char → (bytes : Nat) → Position
  | p, [], _ => p
  | p, c :: s, bytes =>
    if bytes < c.utf8Size then ⟨p.line, p.column + bytes⟩
    else if c = '\n' then Position.advance ⟨p.line + 1, 0⟩ s (bytes - 1)
    else Position.advance ⟨p.line, p.column + c.utf8Size⟩ s (bytes - c.utf8Size)

/-- The position of a byte of the text. -/
def Position.at (text : List Char) (offset : Nat) : Position :=
  Position.advance ⟨1, 0⟩ text offset

end Json
end Walkthrough
