/-
# JSON values and their compact text

`Value.write` prints a value on one line without blanks, members in the order in which
they are held.  Inside a string a quote and a backslash are escaped by a backslash, the
control characters with a short escape by that escape, every other character below
`U+0020` as `\u` with four lower-case hexadecimal digits; all other characters stand for
themselves.
-/

import Walkthrough.Number.Shortest

namespace Walkthrough
namespace Json

open Number (Binary64)

/-- A JSON number: a natural number, a negative whole number `-n`, or a double. -/
inductive Numeral where
  | natural (n : Nat)
  | negative (n : Nat)
  | real (isNegative : Bool) (value : Binary64)
deriving DecidableEq, Repr

/-- A JSON value; the members of an object keep their order and may repeat a key. -/
inductive Value where
  | null
  | bool (b : Bool)
  | number (n : Numeral)
  | string (s : String)
  | array (items : List Value)
  | object (members : List (String × Value))

/-- A number in decimal digits. -/
def decimalDigits (n : Nat) : List Char :=
  Nat.toDigits 10 n

/-- The text of a number. -/
def Numeral.write : Numeral → List Char
  | .natural n => decimalDigits n
  | .negative n => '-' :: decimalDigits n
  | .real isNegative v =>
    (if isNegative then ['-'] else []) ++ Number.diagnosticLayout.write v.shortest

/-- One lower-case hexadecimal digit of a number below sixteen. -/
def hexDigit (n : Nat) : Char :=
  if n < 10 then Char.ofNat (48 + n) else Char.ofNat (87 + n)

/-- How a character is written inside a string. -/
def escapeChar (c : Char) : List Char :=
  if c = '\x22' then ['\\', '\x22']
  else if c = '\\' then ['\\', '\\']
  else if c = '\x08' then ['\\', 'b']
  else if c = '\t' then ['\\', 't']
  else if c = '\n' then ['\\', 'n']
  else if c = '\x0c' then ['\\', 'f']
  else if c = '\r' then ['\\', 'r']
  else if c.toNat < 0x20 then
    ['\\', 'u', '0', '0', hexDigit (c.toNat / 16), hexDigit (c.toNat % 16)]
  else [c]

/-- The text of a string, with its quotes. -/
def writeString (s : String) : List Char :=
  '\x22' :: s.toList.flatMap escapeChar ++ ['\x22']

mutual

/-- The compact text of a value. -/
def Value.write : Value → List Char
  | .null => ['n', 'u', 'l', 'l']
  | .bool true => ['t', 'r', 'u', 'e']
  | .bool false => ['f', 'a', 'l', 's', 'e']
  | .number n => n.write
  | .string s => writeString s
  | .array items => '[' :: writeItems items
  | .object members => '\x7b' :: writeMembers members

/-- The items of an array and its closing bracket. -/
def writeItems : List Value → List Char
  | [] => [']']
  | [v] => v.write ++ [']']
  | v :: w :: rest => v.write ++ ',' :: writeItems (w :: rest)

/-- The members of an object and its closing brace. -/
def writeMembers : List (String × Value) → List Char
  | [] => ['\x7d']
  | [(k, v)] => writeString k ++ ':' :: v.write ++ ['\x7d']
  | (k, v) :: m :: rest => writeString k ++ ':' :: v.write ++ ',' :: writeMembers (m :: rest)

end

/-- The compact text of a value as a string. -/
def Value.compact (v : Value) : String :=
  String.ofList v.write

/-- The value of a member of an object. -/
def Value.member? (key : String) : Value → Option Value
  | .object members => members.lookup key
  | _ => none

end Json
end Walkthrough
