/-
# Quoted texts

The form in which a diagnostic shows a text taken from its input: between double quotes,
with a backslash before a quote or a backslash, the short escapes for NUL, tab, newline
and carriage return, and the code point in braces for every other character that is not
visible by itself.
-/

import Walkthrough.Text.Printable

namespace Walkthrough
namespace Text

/-- A number in lower-case hexadecimal digits. -/
def hexDigits (n : Nat) : List Char :=
  Nat.toDigits 16 n

/-- How a character is written inside quotes. -/
def quoteChar (c : Char) : List Char :=
  if c = '\x22' then ['\\', '\x22']
  else if c = '\\' then ['\\', '\\']
  else if c = '\x00' then ['\\', '0']
  else if c = '\t' then ['\\', 't']
  else if c = '\n' then ['\\', 'n']
  else if c = '\r' then ['\\', 'r']
  else if isVisible c then [c]
  else ['\\', 'u', '\x7b'] ++ hexDigits c.toNat ++ ['\x7d']

/-- The text between quotes. -/
def quoted (s : List Char) : List Char :=
  '\x22' :: s.flatMap quoteChar ++ ['\x22']

/-- The string between quotes. -/
def quotedString (s : String) : String :=
  String.ofList (quoted s.toList)

end Text
end Walkthrough
