/-
# The grammar of JSON

`Spells v t` says that the text `t` writes the value `v`.  The rules are those of the
format, and no reader occurs in them:

| symbol | text |
| --- | --- |
| white space | spaces, tabs, newlines and carriage returns, any number of them |
| character | itself, a backslash and a letter, or `\u` and four digits, once or twice |
| string | its characters between quotes |
| number | its digits, no zero in front of others |
| member | a key, a colon and a value |
| array, object | items or members with commas between them, in brackets or braces |

White space may stand around every token.  Of the numbers only the natural ones have a rule:
no other number stands in a script.
-/

import Walkthrough.Json.Value

namespace Walkthrough
namespace Json

variable {α β : Type}

/-! ## Strings -/

/-- White space between tokens. -/
def Blank (w : List Char) : Prop :=
  ∀ c ∈ w, c ∈ [' ', '\t', '\n', '\r']

/-- The digits to the base sixteen, the letters in either case. -/
def hexDigits : List (Char × Nat) :=
  [('0', 0), ('1', 1), ('2', 2), ('3', 3), ('4', 4), ('5', 5), ('6', 6), ('7', 7), ('8', 8),
    ('9', 9), ('a', 10), ('b', 11), ('c', 12), ('d', 13), ('e', 14), ('f', 15),
    ('A', 10), ('B', 11), ('C', 12), ('D', 13), ('E', 14), ('F', 15)]

/-- The letters behind a backslash and the characters they stand for. -/
def shortForms : List (Char × Char) :=
  [('\x22', '\x22'), ('\\', '\\'), ('/', '/'), ('b', '\x08'), ('f', '\x0c'), ('n', '\n'),
    ('r', '\r'), ('t', '\t')]

/-- Four hexadecimal digits write a number. -/
inductive CodeUnit : Nat → List Char → Prop
  | intro (n₁ n₂ n₃ n₄ : Nat) {n : Nat} {x₁ x₂ x₃ x₄ : Char} :
    (x₁, n₁) ∈ hexDigits → (x₂, n₂) ∈ hexDigits → (x₃, n₃) ∈ hexDigits → (x₄, n₄) ∈ hexDigits →
    n = ((n₁ * 16 + n₂) * 16 + n₃) * 16 + n₄ → CodeUnit n [x₁, x₂, x₃, x₄]

/-- The ways to write a character inside a string. -/
inductive Spelling : Char → List Char → Prop
  | raw {c : Char} : c ≠ '\x22' → c ≠ '\\' → 0x20 ≤ c.toNat → Spelling c [c]
  | letter {c x : Char} : (x, c) ∈ shortForms → Spelling c ['\\', x]
  | unit {c : Char} {t : List Char} : CodeUnit c.toNat t → Spelling c ('\\' :: 'u' :: t)
  /-- Behind the first plane a character is written by a surrogate pair. -/
  | pair {c : Char} {t u : List Char} : 0x10000 ≤ c.toNat →
    CodeUnit (0xD800 + (c.toNat - 0x10000) / 0x400) t →
    CodeUnit (0xDC00 + (c.toNat - 0x10000) % 0x400) u →
    Spelling c ('\\' :: 'u' :: (t ++ '\\' :: 'u' :: u))

/-- The characters of a string, one after the other, and the closing quote. -/
inductive Characters : List Char → List Char → Prop
  | nil : Characters [] ['\x22']
  | cons {c : Char} {cs t u : List Char} :
    Spelling c t → Characters cs u → Characters (c :: cs) (t ++ u)

/-- A string between its quotes. -/
def StringText (s : String) (t : List Char) : Prop :=
  ∃ u, Characters s.toList u ∧ t = '\x22' :: u

/-! ## Values -/

/-- A natural number: decimal digits, no zero in front of others. -/
def NaturalText (n : Nat) (t : List Char) : Prop :=
  t ≠ [] ∧ (∀ x ∈ t, x.isDigit) ∧ (t.head? = some '0' → t = ['0']) ∧ Nat.ofDigitChars 10 t 0 = n

/-- A member of an object. -/
inductive MemberText (E : β → List Char → Prop) : String × β → List Char → Prop
  | intro {k : String} {v : β} {t w w' u : List Char} :
    StringText k t → Blank w → Blank w' → E v u → MemberText E (k, v) (t ++ w ++ ':' :: (w' ++ u))

/-- What stands in front of an element: white space, and a comma in it behind another one. -/
inductive Gap : (first : Bool) → List Char → Prop
  | first {w : List Char} : Blank w → Gap true w
  | next {w w' : List Char} : Blank w → Blank w' → Gap false (w ++ ',' :: w')

/-- Elements with commas between them, and the closing mark. -/
inductive Listed (mark : Char) (E : α → List Char → Prop) :
    (first : Bool) → List α → List Char → Prop
  | nil {first : Bool} {w : List Char} : Blank w → Listed mark E first [] (w ++ [mark])
  | cons {first : Bool} {a : α} {as : List α} {w t u : List Char} :
    Gap first w → E a t → Listed mark E false as u → Listed mark E first (a :: as) (w ++ t ++ u)

/-- **The text writes the value.** -/
inductive Spells : Value → List Char → Prop
  | null : Spells .null ['n', 'u', 'l', 'l']
  | yes : Spells (.bool true) ['t', 'r', 'u', 'e']
  | no : Spells (.bool false) ['f', 'a', 'l', 's', 'e']
  | natural {n : Nat} {t : List Char} : NaturalText n t → Spells (.number (.natural n)) t
  | string {s : String} {t : List Char} : StringText s t → Spells (.string s) t
  | array {vs : List Value} {t : List Char} :
    Listed ']' Spells true vs t → Spells (.array vs) ('[' :: t)
  | object {ms : List (String × Value)} {t : List Char} :
    Listed '\x7d' (MemberText Spells) true ms t → Spells (.object ms) ('\x7b' :: t)

/-- A text with white space in front of it. -/
def Led (E : α → List Char → Prop) (a : α) (t : List Char) : Prop :=
  ∃ w u, Blank w ∧ E a u ∧ t = w ++ u

/-- The whole text writes the value, white space in front and behind. -/
def TextOf (v : Value) (text : List Char) : Prop :=
  ∃ t w, Led Spells v t ∧ Blank w ∧ text = t ++ w

end Json
end Walkthrough
