/-
# Patterns

A pattern is matched against a whole text.  `*` stands for any characters, `?` for one,
brackets for one of those they list.  A quoted character stands for itself.

Part of the kernel that the executable runs with (`Shell.kernel`).  The theorems of the library
are about every kernel, and none is about this one alone.
-/

import Walkthrough.Text.Octets

namespace Walkthrough
namespace Shell

open Text (Octets)

/-- A text with a mark at every character: whether it was quoted. -/
abbrev Marked := List (Char × Bool)

namespace Marked

/-- The text without its marks. -/
def text (m : Marked) : Octets :=
  m.map Prod.fst

/-- A text with the same mark at every character. -/
def of (quoted : Bool) (t : Octets) : Marked :=
  t.map fun c => (c, quoted)

end Marked

namespace Pattern

/-- An item of a pattern. -/
inductive Item where
  | exactly (c : Char)
  | one
  | many
  /-- One character of the ranges, or one that is in none of them. -/
  | among (inside : Bool) (ranges : List (Char × Char))
deriving DecidableEq, Repr

/-- Whether an item stands for a character. -/
def Item.accepts : Item → Char → Bool
  | .exactly d, c => c == d
  | .one, _ => true
  | .many, _ => true
  | .among inside ranges, c => (ranges.any fun r => r.1 ≤ c && c ≤ r.2) == inside

/-- Whether a text is one that the items stand for. -/
def fits : List Item → Octets → Bool
  | [], cs => cs.isEmpty
  | .many :: ps, [] => fits ps []
  | .many :: ps, c :: cs => fits ps (c :: cs) || fits (.many :: ps) cs
  | p :: ps, c :: cs => p.accepts c && fits ps cs
  | _ :: _, [] => false
termination_by ps cs => ps.length + cs.length

/-! ## Reading patterns -/

/-- The ranges of a class of characters. -/
def classRanges (name : Octets) : List (Char × Char) :=
  match String.ofList name with
  | "alpha" => [('a', 'z'), ('A', 'Z')]
  | "digit" => [('0', '9')]
  | "alnum" => [('a', 'z'), ('A', 'Z'), ('0', '9')]
  | "upper" => [('A', 'Z')]
  | "lower" => [('a', 'z')]
  | "space" => [('\t', '\r'), (' ', ' ')]
  | "blank" => [('\t', '\t'), (' ', ' ')]
  | "punct" => [('!', '/'), (':', '@'), ('[', '\x60'), ('\x7b', '~')]
  | "xdigit" => [('0', '9'), ('a', 'f'), ('A', 'F')]
  | _ => []

/-- The class name in front of `:]`, and what follows. -/
def className (m : Marked) : Option (Octets × Marked) :=
  let name := m.takeWhile fun e => e.1.isAlpha
  match m.drop name.length with
  | (':', _) :: (']', _) :: rest => some (Marked.text name, rest)
  | _ => none

/-- The ranges up to the closing bracket, and what follows it. -/
def readRanges : (steps : Nat) → (first : Bool) → Marked →
    Option (List (Char × Char) × Marked)
  | 0, _, _ => none
  | _, _, [] => none
  | steps + 1, first, (c, quoted) :: rest =>
    if c = ']' ∧ ¬quoted ∧ ¬first then some ([], rest)
    else
      match (c, rest) with
      | ('[', (':', _) :: more) =>
        match className more with
        | some (name, after) =>
          (readRanges steps false after).map fun r => (classRanges name ++ r.1, r.2)
        | none => (readRanges steps false rest).map fun r => ((c, c) :: r.1, r.2)
      | (_, ('-', false) :: (d, dQuoted) :: more) =>
        if d = ']' ∧ ¬dQuoted then
          (readRanges steps false rest).map fun r => ((c, c) :: r.1, r.2)
        else (readRanges steps false more).map fun r => ((c, d) :: r.1, r.2)
      | _ => (readRanges steps false rest).map fun r => ((c, c) :: r.1, r.2)

/-- The item of a bracket, and what follows it. -/
def readBracket (m : Marked) : Option (Item × Marked) :=
  match m with
  | ('!', false) :: rest =>
    (readRanges (rest.length + 1) true rest).map fun r => (.among false r.1, r.2)
  | _ => (readRanges (m.length + 1) true m).map fun r => (.among true r.1, r.2)

/-- The items of a marked text; `steps` bounds their number. -/
def readItems : (steps : Nat) → Marked → List Item
  | 0, _ => []
  | _, [] => []
  | steps + 1, (c, quoted) :: rest =>
    if quoted then .exactly c :: readItems steps rest
    else match c with
      | '*' => .many :: readItems steps rest
      | '?' => .one :: readItems steps rest
      | '[' =>
        match readBracket rest with
        | some (item, after) => item :: readItems steps after
        | none => .exactly '[' :: readItems steps rest
      | '\\' =>
        match rest with
        | (d, _) :: after => .exactly d :: readItems steps after
        | [] => [.exactly '\\']
      | _ => .exactly c :: readItems steps rest

/-- The pattern of a marked text. -/
def ofMarked (m : Marked) : List Item :=
  readItems (m.length + 1) m

/-- Whether a marked text has something that stands for other characters. -/
def isActive (m : Marked) : Bool :=
  m.any fun e => !e.2 && (e.1 == '*' || e.1 == '?' || e.1 == '[')

/-! ## Cutting -/

/-- A text without the shortest or the longest beginning that fits. -/
def cutFront (p : List Item) (longest : Bool) (t : Octets) : Octets :=
  let sizes := List.range (t.length + 1)
  match (if longest then sizes.reverse else sizes).find? fun n => fits p (t.take n) with
  | some n => t.drop n
  | none => t

/-- A text without the shortest or the longest ending that fits. -/
def cutBack (p : List Item) (longest : Bool) (t : Octets) : Octets :=
  let sizes := List.range (t.length + 1)
  match (if longest then sizes else sizes.reverse).find? fun n => fits p (t.drop n) with
  | some n => t.take n
  | none => t

end Pattern
end Shell
end Walkthrough
