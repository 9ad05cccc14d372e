/-
# Cutting a text at the occurrences of a word

A text is cut at the leftmost occurrence of a word, the rest behind that occurrence is
cut in the same way, and so on: occurrences that overlap an earlier cut are not cuts.
`pieces p s` are the texts between the cuts, at least one, and `replaceAll p r s` joins
them again with `r` in place of `p`.  An empty word occurs nowhere.

| `p` | `s` | `pieces p s` |
| --- | --- | --- |
| `aa` | `aaa` | ``, `a` |
| `aba` | `ababa` | ``, `ba` |
| `x` | `` | `` |
-/

namespace Walkthrough
namespace Text

/-- Whether `p` occurs somewhere in `s`. -/
def occursIn (p : List Char) : List Char → Bool
  | [] => p.isPrefixOf []
  | c :: s => p.isPrefixOf (c :: s) || occursIn p s

/-- Puts a character in front of the first piece. -/
def consPiece (c : Char) : List (List Char) → List (List Char)
  | [] => [[c]]
  | q :: qs => (c :: q) :: qs

/-- The pieces of a text whose first `skip` characters belong to the last cut. -/
def piecesAfter (p : List Char) : (skip : Nat) → List Char → List (List Char)
  | _, [] => [[]]
  | skip + 1, _ :: s => piecesAfter p skip s
  | 0, c :: s =>
    if p.isPrefixOf (c :: s) then [] :: piecesAfter p (p.length - 1) s
    else consPiece c (piecesAfter p 0 s)

/-- The texts between the leftmost occurrences of `p` in `s`, which do not overlap. -/
def pieces (p s : List Char) : List (List Char) :=
  if p.isEmpty then [s] else piecesAfter p 0 s

/-- Every cut of `s` at `p` filled with `r`. -/
def replaceAll (p r s : List Char) : List Char :=
  r.intercalate (pieces p s)

/-- Every cut of `s` at `p` filled with `r`, on strings. -/
def replaceIn (p r s : String) : String :=
  String.ofList (replaceAll p.toList r.toList s.toList)

/-- Whether the string `p` occurs in the string `s`. -/
def isWithin (p s : String) : Bool :=
  occursIn p.toList s.toList

end Text
end Walkthrough
