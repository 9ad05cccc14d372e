/-
# Lines and words

A text is read as lines in two ways.  `splitLines` cuts at every newline, so a text with `n`
newlines has `n + 1` parts.  `lines` is the reader's view: a newline ends a line, a
carriage return before it belongs to the ending, and what follows the last newline is a
line only when it is not empty.
-/

namespace Walkthrough
namespace Text

/-- The parts of a text between the occurrences of a character, at least one. -/
def splitAt (mark : Char) : List Char → List (List Char)
  | [] => [[]]
  | c :: s =>
    if c = mark then [] :: splitAt mark s
    else match splitAt mark s with
      | [] => [[c]]
      | w :: ws => (c :: w) :: ws

/-- The parts of the text between newlines, at least one. -/
def splitLines (s : List Char) : List (List Char) :=
  splitAt '\n' s

/-- A line without the carriage return of its ending. -/
def dropReturn (l : List Char) : List Char :=
  match l.reverse with
  | '\r' :: r => r.reverse
  | _ => l

/-- Lines from the parts between newlines: the last part has no ending. -/
def linesOfParts : List (List Char) → List (List Char)
  | [] => []
  | [last] => if last.isEmpty then [] else [last]
  | l :: rest => dropReturn l :: linesOfParts rest

/-- The lines of the text, without their endings. -/
def lines (s : List Char) : List (List Char) :=
  linesOfParts (splitLines s)

/-- The strings with a separator between neighbours. -/
def joinWith (sep : String) : List String → String
  | [] => ""
  | [s] => s
  | s :: rest => s ++ sep ++ joinWith sep rest

end Text
end Walkthrough
