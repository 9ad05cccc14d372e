/-
# Fields

Expanding a word gives pieces.  Quoted pieces and the text of the word itself stay as they
are; what an expansion without quotes gave is split at the separators.  Blank separators
together are one, every other separator ends a field of its own, and blanks next to it
belong to it.

Part of the kernel that the executable runs with (`Shell.kernel`).  The theorems of the library
are about every kernel, and none is about this one alone.
-/

import Walkthrough.Shell.Pattern

namespace Walkthrough
namespace Shell
namespace Fields

open Text (Octets)

/-- A piece of an expanded word. -/
inductive Piece where
  /-- Quoted text; even without characters it makes a field. -/
  | quoted (text : Octets)
  /-- Text of the word itself. -/
  | plain (text : Octets)
  /-- What an expansion without quotes gave. -/
  | expanded (text : Octets)
  /-- The border between two arguments. -/
  | border
deriving DecidableEq, Repr

/-- The fields so far, the latest first, the one that is being filled, and whether blanks
have just ended one. -/
structure Filling where
  done : List Marked := []
  current : Option Marked := none
  blank : Bool := false
deriving DecidableEq, Repr

namespace Filling

/-- Ends the current field, when there is one. -/
def close (f : Filling) (blank : Bool) : Filling :=
  match f.current with
  | some m => ⟨m.reverse :: f.done, none, blank⟩
  | none => f

/-- Goes on with the current field, or starts one. -/
def add (f : Filling) (m : Marked) : Filling :=
  ⟨f.done, some (m.reverse ++ f.current.getD []), false⟩

/-- One character of an expansion. -/
def step (separators : Octets) (f : Filling) (c : Char) : Filling :=
  if !separators.contains c then f.add [(c, false)]
  else if c == ' ' || c == '\t' || c == '\n' then f.close true
  else
    match f.current with
    | some m => ⟨m.reverse :: f.done, none, false⟩
    | none => if f.blank then { f with blank := false } else ⟨[] :: f.done, none, false⟩

/-- One piece. -/
def put (separators : Octets) (f : Filling) : Piece → Filling
  | .quoted t => f.add (.of true t)
  | .plain t => if t.isEmpty then f else f.add (.of false t)
  | .expanded t => t.foldl (step separators) f
  | .border => f.close false

end Filling

/-- The fields of the pieces of a word. -/
def split (separators : Octets) (pieces : List Piece) : List Marked :=
  ((pieces.foldl (Filling.put separators) {}).close false).done.reverse

/-- The text of pieces that are not split, with marks. -/
def joined : List Piece → Marked
  | [] => []
  | .quoted t :: ps => .of true t ++ joined ps
  | .plain t :: ps => .of false t ++ joined ps
  | .expanded t :: ps => .of false t ++ joined ps
  | .border :: ps => (' ', false) :: joined ps

/-! ## A line for several names -/

/-- Whether a marked character separates fields. -/
def isSeparator (separators : Octets) (e : Char × Bool) : Bool :=
  !e.2 && separators.contains e.1

/-- Whether a marked character is a blank that separates fields. -/
def isBlankSeparator (separators : Octets) (e : Char × Bool) : Bool :=
  isSeparator separators e && (e.1 == ' ' || e.1 == '\t' || e.1 == '\n')

/-- What follows one separator with the blanks around it. -/
def behindSeparator (separators : Octets) (m : Marked) : Marked :=
  match m.dropWhile (isBlankSeparator separators) with
  | [] => []
  | e :: more =>
    if isSeparator separators e then more.dropWhile (isBlankSeparator separators) else e :: more

/-- The field that takes everything that is left; one separator at its end is not part of
it when nothing else separates. -/
def lastField (separators : Octets) (m : Marked) : Octets :=
  let body := (m.reverse.dropWhile (isBlankSeparator separators)).reverse
  let field := body.takeWhile fun e => !isSeparator separators e
  let behind := (body.drop field.length).dropWhile (isBlankSeparator separators)
  if behind.length == 1 && behind.all (isSeparator separators) then Marked.text field
  else Marked.text body

/-- The fields for a number of names; the last one takes everything that is left. -/
def fieldsFor (separators : Octets) : (names : Nat) → Marked → List Octets
  | 0, _ => []
  | 1, m => [lastField separators m]
  | n + 2, m =>
    let field := m.takeWhile fun e => !isSeparator separators e
    Marked.text field
      :: fieldsFor separators (n + 1) (behindSeparator separators (m.drop field.length))

/-- The fields of a line for a number of names. -/
def lineFields (separators : Octets) (names : Nat) (line : Marked) : List Octets :=
  fieldsFor separators names (line.dropWhile (isBlankSeparator separators))

end Fields
end Shell
end Walkthrough
