/-
# Shell commands

The commands of the shell language as trees.  A word is a list of parts; what a part
becomes is decided when the word is expanded, so quoting is kept in the parts.

Part of the kernel that the executable runs with (`Shell.kernel`).  The theorems of the library
are about every kernel, and none is about this one alone.
-/

import Walkthrough.Text.Octets

namespace Walkthrough
namespace Shell

open Text (Octets)

/-- What `${name-word}` and its relatives do with the word. -/
inductive Fallback where
  /-- The word in place of a missing value. -/
  | use
  /-- The same, and the value is kept. -/
  | assign
  /-- The word in place of a value. -/
  | alternative
  /-- The word as the message of an error. -/
  | complain
deriving DecidableEq, Repr

/-- The end of a value at which a pattern is cut off. -/
inductive Side where
  | front
  | back
deriving DecidableEq, Repr

/-- What a redirection does with its descriptor. -/
inductive Direction where
  | input
  | output
  | appending
  | inputOutput
  /-- A copy of another descriptor, or closed. -/
  | copy
  /-- The word itself is what is read. -/
  | document
deriving DecidableEq, Repr

mutual

/-- A part of a word. -/
inductive Part where
  /-- Text without quotes. -/
  | plain (text : Octets)
  /-- Text whose quotes are gone. -/
  | kept (text : Octets)
  /-- What stood between double quotes. -/
  | double (parts : List Part)
  | parameter (name : Octets)
  | length (name : Octets)
  /-- A fallback; `blankToo` tells whether an empty value counts as missing. -/
  | fallback (name : Octets) (what : Fallback) (blankToo : Bool) (word : List Part)
  | cut (name : Octets) (side : Side) (longest : Bool) (pattern : List Part)
  /-- What a command prints. -/
  | printed (command : Command)
  | arithmetic (expression : List Part)

/-- A redirection of a descriptor. -/
inductive Redirection where
  | mk (descriptor : Nat) (direction : Direction) (word : List Part)

/-- A command. -/
inductive Command where
  | simple (line : Nat) (assignments : List (Octets × List Part)) (words : List (List Part))
      (redirections : List Redirection)
  | pipeline (negated : Bool) (commands : List Command)
  /-- The second one when the first one succeeds. -/
  | both (first second : Command)
  /-- The second one when the first one fails. -/
  | either (first second : Command)
  | sequence (commands : List Command)
  | background (command : Command)
  | subshell (body : Command)
  | group (body : Command)
  | redirected (body : Command) (redirections : List Redirection)
  | conditional (condition body : Command) (otherwise : Command)
  /-- The body again and again while the condition succeeds, or while it fails. -/
  | loop (fails : Bool) (condition body : Command)
  /-- The body once for each word, or for each argument. -/
  | each (name : Octets) (words : Option (List (List Part))) (body : Command)
  | choice (word : List Part) (arms : List (List (List Part) × Command))
  | function (name : Octets) (body : Command)

end

namespace Command

/-- The command that does nothing. -/
def nothing : Command := .sequence []

/-- Whether it is the command that does nothing. -/
def isNothing : Command → Bool
  | .sequence [] => true
  | _ => false

end Command

/-! ## Characters -/

/-- Whether a character may start a name. -/
def isNameStart (c : Char) : Bool :=
  c.isAlpha || c == '_'

/-- Whether a character may go on in a name. -/
def isNamePart (c : Char) : Bool :=
  c.isAlphanum || c == '_'

/-- Whether a text is the name of a variable. -/
def isName : Octets → Bool
  | [] => false
  | c :: cs => isNameStart c && cs.all isNamePart

end Shell
end Walkthrough
