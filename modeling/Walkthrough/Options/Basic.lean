/-
# Options of a program

A program takes positional arguments and options.  An option has a long name; it is a
flag, or it takes a value that has to be of a kind.  `--` ends the options, `-h` and `-V`
are the only short ones.
-/

import Walkthrough.Fault
import Walkthrough.Text.Blank
import Walkthrough.Text.Line

namespace Walkthrough
namespace Options

/-- What the value of an option or a positional argument has to be. -/
inductive ValueKind where
  /-- A path, not empty. -/
  | path
  /-- Any text. -/
  | text
  /-- A natural number below `2 ^ 64`. -/
  | natural
  /-- One of some words. -/
  | choice (words : List String)
deriving DecidableEq, Repr

/-- An option: its long name, and the name and kind of its value unless it is a flag. -/
structure Spec where
  long : String
  value : Option (String × ValueKind) := none
  help : String := ""
  default : Option String := none
  required : Bool := false
deriving DecidableEq, Repr

/-- A positional argument. -/
structure Positional where
  name : String
  help : String
  required : Bool := false
deriving DecidableEq, Repr

/-- A program with its options. -/
structure Program where
  name : String
  version : String
  about : String
  positionals : List Positional
  options : List Spec
  epilogue : Option String := none
deriving DecidableEq, Repr

/-- How usage names an option. -/
def Spec.label (o : Spec) : String :=
  match o.value with
  | some (name, _) => "--" ++ o.long ++ " <" ++ name ++ ">"
  | none => "--" ++ o.long

/-- How usage names a positional argument. -/
def Positional.label (p : Positional) : String :=
  if p.required then "<" ++ p.name ++ ">" else "[" ++ p.name ++ "]"

/-- Why arguments are refused. -/
inductive Misuse where
  | unexpectedArgument (arg : String)
  | valueRequired (label : String)
  | invalidValue (value label : String) (reason : Option String)
  | repeated (label : String)
  | unexpectedValue (value label : String)
  | missingArguments
deriving DecidableEq, Repr

/-- The wording of a misuse. -/
def Misuse.message : Misuse → String
  | .unexpectedArgument arg => "unexpected argument '" ++ arg ++ "' found"
  | .valueRequired label => "a value is required for '" ++ label ++ "' but none was supplied"
  | .invalidValue value label reason =>
    "invalid value '" ++ value ++ "' for '" ++ label ++ "'" ++ Fault.clause ": " reason ""
  | .repeated label => "the argument '" ++ label ++ "' cannot be used multiple times"
  | .unexpectedValue value label =>
    "unexpected value '" ++ value ++ "' for '" ++ label ++ "' found; no more were expected"
  | .missingArguments => "the following required arguments were not provided:"

/-- The first line of a wording, without blanks at its ends. -/
def firstLine (message : String) : String :=
  String.ofList (Text.trim ((Text.lines message.toList).headD []))

/-- The fault of a misuse of a program. -/
def Misuse.fault (p : Program) (e : Misuse) : Fault :=
  { kind := .usage
    message := some (firstLine e.message)
    hint := some ("Try \x60" ++ p.name ++ " --help\x60.") }

end Options
end Walkthrough
