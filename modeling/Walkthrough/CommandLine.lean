/-
# Command lines

A command is a line for the shell or a program with its arguments.  Its display form is
the line itself, or the arguments with a space between neighbours, an argument that
contains a space standing between double quotes.
-/

import Walkthrough.Text.Line

namespace Walkthrough

/-- A command to execute. -/
inductive CommandLine where
  /-- A line that the shell reads. -/
  | shell (line : String)
  /-- A program and its arguments, run without a shell. -/
  | argv (args : List String)
deriving DecidableEq, Repr

namespace CommandLine

/-- Whether the argument is shown between quotes. -/
def needsQuotes (arg : String) : Bool :=
  arg.toList.contains ' '

/-- An argument as it is shown. -/
def displayArg (arg : String) : String :=
  if needsQuotes arg then "\x22" ++ arg ++ "\x22" else arg

/-- The command as transcripts and reports show it. -/
def display : CommandLine → String
  | shell line => line
  | argv args => Text.joinWith " " (args.map displayArg)

end CommandLine
end Walkthrough
