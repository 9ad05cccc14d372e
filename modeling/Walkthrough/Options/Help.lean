/-
# Help texts

The help of a program lists its usage, its arguments and its options, each with its label
in a column as wide as the longest one.  Behind the help of an option stand its default
and the words it may be given.
-/

import Walkthrough.Options.Basic

namespace Walkthrough
namespace Options

/-- A label in a column, two spaces, and what is said about it. -/
def row (width : Nat) (label help : String) : String :=
  label ++ String.ofList (List.replicate (width - label.length + 2) ' ') ++ help ++ "\n"

/-- The label of an option in the list of options. -/
def Spec.rowLabel (o : Spec) : String :=
  "      " ++ o.label

/-- The note on a default. -/
def defaultNote (o : Spec) : List String :=
  match o.default with
  | some d => ["[default: " ++ d ++ "]"]
  | none => []

/-- The note on the words of a choice. -/
def choiceNote (o : Spec) : List String :=
  match o.value with
  | some (_, .choice words) => ["[possible values: " ++ Text.joinWith ", " words ++ "]"]
  | _ => []

/-- What is said about an option. -/
def Spec.rowHelp (o : Spec) : String :=
  Text.joinWith " " ((if o.help.isEmpty then [] else [o.help]) ++ defaultNote o ++ choiceNote o)

/-- The labels and the help of all options, the general ones last. -/
def optionRows (p : Program) : List (String × String) :=
  (p.options.map fun o => (o.rowLabel, o.rowHelp))
    ++ [("  -h, --help", "Print help"), ("  -V, --version", "Print version")]

/-- The labels and the help of all positional arguments. -/
def positionalRows (p : Program) : List (String × String) :=
  p.positionals.map fun a => ("  " ++ a.label, a.help)

/-- Rows in one column width. -/
def table (rows : List (String × String)) : String :=
  let width := (rows.map fun r => r.1.length).foldl max 0
  String.join (rows.map fun r => row width r.1 r.2)

/-- The usage line. -/
def usage (p : Program) : String :=
  Text.joinWith " "
    (["Usage:", p.name, "[OPTIONS]"]
      ++ (p.options.filter Spec.required).map Spec.label
      ++ p.positionals.map Positional.label)

/-- The help of a program. -/
def help (p : Program) : String :=
  p.about ++ "\n\n" ++ usage p ++ "\n\nArguments:\n" ++ table (positionalRows p)
    ++ "\nOptions:\n" ++ table (optionRows p) ++ Fault.clause "\n" p.epilogue "\n"

/-- The version line of a program. -/
def versionLine (p : Program) : String :=
  p.name ++ " " ++ p.version ++ "\n"

end Options
end Walkthrough
