/-
# Reports of a fault

A fault is reported in one of two forms.  The one-line form is a JSON object with the key
`error`, whose value has the fields that are set, its keys in order.  The form for a
terminal has one label for each field, coloured on request, the output indented line by
line, and only the outermost cause.
-/

import Walkthrough.Fault
import Walkthrough.Json.Value
import Walkthrough.Text.Line

namespace Walkthrough

/-- When diagnostics are coloured. -/
inductive ColorMode where
  | auto
  | always
  | never
deriving DecidableEq, Repr

/-- Whether diagnostics are coloured. -/
def ColorMode.useColor (m : ColorMode) (isTerminal : Bool) : Bool :=
  match m with
  | auto => isTerminal
  | always => true
  | never => false

namespace Report

open Json (Value)

/-- A member with a text, when it is set. -/
def textMember (key : String) (field : Option String) : List (String × Value) :=
  match field with
  | some text => [(key, .string text)]
  | none => []

/-- The chain of causes as a member, when there is one. -/
def causesMember (causes : List String) : List (String × Value) :=
  if causes.isEmpty then [] else [("causes", .array (causes.map .string))]

/-- The exit code as a member, when it is set. -/
def exitCodeMember (code : Option UInt8) : List (String × Value) :=
  match code with
  | some n => [("exit_code", .number (.natural n.toNat))]
  | none => []

/-- The members of a report, in the order of their keys. -/
def members (f : Fault) : List (String × Value) :=
  causesMember f.causes
    ++ textMember "command" f.command
    ++ exitCodeMember f.exitCode
    ++ textMember "hint" f.hint
    ++ [("kind", .string f.kind.name), ("message", .string f.summary)]
    ++ textMember "output" f.output
    ++ textMember "path" f.path

/-- The report as a value. -/
def value (f : Fault) : Value :=
  .object [("error", .object (members f))]

/-- The report on one line. -/
def line (f : Fault) : String :=
  (value f).compact

/-- The colours of labels. -/
inductive Color where
  | red
  | yellow

/-- The code of a colour. -/
def Color.code : Color → String
  | red => "31"
  | yellow => "33"

/-- A label, coloured on request. -/
def label (useColor : Bool) (color : Color) (text : String) : String :=
  if useColor then "\x1b[" ++ color.code ++ "m" ++ text ++ "\x1b[0m" else text

/-- A labelled line, when the field is set. -/
def labelled (useColor : Bool) (name : String) (field : Option String) : List String :=
  match field with
  | some text => [label useColor .yellow name ++ " " ++ text]
  | none => []

/-- The lines of the output of a command. -/
def outputLines (useColor : Bool) (field : Option String) : List String :=
  match field with
  | none => []
  | some output =>
    label useColor .yellow "output:"
      :: (if output.isEmpty then ["  (no output)"] else [])
      ++ (Text.lines output.toList).map fun l => "  " ++ String.ofList l

/-- The report for a terminal. -/
def text (f : Fault) (useColor : Bool) : String :=
  Text.joinWith "\n"
    ((label useColor .red "error:" ++ " " ++ f.summary)
      :: labelled useColor "hint:" f.hint
      ++ labelled useColor "path:" f.path
      ++ labelled useColor "command:" f.command
      ++ labelled useColor "exit code:" (f.exitCode.map fun n => toString n.toNat)
      ++ outputLines useColor f.output
      ++ labelled useColor "caused by:" f.causes.head?)

/-- The report as it is written: for a terminal, or on one line. -/
def written (f : Fault) (mode : ColorMode) (isTerminal : Bool) : String :=
  if isTerminal then text f (mode.useColor isTerminal) else line f

end Report
end Walkthrough
