/-
# The journal

A run notes what it does as events.  Every event has a level, a message and fields; its
line is the level, the message and the fields as `key=value`, in the order of the fields.
A filter decides which events are shown.

A filter is a list of directives separated by commas: a level alone is the default, and
`name=level` or `name` alone (everything) applies to the events of this program when the
name is a beginning of its name.  A directive with a longer name wins, of two with the
same name the later one.  A filter without directives shows errors only, a text that is
no filter is ignored, and without a filter warnings and errors are shown.
-/

import Walkthrough.Text.Line

namespace Walkthrough

namespace Journal

/-- How much an event matters; a greater rank matters less. -/
inductive Level where
  | error
  | warn
  | info
  | debug
  | trace
deriving DecidableEq, Repr

/-- The position of a level, from the most important one. -/
def Level.rank : Level → Nat
  | .error => 1
  | .warn => 2
  | .info => 3
  | .debug => 4
  | .trace => 5

/-- The name of a level in a journal line. -/
def Level.label : Level → String
  | .error => "ERROR"
  | .warn => "WARN"
  | .info => "INFO"
  | .debug => "DEBUG"
  | .trace => "TRACE"

end Journal

/-- Something a run did. -/
inductive Event where
  | executing (command : String)
  | captured (command : String) (bytes : Nat)
  | toleratedExit (command : String) (exitCode : Nat)
  | toleratedSignal (command : String) (exitCode : Nat) (signal : Int)
  | removingArchive (path : String)
  | workdirCreated (path : String)
  | workdirKept (path : String)
  | documentWritten (path : String) (bytes : Nat)
  | transcriptComplete (identity : String) (steps bytes : Nat)
  | archivePopulated (output : String) (executed toleratedFailures : Nat)
deriving DecidableEq, Repr

namespace Event

open Journal (Level)

/-- The level of an event. -/
def level : Event → Level
  | executing .. | removingArchive .. | documentWritten .. => .info
  | transcriptComplete .. | archivePopulated .. => .info
  | captured .. | workdirCreated .. => .debug
  | toleratedExit .. | toleratedSignal .. | workdirKept .. => .warn

/-- The message of an event. -/
def message : Event → String
  | executing .. => "executing"
  | captured .. => "captured output"
  | toleratedExit .. => "tolerated non-zero exit"
  | toleratedSignal .. => "tolerated command was terminated by a signal"
  | removingArchive .. => "removing old example archive"
  | workdirCreated .. => "created working directory"
  | workdirKept .. => "working directory kept; remove it when done"
  | documentWritten .. => "wrote document"
  | transcriptComplete .. => "transcript complete"
  | archivePopulated .. => "example archive populated"

/-- The fields of an event, in the order in which they are shown. -/
def fields : Event → List (String × String)
  | executing command => [("command", command)]
  | captured command bytes => [("command", command), ("bytes", toString bytes)]
  | toleratedExit command exitCode => [("command", command), ("exit_code", toString exitCode)]
  | toleratedSignal command exitCode signal =>
    [("command", command), ("exit_code", toString exitCode), ("signal", toString signal)]
  | removingArchive path => [("path", path)]
  | workdirCreated path => [("workdir", path)]
  | workdirKept path => [("workdir", path)]
  | documentWritten path bytes => [("path", path), ("bytes", toString bytes)]
  | transcriptComplete identity steps bytes =>
    [("identity", identity), ("steps", toString steps), ("bytes", toString bytes)]
  | archivePopulated output executed toleratedFailures =>
    [("output", output), ("executed", toString executed),
      ("tolerated_failures", toString toleratedFailures)]

/-- The line of an event. -/
def line (e : Event) : String :=
  Text.joinWith " "
    (e.level.label :: e.message :: e.fields.map fun f => f.1 ++ "=" ++ f.2)

end Event

namespace Journal

/-- A directive: the beginning of the names it applies to, and the greatest rank it shows. -/
structure Directive where
  name : List Char
  maxRank : Nat
deriving DecidableEq, Repr

/-- The greatest rank that a level name lets through. -/
def rankOf? (word : List Char) : Option Nat :=
  let names : List (String × Nat) :=
    [("off", 0), ("error", 1), ("warn", 2), ("info", 3), ("debug", 4), ("trace", 5),
      ("0", 0), ("1", 1), ("2", 2), ("3", 3), ("4", 4), ("5", 5)]
  names.lookup (String.ofList (word.map Char.toLower))

/-- Whether a name of a directive may contain the character. -/
def isNameChar (c : Char) : Bool :=
  c.isAlphanum || c == '_' || c == ':' || c == '-'

/-- The directive that a word writes. -/
def directive? (word : List Char) : Option Directive :=
  match rankOf? word with
  | some r => some ⟨[], r⟩
  | none =>
    let name := word.takeWhile isNameChar
    if name.isEmpty then none
    else match word.dropWhile isNameChar with
      | [] => some ⟨name, 5⟩
      | '=' :: level => if level.isEmpty then some ⟨name, 5⟩ else (rankOf? level).map (⟨name, ·⟩)
      | _ :: _ => none

/-- The directives that a text writes. -/
def directives? (text : String) : Option (List Directive) :=
  ((Text.splitAt ',' text.toList).filter fun w => !w.isEmpty).mapM directive?

/-- The later of two directives unless the earlier one has a longer name. -/
def moreSpecific (a b : Directive) : Directive :=
  if b.name.length < a.name.length then a else b

/-- What a list of directives lets through for a program. -/
def maxRank (program : String) (ds : List Directive) : Nat :=
  if ds.isEmpty then Level.error.rank
  else
    match ds.filter fun d => d.name.isPrefixOf program.toList with
    | [] => 0
    | d :: rest => (rest.foldl moreSpecific d).maxRank

/-- What a filter lets through for a program. -/
def threshold (program : String) (filter : Option String) : Nat :=
  match filter.bind directives? with
  | some ds => maxRank program ds
  | none => Level.warn.rank

/-- The lines of the events that are shown. -/
def lines (program : String) (filter : Option String) (events : List Event) : List String :=
  (events.filter fun e => decide (e.level.rank ≤ threshold program filter)).map Event.line

end Journal
end Walkthrough
