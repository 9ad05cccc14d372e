/-
# Placeholders

The commands of a script may name what is known only when it is played: the invocation of
the target, the working directory, and the archive to fill.  A text is filled token by
token, first the target, then the directory, then the archive; an argument that is the
target token and nothing else stands for all arguments of the invocation.
-/

import Walkthrough.CommandLine
import Walkthrough.Fault
import Walkthrough.Script.Basic
import Walkthrough.Text.Replace

namespace Walkthrough

/-- The values of the placeholders; without an archive its token cannot be filled. -/
structure Placeholders where
  target : List String
  workdir : String
  output : Option String := none
deriving DecidableEq, Repr

namespace Placeholders

/-- Stands for the invocation of the target. -/
def targetToken : String := "\x7btarget\x7d"

/-- Stands for the working directory. -/
def workdirToken : String := "\x7bworkdir\x7d"

/-- Stands for the archive. -/
def outputToken : String := "\x7boutput\x7d"

/-- The fault of a text that names the archive where there is none. -/
def noOutputFault (text : String) : Fault :=
  { kind := .usage
    message := some (outputToken ++ " is only available when populating an archive")
    command := some text }

/-- The text with the target and the directory filled in. -/
def fillPlaces (p : Placeholders) (text : String) : String :=
  Text.replaceIn workdirToken p.workdir
    (Text.replaceIn targetToken (Text.joinWith " " p.target) text)

/-- The text with all placeholders filled in. -/
def expandText (p : Placeholders) (text : String) : Except Fault String :=
  let filled := p.fillPlaces text
  if Text.isWithin outputToken filled then
    match p.output with
    | some output => .ok (Text.replaceIn outputToken output filled)
    | none => .error (noOutputFault text)
  else .ok filled

/-- The arguments that an argument of a script stands for. -/
def expandArg (p : Placeholders) (arg : String) : Except Fault (List String) :=
  if arg = targetToken then .ok p.target
  else (p.expandText arg).map ([·])

/-- The arguments that the arguments of a script stand for. -/
def expandArgs (p : Placeholders) : List String → Except Fault (List String)
  | [] => .ok []
  | arg :: rest => do
    let xs ← p.expandArg arg
    let ys ← p.expandArgs rest
    .ok (xs ++ ys)

/-- The command of a run step. -/
def expand (p : Placeholders) : Script.RunSpec → Except Fault CommandLine
  | .line text => (p.expandText text).map .shell
  | .argv args => (p.expandArgs args).map .argv

end Placeholders

/-- A command with the policy of its step. -/
structure Task where
  command : CommandLine
  allowFail : Bool
  noOutput : Bool
deriving DecidableEq, Repr

namespace Script

/-- The task of a run step. -/
def Run.task (r : Run) (p : Placeholders) : Except Fault Task :=
  (p.expand r.spec).map fun c => ⟨c, r.allowFail, r.noOutput⟩

/-- The tasks of run steps, or the fault of the first that cannot be expanded. -/
def tasksOf (p : Placeholders) : List Run → Except Fault (List Task)
  | [] => .ok []
  | r :: rest => do
    let t ← r.task p
    let ts ← tasksOf p rest
    .ok (t :: ts)

end Script

/-- The tasks of a script, in order. -/
def Script.tasks (s : Script) (p : Placeholders) : Except Fault (List Task) :=
  Script.tasksOf p s.runs

end Walkthrough
