/-
# Step scripts

A step script is a version and a list of steps.  A documentation step holds prose, which
is copied as it is; a run step holds a command with placeholders and two flags: whether a
non-zero exit is tolerated, and whether the output is left out of the transcript.
-/

namespace Walkthrough
namespace Script

/-- The command of a run step, before its placeholders are filled. -/
inductive RunSpec where
  /-- A line for the shell. -/
  | line (text : String)
  /-- A program and its arguments. -/
  | argv (args : List String)
deriving DecidableEq, Repr

/-- A run step. -/
structure Run where
  spec : RunSpec
  allowFail : Bool := false
  noOutput : Bool := false
deriving DecidableEq, Repr

/-- A step. -/
inductive Step where
  | doc (text : String)
  | run (r : Run)
deriving DecidableEq, Repr

/-- The run of a step, if it is a run step. -/
def Step.run? : Step → Option Run
  | .doc _ => none
  | .run r => some r

/-- The only version of the format. -/
def supportedVersion : Nat := 0

end Script

/-- A step script. -/
structure Script where
  version : Nat
  steps : List Script.Step
deriving DecidableEq, Repr

/-- The run steps, in order. -/
def Script.runs (s : Script) : List Script.Run :=
  s.steps.filterMap Script.Step.run?

end Walkthrough
