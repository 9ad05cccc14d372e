/-
# Rehearsals

An executor that takes its answers from a queue, one for each command whatever the
command is.  An empty queue answers success without output.
-/

import Walkthrough.Session.Executor

namespace Walkthrough
namespace Rehearsal

/-- An answer prepared for a command. -/
inductive Cue where
  | ends (o : Outcome)
  | fails (kind : Fault.Kind) (message : Option String)
deriving DecidableEq, Repr

/-- The answer of a cue to a command. -/
def Cue.answer (c : CommandLine) : Cue → Except Fault Outcome
  | .ends o => .ok o
  | .fails kind message => .error { kind, message, command := some c.display }

/-- The executor over a queue of cues. -/
def executor : Executor (List Cue)
  | _, [] => ({ result := .ok {} }, [])
  | c, q :: rest => ({ result := q.answer c }, rest)

end Rehearsal
end Walkthrough
