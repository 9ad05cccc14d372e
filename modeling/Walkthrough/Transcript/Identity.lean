/-
# The identity of a build

The footer of a transcript names the build that was documented: what its version command
prints, without blanks at either end.  A version command that prints nothing is a fault.
-/

import Walkthrough.Session.Executor
import Walkthrough.Text.Blank

namespace Walkthrough
namespace Transcript

/-- The fault of a version command that prints nothing. -/
def silentVersionFault (c : CommandLine) (o : Outcome) : Fault :=
  { kind := .stepFailed
    message := some "version command printed nothing"
    command := some c.display
    exitCode := some o.exitCode }

/-- Asks a program for its identity. -/
def fetchIdentity {σ : Type} (ex : Executor σ) (c : CommandLine) (d : Desk σ) :
    Except Fault String × Desk σ :=
  match runChecked ex c false d with
  | (.error f, d) => (.error f, d)
  | (.ok o, d) =>
    let identity := Text.trim o.output.toList
    if identity.isEmpty then (.error (silentVersionFault c o), d)
    else (.ok (String.ofList identity), d)

end Transcript
end Walkthrough
