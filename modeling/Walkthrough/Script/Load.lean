/-
# Script files

A script file must be readable and hold UTF-8.  Faults of its text name its path.
-/

import Walkthrough.Machine.Temporary
import Walkthrough.Script.Reader

namespace Walkthrough
namespace Script

/-- The fault of a file that cannot be read. -/
def unreadableFault (path cause : String) : Fault :=
  { kind := .setup
    message := some "failed to read step script"
    path := some path
    source := some (.root cause) }

/-- The script in a file. -/
def load (m : Machine) (path : String) : Except Fault Script :=
  match m.files.read m.cwd path with
  | .error e => .error (unreadableFault path (Temporary.errorText path e))
  | .ok bytes =>
    match Text.Utf8.decode? bytes with
    | none => .error (unreadableFault path "stream did not contain valid UTF-8")
    | some text =>
      (parse (String.ofList text)).mapError fun f => { f with path := some path }

end Script
end Walkthrough
