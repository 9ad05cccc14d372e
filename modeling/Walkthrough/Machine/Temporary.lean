/-
# Temporary files and directories

A temporary file or directory is made under a made-up name: some opening and what the generator
of the machine gives.  A name that is taken is passed over and the next one is drawn, up to a
number of attempts, so what is made is always new.  Nothing is known about the names that the
generator gives.
-/

import Walkthrough.Machine.Kernel
import Walkthrough.Text.Quoted

namespace Walkthrough
namespace Temporary

/-- How many names are drawn before making up names is given up. -/
def attempts : Nat := 65536

/-- The path of a directory, from the root. -/
def directoryPath (m : Machine) (dir : String) : String :=
  String.ofList (Path.join (Place.path m.cwd).toList dir.toList)

/-- The path of a made-up name in a directory, from the root. -/
def pathIn (m : Machine) (dir opening : String) (number : Nat) : String :=
  String.ofList (Path.join (directoryPath m dir).toList (opening ++ m.names number).toList)

/-- An error and the path it happened at, as a cause in reports. -/
def causeAt (error path : String) : String :=
  error ++ " at path " ++ Text.quotedString path

/-- The wording of an error for a path; a NUL is found before the system is asked. -/
def errorText (path : String) (e : Errno) : String :=
  if path.toList.contains '\x00' then "file name contained an unexpected NUL byte" else e.report

/-- Makes a node under the first name from `number` on that is not taken, among `tries` of
them. -/
def makeFrom (m : Machine) (dir opening : String) (n : Node) :
    (tries number : Nat) → Except String (String × Place × FileSystem)
  | 0, _ => .error (causeAt "too many temporary files exist" (directoryPath m dir))
  | tries + 1, number =>
    let path := pathIn m dir opening number
    match m.files.create m.cwd path n with
    | .ok (place, files) => .ok (path, place, files)
    | .error .alreadyThere => makeFrom m dir opening n tries (number + 1)
    | .error e => .error (causeAt (errorText path e) path)

/-- Makes a node under a made-up name in a directory: its path, its place and the files with
it, or the cause of the failure. -/
def make (m : Machine) (dir opening : String) (n : Node) :
    Except String (String × Place × FileSystem) :=
  makeFrom m dir opening n attempts m.drawn

end Temporary
end Walkthrough
