/-
# Images

What runs when a path is executed: a program of the system, or a script.  A script that
names its interpreter in the first line is run by it; the interpreter gets the rest of that
line, the path of the script and the arguments.  A script without such a line can be run by
a shell only.

Part of the kernel that the executable runs with (`Shell.kernel`).  The theorems of the library
are about every kernel, and none is about this one alone.
-/

import Walkthrough.Machine.Kernel
import Walkthrough.Text.Line
import Walkthrough.Text.Octets

namespace Walkthrough
namespace Shell

open Text (Octets)

/-- What runs for a path. -/
inductive Image where
  /-- A program of the system under the name it was called by. -/
  | system (program : String) (name : Octets) (args : List Octets)
  /-- A file that names no interpreter. -/
  | script (path : Octets) (args : List Octets)
deriving Repr

namespace Image

/-- How many interpreters may stand behind each other. -/
def maxInterpreters : Nat := 5

/-- Whether a character is a blank of a first line. -/
def isBlank (c : Char) : Bool :=
  c == ' ' || c == '\t'

/-- The interpreter that the first line names, and its argument. -/
def interpreter? (t : Octets) : Option (Octets × Option Octets) :=
  match t with
  | '#' :: '!' :: rest =>
    let line := (rest.takeWhile (· != '\n')).dropWhile isBlank
    let line := (line.reverse.dropWhile isBlank).reverse
    let path := line.takeWhile fun c => !isBlank c
    let arg := (line.drop path.length).dropWhile isBlank
    if path.isEmpty then none else some (path, if arg.isEmpty then none else some arg)
  | _ => none

/-- What runs for a path; `steps` bounds the interpreters. -/
def ofPath (fs : FileSystem) (cwd : Place) :
    (steps : Nat) → (path name : Octets) → (args : List Octets) → Except Errno Image
  | 0, _, _, _ => .error .tooManyLinks
  | steps + 1, path, name, args =>
    match fs.nodeAt cwd (Text.Octets.toText path) with
    | .error e => .error e
    | .ok node =>
      if node.isDirectory || !node.isExecutable then .error .denied
      else match node with
        | .program p => .ok (.system p name args)
        | .file bytes _ =>
          match interpreter? (Text.Octets.ofBytes bytes) with
          | some (i, arg) =>
            match ofPath fs cwd steps i i (arg.toList ++ path :: args) with
            | .ok (.script ..) => .error .notExecutable
            | answer => answer
          | none => .ok (.script path args)
        | _ => .error .denied

/-- The paths that a name may have in the directories of a search path. -/
def candidates (searchPath name : Octets) : List Octets :=
  (Text.splitAt ':' searchPath).map fun directory =>
    if directory.isEmpty then name else directory ++ '/' :: name

/-- The first candidate that runs; one that is not allowed to is remembered. -/
def firstOf (fs : FileSystem) (cwd : Place) (name : Octets) (args : List Octets) :
    (denied : Bool) → List Octets → Except Errno Image
  | denied, [] => .error (if denied then .denied else .notFound)
  | denied, path :: paths =>
    match ofPath fs cwd maxInterpreters path name args with
    | .ok image => .ok image
    | .error .denied => firstOf fs cwd name args true paths
    | .error .notFound => firstOf fs cwd name args denied paths
    | .error .notDirectory => firstOf fs cwd name args denied paths
    | .error e => .error e

/-- What runs for a name: a path when it has a slash, otherwise a program of the search
path. -/
def find (fs : FileSystem) (cwd : Place) (searchPath name : Octets) (args : List Octets) :
    Except Errno Image :=
  if name.contains '/' then ofPath fs cwd maxInterpreters name name args
  else if name.isEmpty then .error .notFound
  else if FileSystem.maxNameBytes < name.length then .error .nameTooLong
  else firstOf fs cwd name args false (candidates searchPath name)

end Image
end Shell
end Walkthrough
