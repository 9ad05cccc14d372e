/-
# Targets

The program that a transcript documents.  Its path is made absolute, links are not
followed, and it must be a regular file.  A target whose extension is `jar`, in any case,
runs through `java -jar`.  Its alias, the name under which the transcript shows it, is
the name of the file without its extension, up to the first hyphen if something is in
front of it.
-/

import Walkthrough.CommandLine
import Walkthrough.Fault
import Walkthrough.Machine.Kernel

namespace Walkthrough

/-- How a target is run. -/
inductive TargetKind where
  | jar
  | executable
deriving DecidableEq, Repr

/-- The program to document. -/
structure Target where
  path : String
  kind : TargetKind
  shortName : String
deriving DecidableEq, Repr

namespace Target

/-- The alias of a path. -/
def defaultAlias (path : String) : String :=
  let stem := (Path.fileStem? path.toList).getD []
  let head := stem.takeWhile (· != '-')
  String.ofList (if head.isEmpty then stem else head)

/-- How the file at a path is run. -/
def kindOf (path : String) : TargetKind :=
  match Path.extension? path.toList with
  | some e => if e.map Char.toLower = ['j', 'a', 'r'] then .jar else .executable
  | none => .executable

/-- The fault of an empty path. -/
def unnamedFault : Fault :=
  { kind := .setup, message := some "target must be specified as the first argument" }

/-- The fault of a path that leads to no regular file. -/
def missingFault (path : String) : Fault :=
  { kind := .setup, message := some "target does not exist", path := some path }

/-- A path from the root of a machine. -/
def absolutePath (m : Machine) (path : String) : String :=
  String.ofList (Path.absolute (Place.path m.cwd).toList path.toList)

/-- The target at a path. -/
def resolve (m : Machine) (path : String) : Except Fault Target :=
  if path.isEmpty then .error unnamedFault
  else
    let full := absolutePath m path
    if m.files.isFile m.cwd full then .ok ⟨full, kindOf full, defaultAlias full⟩
    else .error (missingFault full)

/-- The arguments that start every invocation of the target. -/
def invocationArgs (t : Target) : List String :=
  match t.kind with
  | .jar => ["java", "-jar", t.path]
  | .executable => [t.path]

/-- The invocation as lines and transcripts show it. -/
def invocation (t : Target) : String :=
  Text.joinWith " " t.invocationArgs

/-- The command that prints the identity of the target. -/
def versionCommand (t : Target) : CommandLine :=
  .shell (t.invocation ++ " --version")

/-! ## Looking up programs -/

/-- The directories of a search path. -/
def splitSearchPath (path : String) : List String :=
  (Text.splitAt ':' path.toList).map String.ofList

/-- Whether a path leads to a regular file that can be executed. -/
def isProgram (m : Machine) (path : String) : Bool :=
  (m.files.nodeAt m.cwd path).toOption.any fun n => n.isFile && n.isExecutable

/-- Whether a program can be found: by its path if its name has a slash, else in the
directories of the search path. -/
def canFind (m : Machine) (name : String) : Bool :=
  if Path.hasSlash name.toList then isProgram m name
  else (splitSearchPath m.searchPath).any fun dir =>
    isProgram m (String.ofList (Path.join dir.toList name.toList))

/-- The cause of a program that cannot be found. -/
def noProgramCause : String := "cannot find binary path"

/-- The fault of a jar on a machine without a runtime for it. -/
def noJavaFault : Fault :=
  { kind := .setup
    message := some "java is required to run jar targets"
    hint := some "Install a JRE or put \x60java\x60 on PATH."
    source := some (.root noProgramCause) }

/-- The fault of a shell that cannot be found. -/
def noShellFault (shell : String) : Fault :=
  { kind := .setup
    message := some "shell is not available"
    path := some shell
    source := some (.root noProgramCause) }

/-- Refuses a machine that lacks a program which the target or the shell needs. -/
def preflight (t : Target) (m : Machine) (shell : String) : Except Fault Unit :=
  if t.kind = .jar ∧ canFind m "java" = false then .error noJavaFault
  else if canFind m shell then .ok ()
  else .error (noShellFault shell)

end Target
end Walkthrough
