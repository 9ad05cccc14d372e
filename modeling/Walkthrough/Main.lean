/-
# The command line

The outermost layer.  The name of the executable chooses the program.  The files that the
arguments name are read from disk into a machine with a shell, the program does its work
there, and what it has changed is written back.  Everything else is decided by functions of
the machine.
-/

import Walkthrough.Program
import Walkthrough.Shell.Installation

namespace Walkthrough
namespace CommandLayer

/-- The place of an absolute path. -/
def placeOf (path : String) : Place :=
  (FileSystem.splitPath path).filter fun w => w != "" && w != "."

/-- A file system with the directories above a place. -/
def withParents (fs : FileSystem) (p : Place) : FileSystem :=
  (List.range p.length).foldl
    (fun fs n =>
      let above := p.take n
      if (fs.node? above).isSome then fs else fs.put above (.directory 0o755))
    fs

/-- A file system with a node at a place. -/
def withNode (fs : FileSystem) (p : Place) (n : Node) : FileSystem :=
  if p.isEmpty then fs else (withParents fs p).put p n

/-- The paths that an argument may name, each behind the directory it lies in. -/
def pathsIn (arg : String) : List String :=
  let values :=
    match (Text.splitAt '=' arg.toList).map String.ofList with
    | _ :: first :: rest => [arg, Text.joinWith "=" (first :: rest)]
    | _ => [arg]
  values.flatMap fun v => [Destination.parentOf v, v]

/-- The node of a path on disk.  A directory is told from its failure to be read as a
file. -/
def nodeOnDisk (path : String) : IO (Option Node) :=
  tryCatch (do return some (.file (← IO.FS.readBinFile path).toList 0o755)) fun
    | .inappropriateType .. => return some (.directory 0o755)
    | _ => return none

/-- A machine on which the file or directory that a path names is there. -/
def load (m : Machine) (path : String) : IO Machine := do
  let full := String.ofList (Path.absolute (Place.path m.cwd).toList path.toList)
  let place := placeOf full
  if path.isEmpty || path.toList.contains '\x00' || (m.files.node? place).isSome then return m
  match ← nodeOnDisk full with
  | some n => return { m with files := withNode m.files place n }
  | none => return m

/-- The files and directories that are new or changed. -/
def changes (before after : FileSystem) : List (Place × Node) :=
  after.nodes.filter fun e => before.node? e.1 != some e.2

/-- Writes changed files and directories to disk. -/
def store (before after : FileSystem) : IO Unit :=
  (changes before after).forM fun e => do
    let path := Place.path e.1
    match e.2 with
    | .file bytes _ => IO.FS.writeBinFile path ⟨bytes.toArray⟩
    | .directory _ => IO.FS.createDirAll path
    | _ => return ()

/-- The letters and digits of a number, lowest first, so many of them. -/
def letters (symbols : List Char) : (count number : Nat) → List Char
  | 0, _ => []
  | count + 1, number =>
    symbols.getD (number % symbols.length) 'x' :: letters symbols count (number / symbols.length)

/-- Six letters and digits for a number. -/
def sixLetters (n : Nat) : String :=
  String.ofList (letters
    "abcdefghijklmnopqrstuvwxyzABCDEFGHIJKLMNOPQRSTUVWXYZ0123456789".toList 6 n)

/-- The machine on which a program runs. -/
def machine : IO Machine := do
  let cwd := placeOf (toString (← IO.currentDir))
  let tempDir := (← IO.getEnv "TMPDIR").getD "/tmp"
  let searchPath := (← IO.getEnv "PATH").getD "/usr/bin:/bin"
  let files := withNode (withNode Shell.installed (placeOf tempDir) (.directory 0o755)) cwd
    (.directory 0o755)
  let start := (← IO.monoNanosNow) / 1000
  return { files, cwd, searchPath, tempDir, names := fun n => sixLetters (start + n) }

/-- What is written about a program that is stopped. -/
def account (reason : String) : List String := ["stopped: " ++ reason]

/-- Runs the program with a name. -/
def run (name : String) (args : List String) : IO UInt32 := do
  let before ← (args.flatMap pathsIn).foldlM load (← machine)
  let (program, exit) :=
    if name = Program.populator.name then
      (Program.populator, Program.runPopulator Shell.kernel {} args before)
    else (Program.transcriber, Program.runTranscriber Shell.kernel {} args before)
  store before.files exit.machine.files
  IO.print exit.output
  let isTerminal ← (← IO.getStderr).isTty
  let filter ← IO.getEnv "RUST_LOG"
  (Program.diagnostics account program filter isTerminal exit).forM IO.eprintln
  return UInt32.ofNat exit.status

end CommandLayer
end Walkthrough

/-- Runs the program that the executable is named for. -/
def main (args : List String) : IO UInt32 := do
  let path := (toString (← IO.appPath)).toList
  Walkthrough.CommandLayer.run (String.ofList ((Walkthrough.Path.fileStem? path).getD [])) args
