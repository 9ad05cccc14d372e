/-
# A machine with a shell

The files of a machine on which nothing but the shell and its utilities is installed, and
the kernel that runs launched programs there.

A launched program reads nothing, and what it prints on its two outputs goes to one place
in the order of time.  What its workers in the background do after its end is not part of
the launch: when some of them go on longer, the launch is run again with its own end as the
limit of the clock.

The modules of this directory make up one `Kernel`, for the executable to run with.  The theorems
of the library are about every kernel, and none is about this one alone.
-/

import Walkthrough.Shell.Evaluation

namespace Walkthrough
namespace Shell

open Text (Octets)

/-! ## Files -/

/-- The directories of the system. -/
def systemDirectories : List Place :=
  [["bin"], ["dev"], ["etc"], ["home"], ["opt"], ["root"], ["sbin"], ["tmp"], ["usr"],
   ["usr", "bin"], ["usr", "lib"], ["usr", "local"], ["usr", "local", "bin"],
   ["usr", "sbin"], ["usr", "share"], ["var"], ["var", "tmp"]]

/-- The programs of the system. -/
def systemPrograms : List String :=
  Evaluation.shellName :: Utility.names

/-- The files of a machine with nothing else. -/
def installed : FileSystem :=
  ⟨systemDirectories.map (fun p => (p, .directory 0o755))
    ++ [(["proc"], .fixedDirectory), (["dev", "null"], .device), (["dev", "urandom"], .device)]
    ++ systemPrograms.map (fun name => (["bin", name], .program name))
    ++ systemPrograms.map (fun name => (["usr", "bin", name], .program name))⟩

/-! ## Launches -/

/-- The longest argument of a program in bytes. -/
def maxArgumentBytes : Nat := 131071

/-- The directory in which a program is started. -/
def startPlace (l : Launch) (fs : FileSystem) : Except Errno Place :=
  match l.directory with
  | none => .ok l.cwd
  | some path =>
    match fs.walk l.cwd path true with
    | .error e => .error e
    | .ok (.free ..) => .error .notFound
    | .ok (.found place node) => if node.isDirectory then .ok place else .error .notDirectory

/-- What is launched, or why nothing is. -/
def imageOf (l : Launch) (fs : FileSystem) (cwd : Place) : Except Errno Image :=
  let args := l.args.map Text.Octets.ofText
  if args.any fun a => maxArgumentBytes < a.length then .error .argumentsTooLong
  else
    match Image.find fs cwd (Text.Octets.ofText l.searchPath) (Text.Octets.ofText l.program)
      args with
    | .ok (.script ..) => .error .notExecutable
    | answer => answer

/-- The first worker of a launch. -/
def firstWorker (l : Launch) (fs : FileSystem) (cwd : Place) (limit : Option Nat) : Worker :=
  { world :=
      { files := fs
        opened := #[{ stream := .device }, { stream := .capture, readable := false }]
        limit }
    name := Text.Octets.ofText l.program
    bindings :=
      [(searchPathName, { value := some (Text.Octets.ofText l.searchPath), exported := true }),
       ("PWD".toList, { value := some (Text.Octets.ofText cwd.path), exported := true })]
    descriptors := [(0, 0), (1, 1), (2, 1)]
    cwd
    final := true }

/-- The bytes that were printed, in the order of time. -/
def printedBytes (w : World) : List UInt8 :=
  (w.printed.reverse.mergeSort fun a b => a.time ≤ b.time).flatMap fun p =>
    Text.Octets.toBytes p.octets

/-- The end of a launch and the world after it. -/
structure Finish where
  /-- When and how it ended, unless it did not. -/
  status : Option (Nat × Status)
  world : World

/-- Runs an image with a limit of the clock. -/
def runImage (l : Launch) (fs : FileSystem) (cwd : Place) (image : Image) (limit : Option Nat) :
    Finish :=
  let worker := firstWorker l fs cwd limit
  let (result, after) := (Evaluation.start Evaluation.runCommand image).run.run worker
  let status : Option Status :=
    match result with
    | .ok () => some (.exited after.status)
    | .error (.quit code) => some (.exited code)
    | .error (.killed _ signal) => some (.signalled signal)
    | .error .unfinished => none
    | .error _ => some (.exited after.status)
  { status := status.map fun s => (after.clock, s), world := after.world }

/-- The end of a launch with everything later left out. -/
def finishOf (l : Launch) (fs : FileSystem) (cwd : Place) (image : Image) : Finish :=
  let first := runImage l fs cwd image l.limit
  match first.status with
  | some (time, _) =>
    if time < first.world.latest then runImage l fs cwd image (some time) else first
  | none => first

/-- The kernel of a machine with a shell. -/
def kernel : Kernel := fun l fs =>
  match startPlace l fs with
  | .error e => (.refused e, fs)
  | .ok cwd =>
    match imageOf l fs cwd with
    | .error e => (.refused e, fs)
    | .ok image =>
      let finish := finishOf l fs cwd image
      let printed := printedBytes finish.world
      match finish.status with
      | some (time, status) => (.ended time status printed, finish.world.files)
      | none => (.stopped printed, finish.world.files)

end Shell
end Walkthrough
