/-
# The destination of a document

`check` refuses a destination that cannot be written: an empty path, a directory, a path
whose directory is missing or takes no files.  To find that out it makes a temporary file and
removes it.  `write` puts a document in place in four steps: a temporary file beside the
destination, its bytes, its permission bits, and its move onto the destination.  After a step
that fails the temporary file is removed.  `Faults` says which step fails, if any, and the
check is told if its own temporary file cannot be made.
-/

import Walkthrough.Fault
import Walkthrough.Machine.Temporary

namespace Walkthrough
namespace Destination

/-- Failures of the steps of a write that the files alone do not bring about. -/
structure Faults where
  create : Option Errno := none
  /-- Writing fails behind so many bytes. -/
  write : Option (Nat × Errno) := none
  permissions : Option Errno := none
  rename : Option Errno := none
deriving DecidableEq, Repr

/-- The directory that a destination lies in, by its text. -/
def parentOf (dest : String) : String :=
  match Path.parent? dest.toList with
  | some p => if p.isEmpty then "." else String.ofList p
  | none => "."

/-- The beginning of the names of temporary files. -/
def tempOpening : String := ".tmp"

/-- The permission bits of a temporary file. -/
def tempMode : Nat := 0o600

/-- The permission bits of a document. -/
def documentMode : Nat := 0o644

/-- A setup fault. -/
def refusal (message : String) (path : Option String) (hint : Option String := none)
    (source : Option Fault.Cause := none) : Fault :=
  { kind := .setup, message := some message, hint, path, source }

/-- An i/o fault of a write. -/
def writeFault (message path cause : String) : Fault :=
  { kind := .io, message := some message, path := some path, source := some (.root cause) }

/-- Refuses a destination that cannot be written: the answer, and the files behind it. -/
def check (m : Machine) (dest : String) (fault : Option Errno := none) :
    Except Fault Unit × FileSystem :=
  let parent := parentOf dest
  let unwritable (cause : String) : Fault :=
    refusal "output directory is not writable" (some parent) none (some (.root cause))
  if dest.isEmpty then (.error (refusal "output path is empty" none), m.files)
  else if m.files.isDirectory m.cwd dest then
    (.error (refusal "output path is a directory" (some dest)), m.files)
  else if !m.files.isDirectory m.cwd parent then
    (.error (refusal "output directory does not exist" (some parent)
      (some "Create the directory first or pick another output path.")), m.files)
  else match fault with
    | some e => (.error (unwritable e.report), m.files)
    | none =>
      match Temporary.make m parent tempOpening (.file [] tempMode) with
      | .error cause => (.error (unwritable cause), m.files)
      | .ok (_, temp, files) => (.ok (), files.erase temp)

/-- The temporary file beside a destination, empty. -/
def createTemp (faults : Faults) (m : Machine) (dest : String) :
    Except Fault (Place × FileSystem) :=
  let parent := parentOf dest
  let failed (cause : String) : Fault :=
    writeFault "failed to create temporary output file" parent cause
  match faults.create with
  | some e => .error (failed e.report)
  | none =>
    match Temporary.make m parent tempOpening (.file [] tempMode) with
    | .error cause => .error (failed cause)
    | .ok (_, place, files) => .ok (place, files)

/-- The bytes of the document in the temporary file. -/
def fill (faults : Faults) (dest : String) (bytes : List UInt8) (temp : Place)
    (files : FileSystem) : Except Fault FileSystem :=
  match faults.write with
  | some (_, e) => .error (writeFault "failed to write document" dest e.report)
  | none => .ok (files.put temp (.file bytes tempMode))

/-- The permission bits of a document on the temporary file. -/
def share (faults : Faults) (dest : String) (temp : Place) (files : FileSystem) :
    Except Fault FileSystem :=
  match faults.permissions with
  | some e => .error (writeFault "failed to set document permissions" dest e.report)
  | none => .ok (files.setMode temp documentMode)

/-- The temporary file moved onto the destination. -/
def moveIn (faults : Faults) (m : Machine) (dest : String) (temp : Place)
    (files : FileSystem) : Except Fault FileSystem :=
  let failed (e : Errno) : Fault :=
    writeFault "failed to move document into place" dest e.report
  match faults.rename with
  | some e => .error (failed e)
  | none =>
    match files.moveFile temp m.cwd dest with
    | .error e => .error (failed e)
    | .ok files => .ok files

/-- The steps behind the creation of the temporary file. -/
def complete (faults : Faults) (m : Machine) (dest : String) (bytes : List UInt8)
    (temp : Place) (files : FileSystem) : Except Fault FileSystem := do
  let files ← fill faults dest bytes temp files
  let files ← share faults dest temp files
  moveIn faults m dest temp files

/-- Writes a document: the result and the files after it. -/
def write (faults : Faults) (m : Machine) (dest text : String) :
    Except Fault Unit × FileSystem :=
  match createTemp faults m dest with
  | .error f => (.error f, m.files)
  | .ok (temp, files) =>
    match complete faults m dest (Text.Utf8.encode text.toList) temp files with
    | .ok files => (.ok (), files)
    | .error f => (.error f, files.erase temp)

end Destination
end Walkthrough
