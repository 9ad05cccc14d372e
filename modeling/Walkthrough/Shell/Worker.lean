/-
# Workers

A worker is one process of a launch.  All workers of a launch share its world: the files,
the open files and pipes, what has been printed, and the limit of the clock.  A worker of
its own has its descriptors, its directory, its clock and, when it is a shell, its
variables.

A clock counts the milliseconds since the launch, and only sleeping moves it.  An action
that needs more time than there is ends as `unfinished`; so does one whose loops or nesting
never end.

Part of the kernel that the executable runs with (`Shell.kernel`).  The theorems of the library
are about every kernel, and none is about this one alone.
-/

import Walkthrough.Machine.Kernel
import Walkthrough.Shell.Grammar

namespace Walkthrough
namespace Shell

open Text (Octets)

/-! ## The world -/

/-- What an open file is. -/
inductive Stream where
  | file (place : Place)
  | device
  /-- What the launch prints. -/
  | capture
  | pipe (number : Nat)
  | directory
deriving DecidableEq, Repr

/-- An open file; descriptors that are copies of each other share one. -/
structure Opened where
  stream : Stream
  offset : Nat := 0
  appending : Bool := false
  readable : Bool := true
  writable : Bool := true
deriving Repr

/-- Octets that were printed, and when. -/
structure Printed where
  time : Nat
  writer : Nat
  octets : Octets
deriving Repr

/-- What the workers of a launch share. -/
structure World where
  files : FileSystem
  opened : Array Opened := #[]
  /-- What is in each pipe, the latest first. -/
  pipes : Array (List Octets) := #[]
  /-- What was printed, the latest first. -/
  printed : List Printed := []
  workers : Nat := 1
  limit : Option Nat := none
  /-- The latest time at which something was done. -/
  latest : Nat := 0

/-- The environment variable that holds the search path. -/
def searchPathName : Octets := "PATH".toList

/-! ## A worker -/

/-- A variable of a shell. -/
structure Variable where
  value : Option Octets
  exported : Bool := false
  fixed : Bool := false
deriving Repr

/-- A worker in the background: when it ends, unless it never does, and how. -/
structure Job where
  number : Nat
  /-- The number of the last child that it had. -/
  lastNumber : Nat
  ends : Option Nat
  status : Status
deriving Repr

/-- The options of a shell. -/
structure Flags where
  /-- End at the first failure. -/
  strict : Bool := false
  /-- Missing variables are errors. -/
  known : Bool := false
  /-- Patterns stand for themselves. -/
  literal : Bool := false
  /-- Commands are shown before they run. -/
  shown : Bool := false
deriving DecidableEq, Repr

/-- A process of a launch. -/
structure Worker where
  world : World
  number : Nat := 1
  /-- The workers that wait for this one, the nearest first. -/
  ancestors : List Nat := []
  /-- The worker that `$$` names. -/
  shellNumber : Nat := 1
  name : Octets
  args : List Octets := []
  bindings : List (Octets × Variable) := []
  functions : List (Octets × Command) := []
  flags : Flags := {}
  status : Nat := 0
  descriptors : List (Nat × Nat) := []
  cwd : Place
  clock : Nat := 0
  jobs : List Job := []
  latestJob : Option Nat := none
  traps : List (Octets × Octets) := []
  line : Nat := 1
  /-- Whether a failure is being asked for. -/
  tested : Bool := false
  /-- Whether this is the last thing the worker does. -/
  final : Bool := false
  /-- The code of the last command whose output was captured. -/
  captured : Option Nat := none
  /-- How many loops the command stands in. -/
  loops : Nat := 0
  /-- How many letters of an argument have been read as options. -/
  lettersRead : Nat := 0
  /-- What the variables of the running function stood for before it. -/
  locals : List (Octets × Option Variable) := []

/-- Why an action does not go on. -/
inductive Interruption where
  | quit (code : Nat)
  /-- Back from a function. -/
  | back
  | leaveLoops (count : Nat)
  | nextTurn (count : Nat)
  | killed (worker signal : Nat)
  | unfinished
deriving DecidableEq, Repr

/-- Something a worker does. -/
abbrev Act := ExceptT Interruption (StateM Worker)

namespace Worker

/-! ## Variables -/

/-- The value of a variable. -/
def value? (w : Worker) (name : Octets) : Option Octets :=
  (w.bindings.lookup name).bind Variable.value

/-- A variable replaced, or a new one. -/
def putVariable (w : Worker) (name : Octets) (v : Variable) : Worker :=
  if (w.bindings.lookup name).isSome then
    { w with bindings := w.bindings.map fun e => if e.1 = name then (name, v) else e }
  else { w with bindings := w.bindings ++ [(name, v)] }

/-- A variable as it was before, or gone. -/
def restoreVariable (w : Worker) (name : Octets) : Option Variable → Worker
  | some v => w.putVariable name v
  | none => { w with bindings := w.bindings.filter fun e => e.1 != name }

/-- A variable with a new value. -/
def assign (w : Worker) (name value : Octets) : Worker :=
  let old := (w.bindings.lookup name).getD { value := none }
  w.putVariable name { old with value := some value }

/-- The characters that separate fields. -/
def separators (w : Worker) : Octets :=
  (w.value? "IFS".toList).getD [' ', '\t', '\n']

/-- The variables that are handed to programs. -/
def exported (w : Worker) : List (Octets × Variable) :=
  w.bindings.filter fun e => e.2.exported && e.2.value.isSome

end Worker

/-! ## Ending -/

/-- Ends the worker. -/
def quit {α : Type} (code : Nat) : Act α :=
  throw (.quit (code % 256))

/-- Sets the status of the last command. -/
def setStatus (code : Nat) : Act Unit :=
  modify fun w => { w with status := code }

/-- The code a shell gives to a status. -/
def codeOf : Status → Nat
  | .exited code => code
  | .signalled signal => 128 + signal

/-- Lets time pass until a moment. -/
def passUntil (time : Nat) : Act Unit := do
  let w ← get
  if w.world.limit.any fun limit => limit < time then throw .unfinished
  set { w with
    clock := max w.clock time
    world := { w.world with latest := max w.world.latest time } }

/-- How often a loop turns before it counts as endless. -/
def maxTurns : Nat := 200000

/-! ## Children -/

/-- Starts an action in a child and tells how the child ends, and when; nothing when it
never does.  A signal to another worker passes through. -/
def spawn (body : Act Unit) : Act (Option (Status × Nat)) := do
  let parent ← get
  let number := parent.world.workers + 1
  let child := { parent with
    number
    ancestors := parent.number :: parent.ancestors
    jobs := []
    traps := []
    final := true
    world := { parent.world with workers := number } }
  let (result, after) := body.run.run child
  set { parent with world := after.world }
  match result with
  | .ok () => return some (.exited after.status, after.clock)
  | .error (.quit code) => return some (.exited code, after.clock)
  | .error (.killed worker signal) =>
    if worker = number then return some (.signalled signal, after.clock)
    else throw (.killed worker signal)
  | .error .unfinished => return none
  | .error _ => return some (.exited after.status, after.clock)

/-- Runs an action in a child and waits for its end. -/
def inChild (body : Act Unit) : Act Status := do
  match ← spawn body with
  | none => throw .unfinished
  | some (status, time) => do
    passUntil time
    return status

/-- The names of signals in messages about children; the others are not mentioned. -/
def signalNotice : Nat → Option String
  | 1 => some "Hangup"
  | 3 => some "Quit"
  | 4 => some "Illegal instruction"
  | 6 => some "Aborted"
  | 8 => some "Floating point exception"
  | 9 => some "Killed"
  | 10 => some "User defined signal 1"
  | 11 => some "Segmentation fault"
  | 12 => some "User defined signal 2"
  | 14 => some "Alarm clock"
  | 15 => some "Terminated"
  | _ => none

/-! ## Open files -/

/-- Opens a stream and answers its number. -/
def openStream (o : Opened) : Act Nat := do
  let w ← get
  set { w with world := { w.world with opened := w.world.opened.push o } }
  return w.world.opened.size

/-- Points a descriptor at an open file. -/
def point (descriptor opened : Nat) : Act Unit :=
  modify fun w => { w with
    descriptors := (descriptor, opened) :: w.descriptors.filter fun e => e.1 != descriptor }

/-- Closes a descriptor. -/
def close (descriptor : Nat) : Act Unit :=
  modify fun w => { w with descriptors := w.descriptors.filter fun e => e.1 != descriptor }

/-- The open file of a descriptor, and its number. -/
def opened? (descriptor : Nat) : Act (Option (Nat × Opened)) := do
  let w ← get
  match w.descriptors.lookup descriptor with
  | none => return none
  | some n => return w.world.opened[n]?.map fun o => (n, o)

/-- Changes an open file. -/
def changeOpened (n : Nat) (o : Opened) : Act Unit :=
  modify fun w => { w with world := { w.world with opened := w.world.opened.setIfInBounds n o } }

/-- Bytes with others written over them at an offset. -/
def overwritten (bytes : List UInt8) (offset : Nat) (new : List UInt8) : List UInt8 :=
  bytes.take offset ++ List.replicate (offset - bytes.length) 0 ++ new
    ++ bytes.drop (offset + new.length)

/-- Writes to a descriptor; answers whether it could. -/
def send (descriptor : Nat) (t : Octets) : Act Bool := do
  match ← opened? descriptor with
  | none => return false
  | some (n, o) =>
    if !o.writable then return false
    let w ← get
    match o.stream with
    | .capture =>
      let p : Printed := ⟨w.clock, w.number, t⟩
      set { w with world := { w.world with printed := p :: w.world.printed } }
      return true
    | .pipe k =>
      set { w with world := { w.world with pipes := w.world.pipes.modify k fun ts => t :: ts } }
      return true
    | .file place =>
      match w.world.files.node? place with
      | some (.file bytes mode) =>
        let new := Text.Octets.toBytes t
        let offset := if o.appending then bytes.length else o.offset
        let files := w.world.files.put place (.file (overwritten bytes offset new) mode)
        set { w with world := { w.world with files } }
        changeOpened n { o with offset := offset + new.length }
        return true
      | _ => return true
    | .device => return true
    | .directory => return false

/-- Writes to a descriptor, whether it can or not. -/
def say (descriptor : Nat) (t : Octets) : Act Unit := do
  discard (send descriptor t)

/-- What is still to be read from an open file. -/
def pending (w : World) (o : Opened) : Octets :=
  match o.stream with
  | .file place =>
    match w.files.node? place with
    | some (.file bytes _) => Text.Octets.ofBytes (bytes.drop o.offset)
    | _ => []
  | .pipe k => ((w.pipes[k]?.getD []).reverse.flatten).drop o.offset
  | _ => []

/-- Reads from a descriptor as much as `size` says of what is there; nothing when it cannot
be read. -/
def receive (descriptor : Nat) (size : Octets → Nat) : Act (Option Octets) := do
  match ← opened? descriptor with
  | none => return none
  | some (n, o) =>
    if !o.readable || o.stream == .directory then return none
    let t := pending (← get).world o
    let taken := t.take (size t)
    changeOpened n { o with offset := o.offset + taken.length }
    return some taken

/-- Reads everything. -/
def receiveAll (descriptor : Nat) : Act (Option Octets) :=
  receive descriptor List.length

/-- The size of the first line with its end. -/
def lineSize (t : Octets) : Nat :=
  let line := t.takeWhile (· != '\n')
  if line.length < t.length then line.length + 1 else line.length

/-- A new pipe. -/
def newPipe : Act Nat := do
  let w ← get
  set { w with world := { w.world with pipes := w.world.pipes.push [] } }
  return w.world.pipes.size

/-- Everything that was written to a pipe. -/
def pipeText (k : Nat) : Act Octets := do
  return ((← get).world.pipes[k]?.getD []).reverse.flatten

/-! ## Messages -/

/-- A message of the shell on its standard error. -/
def grumble (message : Octets) : Act Unit := do
  let w ← get
  say 2 (w.name ++ ": ".toList ++ Text.Octets.ofNat w.line ++ ": ".toList ++ message ++ ['\n'])

/-- A message of a program on its standard error. -/
def complainAs (program : String) (message : Octets) : Act Unit :=
  say 2 (program.toList ++ ": ".toList ++ message ++ ['\n'])

/-! ## Files -/

/-- Where a path leads for the worker, the last link followed. -/
def spotOf (path : Octets) : Act (Except Errno Spot) := do
  let w ← get
  return w.world.files.walk w.cwd (Text.Octets.toText path) true

/-- The node a path leads to. -/
def nodeOf (path : Octets) : Act (Except Errno Node) := do
  let w ← get
  return w.world.files.nodeAt w.cwd (Text.Octets.toText path)

/-- Replaces the files. -/
def setFiles (files : FileSystem) : Act Unit :=
  modify fun w => { w with world := { w.world with files } }

/-- Opens a file for reading. -/
def openInput (path : Octets) : Act (Except Errno Opened) := do
  match ← spotOf path with
  | .error e => return .error e
  | .ok (.free ..) => return .error .notFound
  | .ok (.found place node) =>
    match node with
    | .file .. => return .ok { stream := .file place, writable := false }
    | .device => return .ok { stream := .device }
    | .program _ => return .ok { stream := .device, writable := false }
    | .link _ => return .error .tooManyLinks
    | .directory _ => return .ok { stream := .directory, writable := false }
    | .fixedDirectory => return .ok { stream := .directory, writable := false }

/-- Opens a file for writing; a new one is made, an old one is emptied or appended to. -/
def openOutput (path : Octets) (appending emptied : Bool) : Act (Except Errno Opened) := do
  let w ← get
  match ← spotOf path with
  | .error e => return .error e
  | .ok (.free dir name slash) =>
    if slash then return .error .isDirectory
    if w.world.files.node? dir = some .fixedDirectory then return .error .denied
    let place := dir ++ [name]
    setFiles (w.world.files.put place (.file [] 0o644))
    return .ok { stream := .file place, appending }
  | .ok (.found place node) =>
    match node with
    | .file _ mode => do
      if emptied then setFiles (w.world.files.put place (.file [] mode))
      return .ok { stream := .file place, appending }
    | .device => return .ok { stream := .device }
    | .program _ => return .error .denied
    | .link _ => return .error .tooManyLinks
    | .directory _ => return .error .isDirectory
    | .fixedDirectory => return .error .isDirectory

end Shell
end Walkthrough
