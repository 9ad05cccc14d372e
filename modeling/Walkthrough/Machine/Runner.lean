/-
# Commands as processes

The executor that runs commands on a machine.  A line is handed to the shell behind `-c`,
an argument list is a program and its arguments.  What a process prints is decoded with
recovery and its blanks at the end are cut; the exit code of a process that a signal
ended is 128 plus the signal.

| what happens | answer |
| --- | --- |
| no file for what is printed, or no second and third handle on it | i/o fault |
| no program in the argument list | usage fault |
| a NUL in a text of the launch, or the launch is refused | i/o fault with the cause |
| the clock cannot hold the deadline | overflow |
| the process cannot be waited for | i/o fault |
| what it printed cannot be read | i/o fault |
| killed at the deadline | timeout fault with what was printed |
| exited | outcome |

The file for the output has no name and is in no directory.  Its failures, and those of waiting
and reading, are not brought about by the files of the machine: `Faults` says which there are.
-/

import Walkthrough.Machine.Deadline
import Walkthrough.Machine.Kernel
import Walkthrough.Number.Shortest
import Walkthrough.Session.Executor
import Walkthrough.Text.Blank

namespace Walkthrough
namespace Runner

/-- How commands are run: the shell for lines, a directory, and a limit in milliseconds. -/
structure Settings where
  shell : String
  directory : Option String := none
  limit : Option Nat := none
deriving DecidableEq, Repr

/-- The shell that is used when none is named. -/
def defaultShell : String := "/bin/sh"

/-- Failures of the operations around a process. -/
structure Faults where
  /-- The file for the output is not made. -/
  capture : Option Errno := none
  /-- There is no further handle on that file. -/
  clone : Option Errno := none
  wait : Option Errno := none
  read : Option Errno := none
deriving DecidableEq, Repr

/-- Which operations fail around the process of a command, on a machine. -/
abbrev Mishaps := CommandLine → Machine → Faults

/-- Nothing fails around a process. -/
def noMishaps : Mishaps := fun _ _ => {}

/-- The i/o fault of an operation for a command. -/
def ioFault (c : CommandLine) (message cause : String) : Fault :=
  { kind := .io
    message := some message
    command := some c.display
    source := some (.root cause) }

/-- The fault of a command that could not be started. -/
def spawnFault (c : CommandLine) (cause : String) : Fault :=
  ioFault c "failed to spawn command" cause

/-- The fault of an argument list without a program. -/
def emptyFault : Fault :=
  { kind := .usage, message := some "command argv is empty" }

/-- The fault of a command that did not end in time. -/
def timeoutFault (c : CommandLine) (limit : Nat) (output : String) : Fault :=
  { kind := .timeout
    message := some ("command did not finish within " ++ String.ofList (Number.secondsText limit)
      ++ "s")
    hint := some "Raise --step-timeout or check that the command does not wait for input."
    command := some c.display
    output := some output }

/-- The end of a program whose clock cannot hold a deadline. -/
def overflowFault : Fault := { kind := .overflow }

/-- The program and the arguments of a command. -/
def programOf (s : Settings) : CommandLine → Option (String × List String)
  | .shell line => some (s.shell, ["-c", line])
  | .argv [] => none
  | .argv (program :: args) => some (program, args)

/-- Whether a text of the launch holds a NUL. -/
def hasNul (s : Settings) (program : String) (args : List String) : Bool :=
  (program :: args ++ s.directory.toList).any fun t => t.toList.contains '\x00'

/-- What a process printed, as text. -/
def outputOf (printed : List UInt8) : String :=
  String.ofList (Text.trimEnd (Text.Utf8.decodeLossy printed))

/-- The outcome of a process that ended. -/
def outcomeOf (status : Status) (printed : List UInt8) : Outcome :=
  match status with
  | .exited code => ⟨exitCodeOf code, outputOf printed, none⟩
  | .signalled signal => ⟨exitCodeOf (128 + signal), outputOf printed, some signal⟩

/-- The reply for a process that was waited for and whose output was read. -/
def replyFor (c : CommandLine) (limit : Nat) (printed : List UInt8) :
    Deadline.Verdict Status → Reply
  | .exited status =>
    { result := .ok (outcomeOf status printed), captured := some (outputOf printed).utf8ByteSize }
  | .killed _ | .waiting =>
    { result := .error (timeoutFault c limit (outputOf printed))
      captured := some (outputOf printed).utf8ByteSize }

/-- The reply for a process that was started, unless waiting or reading fails. -/
def replyUnless (faults : Faults) (c : CommandLine) (reply : Reply) : Reply :=
  match faults.wait, faults.read with
  | some e, _ => { result := .error (ioFault c "failed to wait for command" e.report) }
  | none, some e => { result := .error (ioFault c "failed to read output" e.report) }
  | none, none => reply

/-- Waits for a process that was started, and answers for the command. -/
def awaitEnding (faults : Faults) (c : CommandLine) (s : Settings) (m : Machine)
    (ending : Ending) : Reply × Machine :=
  match ending with
  | .refused e => ({ result := .error (spawnFault c e.report) }, m)
  | .ended time status printed =>
    match s.limit with
    | none =>
      (replyUnless faults c (replyFor c 0 printed (.exited status)),
        { m with clock := m.clock + time })
    | some limit =>
      match Deadline.after? m.clock limit with
      | none => ({ result := .error overflowFault }, m)
      | some deadline =>
        (replyUnless faults c (replyFor c limit printed
          (Deadline.await (Deadline.looksAt m.clock (some (time, status))) deadline
            (Deadline.turnsFor limit) 0)),
          { m with clock := m.clock + time })
  | .stopped printed =>
    let limit := s.limit.getD 0
    match Deadline.after? m.clock limit with
    | none => ({ result := .error overflowFault }, m)
    | some _ =>
      (replyUnless faults c (replyFor c limit printed (.killed (m.clock + limit))),
        { m with clock := m.clock + Deadline.lastLook limit })

/-- Starts the process of a command and waits for it. -/
def launch (k : Kernel) (faults : Faults) (s : Settings) (c : CommandLine) (m : Machine) :
    Reply × Machine :=
  match programOf s c with
  | none => ({ result := .error emptyFault }, m)
  | some (program, args) =>
    if hasNul s program args then
      ({ result := .error (spawnFault c "nul byte found in provided data") }, m)
    else
      let launch : Launch :=
        { program, args, directory := s.directory, cwd := m.cwd, searchPath := m.searchPath
          limit := s.limit.map Deadline.lastLook }
      let answer := k launch m.files
      awaitEnding faults c s { m with files := answer.2 } answer.1

/-- The executor on a machine. -/
def executor (k : Kernel) (mishaps : Mishaps) (s : Settings) : Executor Machine := fun c m =>
  let faults := mishaps c m
  match faults.capture, faults.clone with
  | some e, _ => ({ result := .error (ioFault c "failed to create capture file" e.report) }, m)
  | none, some e => ({ result := .error (ioFault c "failed to clone capture file" e.report) }, m)
  | none, none => launch k faults s c m

end Runner
end Walkthrough
