/-
# Executing commands

An executor answers a command from its state: an outcome, or a fault that kept the
command from having one.  A desk is the state of an executor together with the commands
given to it and the events noted so far, both in order.  `runChecked` gives one command
to the executor and applies the failure policy: a non-zero exit is a fault unless it is
tolerated.
-/

import Walkthrough.CommandLine
import Walkthrough.Fault
import Walkthrough.Journal

namespace Walkthrough

/-- How a command ended. -/
structure Outcome where
  exitCode : UInt8 := 0
  /-- What the command printed, without the blanks at the end. -/
  output : String := ""
  /-- The signal that ended the command. -/
  signal : Option Int := none
deriving DecidableEq, Repr

/-- Whether the command succeeded. -/
def Outcome.success (o : Outcome) : Bool :=
  o.exitCode == 0

/-- The exit status of eight bits that a raw status stands for. -/
def exitCodeOf (raw : Int) : UInt8 :=
  UInt8.ofNat (raw % 256).toNat

/-- What an executor answers, and how many bytes it captured if it started a process. -/
structure Reply where
  result : Except Fault Outcome
  captured : Option Nat := none

/-- An executor answers each command from its state and changes the state. -/
abbrev Executor (σ : Type) := CommandLine → σ → Reply × σ

/-- The state of an executor, the commands it was given and the events noted. -/
structure Desk (σ : Type) where
  state : σ
  calls : List CommandLine := []
  log : List Event := []

namespace Desk

variable {σ : Type}

/-- Notes an event. -/
def note (d : Desk σ) (e : Event) : Desk σ :=
  { d with log := d.log ++ [e] }

/-- Gives a command to the executor. -/
def execute (ex : Executor σ) (c : CommandLine) (d : Desk σ) : Except Fault Outcome × Desk σ :=
  let answer := ex c d.state
  let d' : Desk σ := { d with state := answer.2, calls := d.calls ++ [c] }
  match answer.1.captured with
  | some bytes => (answer.1.result, d'.note (.captured c.display bytes))
  | none => (answer.1.result, d')

end Desk

/-- The fault of a command that exits non-zero where that is not tolerated. -/
def stepFault (c : CommandLine) (o : Outcome) : Fault :=
  { kind := .stepFailed
    message := some ("command failed with code " ++ toString o.exitCode.toNat)
    command := some c.display
    exitCode := some o.exitCode
    output := some o.output }

/-- The event of a tolerated failure. -/
def toleratedEvent (c : CommandLine) (o : Outcome) : Event :=
  match o.signal with
  | some signal => .toleratedSignal c.display o.exitCode.toNat signal
  | none => .toleratedExit c.display o.exitCode.toNat

/-- Executes a command under the failure policy. -/
def runChecked {σ : Type} (ex : Executor σ) (c : CommandLine) (allowFail : Bool) (d : Desk σ) :
    Except Fault Outcome × Desk σ :=
  match (d.note (.executing c.display)).execute ex c with
  | (.error f, d) => (.error f, d)
  | (.ok o, d) =>
    if o.success then (.ok o, d)
    else if allowFail then (.ok o, d.note (toleratedEvent c o))
    else (.error (stepFault c o), d)

end Walkthrough
