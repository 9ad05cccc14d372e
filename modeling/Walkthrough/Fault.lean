/-
# Faults

A fault is the one way in which a run ends early.  Its kind decides the exit status of
the program; the other fields are the context that was known where it arose, each of them
set or not, and the error below it, which may have one below it in turn.

| kind | exit status | without a message |
| --- | ---: | --- |
| `internal` | 1 | internal error |
| `usage` | 2 | usage error |
| `setup` | 3 | setup failed |
| `stepFailed` | 4 | command failed |
| `timeout` | 5 | command timed out |
| `aborted` | 6 | session aborted |
| `io` | 7 | i/o error |
| `overflow` | 101 | deadline out of range |

The last kind is not reported: the program stops where the clock cannot hold a deadline.
-/

namespace Walkthrough

namespace Fault

/-- What went wrong, as far as the exit status tells. -/
inductive Kind where
  | internal
  | usage
  | setup
  | stepFailed
  | timeout
  | aborted
  | io
  | overflow
deriving DecidableEq, Repr

/-- The name of a kind in reports. -/
def Kind.name : Kind → String
  | .internal => "Internal"
  | .usage => "Usage"
  | .setup => "Setup"
  | .stepFailed => "StepFailed"
  | .timeout => "Timeout"
  | .aborted => "Aborted"
  | .io => "Io"
  | .overflow => "Overflow"

/-- The exit status of a program that ends with a fault of the kind. -/
def Kind.exitStatus : Kind → Nat
  | .internal => 1
  | .usage => 2
  | .setup => 3
  | .stepFailed => 4
  | .timeout => 5
  | .aborted => 6
  | .io => 7
  | .overflow => 101

/-- What a report says of a fault without a message. -/
def Kind.defaultMessage : Kind → String
  | .internal => "internal error"
  | .usage => "usage error"
  | .setup => "setup failed"
  | .stepFailed => "command failed"
  | .timeout => "command timed out"
  | .aborted => "session aborted"
  | .io => "i/o error"
  | .overflow => "deadline out of range"

/-- An error below a fault: its text, and the error below it, if there is one. -/
inductive Cause where
  | root (text : String)
  | above (text : String) (source : Cause)
deriving DecidableEq, Repr

/-- The texts of an error and of those below it, outermost first. -/
def Cause.texts : Cause → List String
  | root text => [text]
  | above text source => text :: source.texts

end Fault

/-- An early end of a run, with its context. -/
structure Fault where
  kind : Fault.Kind
  message : Option String := none
  hint : Option String := none
  path : Option String := none
  command : Option String := none
  exitCode : Option UInt8 := none
  output : Option String := none
  source : Option Fault.Cause := none
deriving DecidableEq, Repr

/-- Answers are compared by their values and by their faults. -/
instance Fault.decidableEqAnswer {ε α : Type} [DecidableEq ε] [DecidableEq α] :
    DecidableEq (Except ε α)
  | .ok a, .ok b => decidable_of_iff (a = b) ⟨congrArg Except.ok, Except.ok.inj⟩
  | .error e, .error f => decidable_of_iff (e = f) ⟨congrArg Except.error, Except.error.inj⟩
  | .ok _, .error _ => isFalse (by simp)
  | .error _, .ok _ => isFalse (by simp)

namespace Fault

/-- The message, or what the kind says without one. -/
def summary (f : Fault) : String :=
  f.message.getD f.kind.defaultMessage

/-- The texts of all errors below a fault, outermost first. -/
def causes (f : Fault) : List String :=
  match f.source with
  | some cause => cause.texts
  | none => []

/-- A field of the one-line form, when it is set. -/
def clause (opening : String) (field : Option String) (closing : String) : String :=
  match field with
  | some text => opening ++ text ++ closing
  | none => ""

/-- The one-line form: the kind, then message, command, exit code and path where set. -/
def display (f : Fault) : String :=
  f.kind.name
    ++ clause ": " f.message ""
    ++ clause " (command: " f.command ")"
    ++ clause " (exit code: " (f.exitCode.map fun n => toString n.toNat) ")"
    ++ clause " (path: " f.path ")"

end Fault
end Walkthrough
