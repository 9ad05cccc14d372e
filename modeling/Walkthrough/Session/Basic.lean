/-
# Sessions

A session collects the records of a transcript: documentation as it was given, and each
command with its policy, its exit code and its output.  A command is executed when it is
added.  The first one that fails aborts the session; an aborted session takes nothing
more and cannot be finished.
-/

import Walkthrough.Session.Executor
import Walkthrough.Script.Placeholders

namespace Walkthrough

/-- A command that was executed. -/
structure CommandRecord where
  command : CommandLine
  allowFail : Bool := false
  noOutput : Bool := false
  exitCode : UInt8 := 0
  output : String := ""
deriving DecidableEq, Repr

/-- A record of a session. -/
inductive Record where
  | doc (text : String)
  | command (r : CommandRecord)
deriving DecidableEq, Repr

/-- The records so far, and whether a command failed. -/
structure Session where
  records : List Record := []
  aborted : Bool := false
deriving DecidableEq, Repr

/-- A session and the desk its commands are executed at. -/
structure Stage (σ : Type) where
  session : Session
  desk : Desk σ

namespace Session

/-- The fault of everything that is asked of an aborted session. -/
def abortedFault : Fault :=
  { kind := .aborted, message := some "session was aborted by a failed command" }

/-- The record of a task with its outcome. -/
def recordOf (t : Task) (o : Outcome) : CommandRecord :=
  ⟨t.command, t.allowFail, t.noOutput, o.exitCode, o.output⟩

/-- Adds documentation. -/
def addDoc (text : String) (s : Session) : Except Fault Unit × Session :=
  if s.aborted then (.error abortedFault, s)
  else (.ok (), { s with records := s.records ++ [.doc text] })

/-- The records of a session that was not aborted. -/
def finish (s : Session) : Except Fault (List Record) :=
  if s.aborted then .error abortedFault else .ok s.records

end Session

namespace Stage

variable {σ : Type}

/-- A new session at a desk. -/
def start (state : σ) : Stage σ := ⟨{}, { state }⟩

/-- Adds documentation to the session. -/
def addDoc (text : String) (g : Stage σ) : Except Fault Unit × Stage σ :=
  let r := g.session.addDoc text
  (r.1, { g with session := r.2 })

/-- Executes a task and records it; a fault aborts the session. -/
def addTask (ex : Executor σ) (t : Task) (g : Stage σ) : Except Fault CommandRecord × Stage σ :=
  if g.session.aborted then (.error Session.abortedFault, g)
  else match runChecked ex t.command t.allowFail g.desk with
    | (.error f, d) => (.error f, ⟨{ g.session with aborted := true }, d⟩)
    | (.ok o, d) =>
      let r := Session.recordOf t o
      (.ok r, ⟨{ g.session with records := g.session.records ++ [.command r] }, d⟩)

/-- Plays one step. -/
def playStep (ex : Executor σ) (p : Placeholders) (s : Script.Step) (g : Stage σ) :
    Except Fault Unit × Stage σ :=
  match s with
  | .doc text => g.addDoc text
  | .run r =>
    match r.task p with
    | .error f => (.error f, g)
    | .ok t =>
      match g.addTask ex t with
      | (.ok _, g') => (.ok (), g')
      | (.error f, g') => (.error f, g')

/-- Plays steps in order up to the first fault. -/
def playSteps (ex : Executor σ) (p : Placeholders) :
    List Script.Step → Stage σ → Except Fault Unit × Stage σ
  | [], g => (.ok (), g)
  | s :: rest, g =>
    match g.playStep ex p s with
    | (.ok (), g') => playSteps ex p rest g'
    | (.error f, g') => (.error f, g')

/-- Plays a script into the session. -/
def play (ex : Executor σ) (script : Script) (p : Placeholders) (g : Stage σ) :
    Except Fault Unit × Stage σ :=
  playSteps ex p script.steps g

end Stage
end Walkthrough
