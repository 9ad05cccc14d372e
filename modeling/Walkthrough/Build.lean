/-
# Building a transcript

A build checks everything that can be checked before a command runs: the target, the
destination, the script and the programs it needs.  Then it plays the script in a new
working directory, asks the target for its identity, renders the session with its footer,
writes machine paths out of it and puts the document at its destination.  In the end the
working directory is to be removed, unless it is to be kept.  The removal is tried once, by the
path of the directory, and nobody asks how it went: a file that a command has put there stays,
and so does what a removal that breaks off has not reached.
-/

import Walkthrough.Destination
import Walkthrough.Machine.Runner
import Walkthrough.Script.Builtin
import Walkthrough.Script.Load
import Walkthrough.Session.Basic
import Walkthrough.Target
import Walkthrough.Transcript.Identity
import Walkthrough.Transcript.Render
import Walkthrough.Transcript.Substitution

namespace Walkthrough
namespace Build

/-- What to build. -/
structure Config where
  target : String
  output : String
  script : Option String := none
  shortName : Option String := none
  shell : String := Runner.defaultShell
  /-- The milliseconds that a command may take. -/
  limit : Option Nat := none
  keepWorkdir : Bool := false
deriving DecidableEq, Repr

/-- What was built. -/
structure Summary where
  identity : String
  steps : Nat
  bytes : Nat
  keptWorkdir : Option String := none
deriving DecidableEq, Repr

/-- The target under the alias that was asked for. -/
def targetOf (c : Config) (t : Target) : Target :=
  match c.shortName with
  | some shortName => { t with shortName }
  | none => t

/-- The script that was asked for, or the built-in one. -/
def scriptOf (c : Config) (m : Machine) : Except Fault Script :=
  match c.script with
  | some path => Script.load m path
  | none => .ok Script.builtin

/-- What is checked behind the destination: the script, and the programs that are needed. -/
def ready (c : Config) (t : Target) (m : Machine) : Except Fault (Target × Script) := do
  let s ← scriptOf c m
  t.preflight m c.shell
  .ok (targetOf c t, s)

/-- Failures that neither the files nor the commands bring about. -/
structure Faults where
  /-- The check of the destination cannot make its temporary file. -/
  check : Option Errno := none
  /-- The working directory cannot be made. -/
  workdir : Option Errno := none
  /-- What fails around the processes of commands. -/
  mishaps : Runner.Mishaps := Runner.noMishaps
  write : Destination.Faults := {}
  /-- The removal of the working directory breaks off and has not reached these places. -/
  unreached : Option (Place → Bool) := none

/-- Everything that is checked before a command runs. -/
def prepare (faults : Faults) (c : Config) (m : Machine) :
    Except Fault (Target × Script) × Machine :=
  match Target.resolve m c.target with
  | .error f => (.error f, m)
  | .ok t =>
    let checked := Destination.check m c.output faults.check
    let m := { m with files := checked.2 }
    match checked.1 with
    | .error f => (.error f, m)
    | .ok () => (ready c t m, m)

/-- The beginning of the names of working directories. -/
def workdirOpening : String := "clidocgen-"

/-- The fault of a working directory that cannot be made. -/
def workdirFault (cause : String) : Fault :=
  { kind := .setup
    message := some "failed to create working directory"
    source := some (.root cause) }

/-- Makes a working directory: its path and its place.  The names that a check has drawn before
are passed over. -/
def makeWorkdir (fault : Option Errno) (opening : String) (m : Machine) :
    Except Fault (String × Place × Machine) :=
  match fault with
  | some e => .error (workdirFault e.report)
  | none =>
    let m := { m with drawn := m.drawn + Temporary.attempts }
    match Temporary.make m m.tempDir opening (.directory 0o700) with
    | .error cause => .error (workdirFault cause)
    | .ok (path, place, files) =>
      .ok (path, place, { m with files, drawn := m.drawn + Temporary.attempts })

/-- The executor of a build. -/
def executorOf (k : Kernel) (faults : Faults) (c : Config) : Executor Machine :=
  Runner.executor k faults.mishaps { shell := c.shell, limit := c.limit }

/-- The document of the records of a session. -/
def document (t : Target) (workdir identity : String) (rs : List Record) : String :=
  (SubstitutionTable.forTarget t.invocation t.shortName t.path workdir).apply
    (Transcript.withFooter (Transcript.render rs) identity)

/-- Plays the script: the records of the session. -/
def record (ex : Executor Machine) (s : Script) (p : Placeholders) (d : Desk Machine) :
    Except Fault (List Record) × Desk Machine :=
  match Stage.play ex s p ⟨{}, d⟩ with
  | (.error f, g) => (.error f, g.desk)
  | (.ok (), g) => (g.session.finish, g.desk)

/-- Puts the document at its destination. -/
def publish (faults : Destination.Faults) (c : Config) (text : String) (d : Desk Machine) :
    Except Fault Unit × Desk Machine :=
  let answer := Destination.write faults d.state c.output text
  let d : Desk Machine := { d with state := { d.state with files := answer.2 } }
  match answer.1 with
  | .error f => (.error f, d)
  | .ok () => (.ok (), d.note (.documentWritten c.output text.utf8ByteSize))

/-- Everything that happens in the working directory. -/
def perform (k : Kernel) (faults : Faults) (c : Config) (t : Target) (s : Script)
    (workdir : String) (d : Desk Machine) : Except Fault Summary × Desk Machine :=
  let ex := executorOf k faults c
  match record ex s ⟨t.invocationArgs, workdir, none⟩ d with
  | (.error f, d) => (.error f, d)
  | (.ok rs, d) =>
    match Transcript.fetchIdentity ex t.versionCommand d with
    | (.error f, d) => (.error f, d)
    | (.ok identity, d) =>
      let text := document t workdir identity rs
      match publish faults.write c text d with
      | (.error f, d) => (.error f, d)
      | (.ok (), d) => (.ok ⟨identity, rs.length, text.utf8ByteSize, none⟩, d)

/-- Whether a program goes on behind a result. -/
def goesOn {α : Type} : Except Fault α → Bool
  | .error f => f.kind != .overflow
  | .ok _ => true

/-- The desk behind a build: its working directory kept and noted, or its removal tried. -/
def leave (unreached : Option (Place → Bool)) (keep : Bool) (workdir : String)
    (d : Desk Machine) : Desk Machine :=
  if keep then d.note (.workdirKept workdir)
  else
    let files := d.state.files.removeTree d.state.cwd workdir unreached
    { d with state := { d.state with files } }

/-- A summary that names the working directory if it is kept. -/
def keeping (keep : Bool) (workdir : String) (s : Summary) : Summary :=
  if keep then { s with keptWorkdir := some workdir } else s

/-- Builds a transcript. -/
def generate (k : Kernel) (faults : Faults) (c : Config) (d : Desk Machine) :
    Except Fault Summary × Desk Machine :=
  let prepared := prepare faults c d.state
  let d := { d with state := prepared.2 }
  match prepared.1 with
  | .error f => (.error f, d)
  | .ok (t, s) =>
    match makeWorkdir faults.workdir workdirOpening d.state with
    | .error f => (.error f, d)
    | .ok (workdir, _, m) =>
      let d := { d with state := m }.note (.workdirCreated workdir)
      let answer := perform k faults c t s workdir d
      let keep := c.keepWorkdir && goesOn answer.1
      (answer.1.map (keeping keep workdir), leave faults.unreached keep workdir answer.2)

end Build
end Walkthrough
