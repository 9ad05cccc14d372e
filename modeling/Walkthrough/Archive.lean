/-
# Filling an archive

The tasks of a script are all expanded before anything happens.  Then what lies at the
path of the archive is removed, and the tasks are executed in order up to the first
fault; their output is dropped, and tolerated failures are counted.
-/

import Walkthrough.Machine.Kernel
import Walkthrough.Session.Executor
import Walkthrough.Script.Placeholders

namespace Walkthrough
namespace Archive

variable {τ : Type}

/-- How many commands were executed, and how many of them failed. -/
structure Counts where
  executed : Nat := 0
  toleratedFailures : Nat := 0
deriving DecidableEq, Repr

/-- The counts with one more outcome. -/
def Counts.add (n : Counts) (o : Outcome) : Counts :=
  ⟨n.executed + 1, if o.success then n.toleratedFailures else n.toleratedFailures + 1⟩

/-- The fault of an old archive that cannot be removed. -/
def staleFault (path : String) (e : Errno) : Fault :=
  { kind := .io
    message := some "failed to remove old example archive"
    path := some path
    source := some (.root e.report) }

/-- Removes what the path of the archive leads to. -/
def removeStale (path : String) (d : Desk (Machine × τ)) :
    Except Fault Unit × Desk (Machine × τ) :=
  let m := d.state.1
  if !m.files.isThere m.cwd path then (.ok (), d)
  else
    let d := d.note (.removingArchive path)
    match m.files.remove m.cwd path with
    | .error e => (.error (staleFault path e), d)
    | .ok files => (.ok (), { d with state := ({ m with files }, d.state.2) })

/-- Executes tasks in order up to the first fault. -/
def runTasks {σ : Type} (ex : Executor σ) :
    List Task → Counts → Desk σ → Except Fault Counts × Desk σ
  | [], n, d => (.ok n, d)
  | t :: rest, n, d =>
    match runChecked ex t.command t.allowFail d with
    | (.error f, d) => (.error f, d)
    | (.ok o, d) => runTasks ex rest (n.add o) d

/-- Fills the archive at a path. -/
def populate (ex : Executor (Machine × τ)) (path : String) (s : Script) (p : Placeholders)
    (d : Desk (Machine × τ)) : Except Fault Counts × Desk (Machine × τ) :=
  match s.tasks p with
  | .error f => (.error f, d)
  | .ok tasks =>
    match removeStale path d with
    | (.error f, d) => (.error f, d)
    | (.ok (), d) => runTasks ex tasks {} d

/-- An executor on a machine that leaves a second state alone. -/
def besides (ex : Executor Machine) : Executor (Machine × τ) := fun c s =>
  let answer := ex c s.1
  (answer.1, (answer.2, s.2))

/-- An executor that leaves the machine alone. -/
def offMachine (ex : Executor τ) : Executor (Machine × τ) := fun c s =>
  let answer := ex c s.2
  (answer.1, (s.1, answer.2))

end Archive
end Walkthrough
