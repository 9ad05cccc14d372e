/-
# The two programs

`transcriber` builds a transcript, `populator` fills an archive.  Each reads its
arguments, does its work on a machine, and ends with an exit status, a text for the
standard output, the events it noted, and the fault it reports, if any.
-/

import Walkthrough.Archive
import Walkthrough.Build
import Walkthrough.Options.Help
import Walkthrough.Options.Reader
import Walkthrough.Report

namespace Walkthrough
namespace Program

open Options (Spec Positional)

/-- The version of both programs. -/
def version : String := "0.3.0"

/-- The option that names the shell. -/
def shellOption (help : String) : Spec :=
  { long := "shell", value := some ("SHELL", .path), help, default := some Runner.defaultShell }

/-- The option that limits the time of a step. -/
def timeoutOption (help : String) : Spec :=
  { long := "step-timeout", value := some ("SECS", .natural), help }

/-- The flag that keeps the working directory. -/
def keepOption : Spec :=
  { long := "keep-workdir", help := "Keep the scratch directory and log its path" }

/-- The option that colours diagnostics. -/
def colorOption (help : String) : Spec :=
  { long := "color", value := some ("COLOR", .choice ["auto", "always", "never"]), help
    default := some "auto" }

/-- The text behind the help of the transcriber. -/
def transcriberEpilogue : String :=
  "EXAMPLES\n"
  ++ "  $ clidocgen target/bunkr-cli.jar docs/CLI_USAGE.md\n"
  ++ "  $ clidocgen ./mytool docs/USAGE.md --script docs/usage-script.json --alias mytool\n"
  ++ "\n"
  ++ "SCRIPTS\n"
  ++ "  A script is JSON: \x7b\x22script_version\x22: 0, \x22steps\x22: [...]\x7d\n"
  ++ "  Steps are \x7b\x22doc\x22: \x22markdown\x22\x7d or "
  ++ "\x7b\x22run\x22: \x22shell line\x22 | [\x22argv\x22, ...],\n"
  ++ "  \x22allow_fail\x22: false, \x22no_output\x22: false\x7d.\n"
  ++ "  Commands may use \x7btarget\x7d (how the program is invoked) and \x7bworkdir\x7d\n"
  ++ "  (a scratch directory removed after the run)."

/-- The program that builds a transcript. -/
def transcriber : Options.Program where
  name := "clidocgen"
  version := version
  about := "Run a CLI through a scripted session and write a markdown transcript"
  positionals := [
    ⟨"TARGET", "Program to document (.jar files run through \x60java -jar\x60)", false⟩,
    ⟨"OUTPUT", "Markdown file to write", false⟩]
  options := [
    { long := "script", value := some ("SCRIPT", .path)
      help := "Step script (default: built-in CLI walkthrough)" },
    { long := "alias", value := some ("ALIAS", .text)
      help := "Name that replaces the full invocation in the transcript" },
    shellOption "Shell used for string commands",
    timeoutOption "Kill and fail any step running longer than this",
    keepOption,
    colorOption "Colorize stderr diagnostics: auto|always|never"]
  epilogue := some transcriberEpilogue

/-- The program that fills an archive. -/
def populator : Options.Program where
  name := "clidocgen-populate"
  version := version
  about := "Fill an example archive by running a step script against a CLI"
  positionals := [
    ⟨"TARGET", "Program that writes the archive", true⟩,
    ⟨"OUTPUT", "Archive to create (replaced if it exists)", true⟩]
  options := [
    { long := "script", value := some ("SCRIPT", .path), required := true
      help := "Step script; commands may use \x7btarget\x7d, \x7bworkdir\x7d, \x7boutput\x7d" },
    shellOption "",
    timeoutOption "",
    keepOption,
    colorOption ""]

/-- The values that arguments gave. -/
abbrev Values := List (String × String)

/-- The value of an option or a positional argument. -/
def given? (vs : Values) (key : String) : Option String :=
  vs.lookup key

/-- The natural number that digits with a plus sign in front of them or without write. -/
def naturalOf (s : String) : Nat :=
  (Options.unsigned s.toList).foldl (fun n c => n * 10 + (c.toNat - '0'.toNat)) 0

/-- The time limit that was given, in milliseconds. -/
def limitOf (vs : Values) : Option Nat :=
  (given? vs "step-timeout").map fun s => naturalOf s * 1000

/-- The shell that was given. -/
def shellOf (vs : Values) : String :=
  (given? vs "shell").getD Runner.defaultShell

/-- Whether the working directory is to be kept. -/
def keeps (vs : Values) : Bool :=
  (given? vs "keep-workdir").isSome

/-- When diagnostics are coloured. -/
def colorOf (vs : Values) : ColorMode :=
  match given? vs "color" with
  | some "always" => .always
  | some "never" => .never
  | _ => .auto

/-- How a program ended. -/
structure Exit where
  status : Nat
  output : String := ""
  fault : Option Fault := none
  color : ColorMode := .auto
  log : List Event := []
  machine : Machine

/-- The fault of an argument that is missing. -/
def absentFault (message : String) : Fault :=
  { kind := .usage, message := some message
    hint := some "Usage: clidocgen <TARGET> <OUTPUT>" }

/-- What the transcriber is to build. -/
def configOf (vs : Values) : Except Fault Build.Config :=
  match given? vs "TARGET", given? vs "OUTPUT" with
  | none, _ => .error (absentFault "target must be specified as the first argument")
  | some _, none =>
    .error (absentFault "output file must be specified as the second argument")
  | some target, some output =>
    .ok { target, output, script := given? vs "script", shortName := given? vs "alias"
          shell := shellOf vs, limit := limitOf vs, keepWorkdir := keeps vs }

/-- Builds the transcript that arguments ask for. -/
def transcribe (k : Kernel) (faults : Build.Faults) (vs : Values) (d : Desk Machine) :
    Except Fault Unit × Desk Machine :=
  match configOf vs with
  | .error f => (.error f, d)
  | .ok c =>
    match Build.generate k faults c d with
    | (.error f, d) => (.error f, d)
    | (.ok s, d) => (.ok (), d.note (.transcriptComplete s.identity s.steps s.bytes))

/-- The beginning of the names of the working directories of the populator. -/
def populatorOpening : String := "clidocgen-populate-"

/-- Everything that the populator checks before it runs a command. -/
def preparePopulation (vs : Values) (m : Machine) : Except Fault (Target × Script × String) := do
  let t ← Target.resolve m ((given? vs "TARGET").getD "")
  let s ← Script.load m ((given? vs "script").getD "")
  t.preflight m (shellOf vs)
  .ok (t, s, Target.absolutePath m ((given? vs "OUTPUT").getD ""))

/-- Fills the archive in a working directory. -/
def fill (k : Kernel) (mishaps : Runner.Mishaps) (vs : Values) (t : Target) (s : Script)
    (output workdir : String) (d : Desk Machine) : Except Fault Archive.Counts × Desk Machine :=
  let ex : Executor (Machine × Unit) :=
    Archive.besides (Runner.executor k mishaps { shell := shellOf vs, limit := limitOf vs })
  let answer := Archive.populate ex output s ⟨t.invocationArgs, workdir, some output⟩
    { d with state := (d.state, ()) }
  (answer.1, { answer.2 with state := answer.2.state.1 })

/-- Fills the archive that arguments ask for. -/
def populate (k : Kernel) (faults : Build.Faults) (vs : Values) (d : Desk Machine) :
    Except Fault Unit × Desk Machine :=
  match preparePopulation vs d.state with
  | .error f => (.error f, d)
  | .ok (t, s, output) =>
    match Build.makeWorkdir faults.workdir populatorOpening d.state with
    | .error f => (.error f, d)
    | .ok (workdir, _, m) =>
      let answer := fill k faults.mishaps vs t s output workdir { d with state := m }
      let keep := keeps vs && Build.goesOn answer.1
      let d := Build.leave faults.unreached keep workdir answer.2
      match answer.1 with
      | .error f => (.error f, d)
      | .ok n => (.ok (), d.note (.archivePopulated output n.executed n.toleratedFailures))

/-- Runs a program with its work on a machine. -/
def runWith (p : Options.Program)
    (work : Values → Desk Machine → Except Fault Unit × Desk Machine)
    (args : List String) (m : Machine) : Exit :=
  match Options.read p args with
  | .error e =>
    let f := e.fault p
    { status := f.kind.exitStatus, fault := some f, machine := m }
  | .ok .help => { status := 0, output := Options.help p, machine := m }
  | .ok .version => { status := 0, output := Options.versionLine p, machine := m }
  | .ok (.run vs) =>
    match work vs { state := m } with
    | (.ok (), d) => { status := 0, log := d.log, machine := d.state }
    | (.error f, d) =>
      { status := f.kind.exitStatus, fault := some f, color := colorOf vs, log := d.log
        machine := d.state }

/-- Runs the transcriber. -/
def runTranscriber (k : Kernel) (faults : Build.Faults) : List String → Machine → Exit :=
  runWith transcriber (transcribe k faults)

/-- Runs the populator. -/
def runPopulator (k : Kernel) (faults : Build.Faults) : List String → Machine → Exit :=
  runWith populator (populate k faults)

/-- Why a program is stopped whose clock cannot hold a deadline. -/
def overflowReason : String := "overflow when adding duration to instant"

/-- The lines that a program writes beside its output: its journal and its report.  A program
that is stopped reports nothing itself; what is written then, for the reason and with the calls
that were open, is the account of the system that it runs on. -/
def diagnostics (account : (reason : String) → List String) (p : Options.Program)
    (filter : Option String) (isTerminal : Bool) (x : Exit) : List String :=
  Journal.lines p.name filter x.log
    ++ match x.fault with
      | none => []
      | some f =>
        if f.kind = .overflow then account overflowReason
        else [Report.written f x.color isTerminal]

end Program
end Walkthrough
