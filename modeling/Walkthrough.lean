import Walkthrough.Archive
import Walkthrough.Build
import Walkthrough.CommandLine
import Walkthrough.Destination
import Walkthrough.Fault
import Walkthrough.Journal
import Walkthrough.Json.Failure
import Walkthrough.Json.Reader
import Walkthrough.Json.Value
import Walkthrough.Machine.Deadline
import Walkthrough.Machine.Errno
import Walkthrough.Machine.FileSystem
import Walkthrough.Machine.Kernel
import Walkthrough.Machine.Runner
import Walkthrough.Machine.Temporary
import Walkthrough.Main
import Walkthrough.Number.Binary64
import Walkthrough.Number.Shortest
import Walkthrough.Options.Basic
import Walkthrough.Options.Help
import Walkthrough.Options.Reader
import Walkthrough.Path
import Walkthrough.Program
import Walkthrough.Proofs.Archive.Agreement
import Walkthrough.Proofs.Archive.Stale
import Walkthrough.Proofs.Archive.Start
import Walkthrough.Proofs.Build.AllOrNothing
import Walkthrough.Proofs.Build.Refusal
import Walkthrough.Proofs.Build.Reproducible
import Walkthrough.Proofs.CommandLine
import Walkthrough.Proofs.Destination.Atomic
import Walkthrough.Proofs.Destination.Usable
import Walkthrough.Proofs.Destination.Write
import Walkthrough.Proofs.Json.Grammar
import Walkthrough.Proofs.Json.Naturals
import Walkthrough.Proofs.Json.Strings
import Walkthrough.Proofs.Json.Tokens
import Walkthrough.Proofs.Json.Values
import Walkthrough.Proofs.Json.Writing
import Walkthrough.Proofs.Machine.Capture
import Walkthrough.Proofs.Machine.Deadline
import Walkthrough.Proofs.Machine.Entry
import Walkthrough.Proofs.Machine.FileSystem
import Walkthrough.Proofs.Machine.Temporary
import Walkthrough.Proofs.Machine.Walk
import Walkthrough.Proofs.Path
import Walkthrough.Proofs.Report.Diagnosis
import Walkthrough.Proofs.Report.OneLine
import Walkthrough.Proofs.Script.Acceptance
import Walkthrough.Proofs.Script.Expansion
import Walkthrough.Proofs.Script.Invocation
import Walkthrough.Proofs.Script.OnePass
import Walkthrough.Proofs.Script.Opening
import Walkthrough.Proofs.Script.Reading
import Walkthrough.Proofs.Script.Shape
import Walkthrough.Proofs.Session.Execution
import Walkthrough.Proofs.Session.Fate
import Walkthrough.Proofs.Session.History
import Walkthrough.Proofs.Session.Lockstep
import Walkthrough.Proofs.Session.Playback
import Walkthrough.Proofs.Session.Refusal
import Walkthrough.Proofs.Text.Cuts
import Walkthrough.Proofs.Text.Line
import Walkthrough.Proofs.Text.Lossy
import Walkthrough.Proofs.Text.Outline
import Walkthrough.Proofs.Text.Replace
import Walkthrough.Proofs.Text.Substitution
import Walkthrough.Proofs.Text.Utf8
import Walkthrough.Proofs.Transcript.BareNames
import Walkthrough.Proofs.Transcript.Frame
import Walkthrough.Proofs.Transcript.Reading
import Walkthrough.Proofs.Transcript.Rules
import Walkthrough.Proofs.Transcript.Sanitizing
import Walkthrough.Proofs.Transcript.Sketch
import Walkthrough.Proofs.Transcript.Suppression
import Walkthrough.Report
import Walkthrough.Script.Basic
import Walkthrough.Script.Builtin
import Walkthrough.Script.Load
import Walkthrough.Script.Placeholders
import Walkthrough.Script.Reader
import Walkthrough.Session.Basic
import Walkthrough.Session.Executor
import Walkthrough.Session.Rehearsal
import Walkthrough.Shell.Arithmetic
import Walkthrough.Shell.Condition
import Walkthrough.Shell.Evaluation
import Walkthrough.Shell.Expansion
import Walkthrough.Shell.Fields
import Walkthrough.Shell.Format
import Walkthrough.Shell.Grammar
import Walkthrough.Shell.Image
import Walkthrough.Shell.Installation
import Walkthrough.Shell.Md5
import Walkthrough.Shell.Pattern
import Walkthrough.Shell.Reader
import Walkthrough.Shell.Utility
import Walkthrough.Shell.Worker
import Walkthrough.Target
import Walkthrough.Text.Blank
import Walkthrough.Text.Line
import Walkthrough.Text.Octets
import Walkthrough.Text.Printable
import Walkthrough.Text.Quoted
import Walkthrough.Text.Replace
import Walkthrough.Text.Utf8
import Walkthrough.Transcript.Identity
import Walkthrough.Transcript.Render
import Walkthrough.Transcript.Substitution
import Walkthrough.Proofs.Options.Reader
import Walkthrough.Proofs.Program
