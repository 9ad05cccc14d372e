/-
# What a step fault tells

A step fault says that a command exited non-zero where that is not tolerated.  It is meant
to explain itself: it names the command as displayed, its exit code and what it printed, and
its report has a key for each of the three (`Report.members_of_explains`).

| where it arises | command | exit code | output |
| --- | --- | --- | --- |
| the policy (`stepFault`) | yes | yes | yes |
| a version command that prints nothing (`silentVersionFault`) | yes | yes | no |

The policy is the only source of step faults in running a command, adding a task, playing a
script and filling an archive, if the executor has none of its own (`Impartial`).  So all of
them end with a step fault that explains the last execution, and asking for an identity does
exactly if the version command exits non-zero (`stepFaults_explained`).
-/

import Walkthrough.Proofs.Archive.Agreement
import Walkthrough.Proofs.Session.History
import Walkthrough.Proofs.Session.Refusal
import Walkthrough.Report
import Walkthrough.Transcript.Identity

namespace Walkthrough

variable {σ τ : Type}

/-- An executor that leaves it to the policy to judge: its own faults are no step faults. -/
def Impartial (ex : Executor σ) : Prop :=
  ∀ c st f, (ex c st).1.result = .error f → f.kind ≠ .stepFailed

/-- A fault that tells which command was executed, how it exited and what it printed. -/
structure Fault.Explains (f : Fault) (c : CommandLine) (o : Outcome) : Prop where
  command : f.command = some c.display
  exitCode : f.exitCode = some o.exitCode
  output : f.output = some o.output

/-- A step fault, if that is the answer, explains the last of the commands that were given
between the old calls and the new ones to an executor that started in the state `st`. -/
def Explained {α : Type} (ex : Executor σ) (st : σ) (old : List CommandLine)
    (answer : Except Fault α) (new : List CommandLine) : Prop :=
  ∀ f, answer = .error f → f.kind = .stepFailed →
    ∃ before c o, new = old ++ before ++ [c] ∧
      (ex c (ex.stateAfter before st)).1.result = .ok o ∧ f.Explains c o

/-- The report of a fault that explains an execution has a key for each part of it. -/
theorem Report.members_of_explains {f : Fault} {c : CommandLine} {o : Outcome}
    (h : f.Explains c o) :
    ("command", .string c.display) ∈ Report.members f ∧
      ("exit_code", .number (.natural o.exitCode.toNat)) ∈ Report.members f ∧
      ("output", .string o.output) ∈ Report.members f := by
  simp [members, textMember, exitCodeMember, h.command, h.exitCode, h.output]

/-- The report of a fault without output has no key for it. -/
theorem Report.output_not_mem_members {f : Fault} (h : f.output = none) (v : Json.Value) :
    ("output", v) ∉ Report.members f := by
  have hmember : ∀ (key : String) (field : Option String), key ≠ "output" →
      ("output", v) ∉ textMember key field := by
    intro key field hkey
    cases field with
    | none => exact List.not_mem_nil
    | some text => simp [textMember, hkey.symm]
  have hnone : textMember "output" none = [] := rfl
  have hcauses : ("output", v) ∉ causesMember f.causes := by
    unfold causesMember
    split <;> simp
  have hcode : ("output", v) ∉ exitCodeMember f.exitCode := by
    unfold exitCodeMember
    split <;> simp
  simp [members, h, hnone, hcauses, hcode, hmember "command", hmember "hint", hmember "path"]

/-! ## Faults of other kinds -/

/-- What an aborted session says to a step is no step fault. -/
theorem Stage.exists_playStep_of_aborted (ex : Executor σ) (p : Placeholders) {g : Stage σ}
    (h : g.session.aborted = true) (s : Script.Step) :
    ∃ f, g.playStep ex p s = (.error f, g) ∧ f.kind ≠ .stepFailed := by
  cases s with
  | doc text => exact ⟨_, addDoc_of_aborted h text, by decide⟩
  | run run =>
    cases hexp : p.expand run.spec with
    | error f =>
      refine ⟨f, playStep_of_expand_eq_error hexp, ?_⟩
      rw [Placeholders.kind_of_expand_eq_error hexp]
      decide
    | ok c =>
      refine ⟨Session.abortedFault, ?_, by decide⟩
      rw [playStep_of_expand_eq_ok hexp, addTask_of_aborted h]
      rfl

/-- Tasks cannot be made for one reason only: a command that does not expand. -/
theorem Script.kind_of_tasksOf_eq_error {p : Placeholders} {runs : List Script.Run} {f : Fault}
    (h : Script.tasksOf p runs = .error f) : f.kind = .usage := by
  induction runs with
  | nil => cases h
  | cons r rest ih =>
    cases hexp : p.expand r.spec with
    | error f' =>
      obtain rfl : f' = f := by
        simpa [Script.tasksOf, Script.Run.task, hexp, Except.map, bind, Except.bind] using h
      exact Placeholders.kind_of_expand_eq_error hexp
    | ok c =>
      cases hrest : Script.tasksOf p rest with
      | error f' =>
        obtain rfl : f' = f := by
          simpa [Script.tasksOf, Script.Run.task, hexp, hrest, Except.map, bind, Except.bind]
            using h
        exact ih hrest
      | ok ts =>
        simp [Script.tasksOf, Script.Run.task, hexp, hrest, Except.map, bind, Except.bind] at h

theorem Archive.kind_of_removeStale_eq_error {path : String} {d : Desk (Machine × τ)} {f : Fault}
    (h : (Archive.removeStale path d).1 = .error f) : f.kind = .io := by
  unfold Archive.removeStale at h
  dsimp only at h
  split at h
  · cases h
  · split at h
    · exact Except.error.inj h ▸ rfl
    · cases h

/-! ## One execution -/

namespace Impartial

variable {ex : Executor σ} {p : Placeholders}

/-- **The policy explains itself**: a step fault behind it is the one of a failed outcome. -/
theorem explains_of_judged_eq_error (hex : Impartial ex) {c : CommandLine} {st : σ}
    {allowFail : Bool} {f : Fault} (h : judged c allowFail (ex c st).1.result = .error f)
    (hkind : f.kind = .stepFailed) :
    ∃ o, (ex c st).1.result = .ok o ∧ o.exitCode ≠ 0 ∧ f.Explains c o := by
  cases hresult : (ex c st).1.result with
  | error f' =>
    rw [hresult] at h
    obtain rfl : f' = f := Except.error.inj h
    exact absurd hkind (hex c st f' hresult)
  | ok o =>
    rw [hresult, judged] at h
    split at h
    · rename_i hfailed
      obtain rfl : stepFault c o = f := Except.error.inj h
      exact ⟨o, rfl, hfailed.1, rfl, rfl, rfl⟩
    · cases h

theorem explained_runChecked (hex : Impartial ex) (c : CommandLine) (allowFail : Bool)
    (d : Desk σ) :
    Explained ex d.state d.calls (runChecked ex c allowFail d).1
      (runChecked ex c allowFail d).2.calls := by
  intro f hf hkind
  rw [runChecked_fst] at hf
  obtain ⟨o, hresult, -, hexplains⟩ := hex.explains_of_judged_eq_error hf hkind
  exact ⟨[], c, o, by rw [calls_runChecked, List.append_nil], hresult, hexplains⟩

/-- An aborted session has no step fault for a task, and a live one that of its execution. -/
theorem explained_addTask (hex : Impartial ex) (t : Task) (g : Stage σ) :
    Explained ex g.desk.state g.desk.calls (g.addTask ex t).1 (g.addTask ex t).2.desk.calls := by
  intro f hf hkind
  cases live : g.session.aborted with
  | true =>
    rw [Stage.addTask_of_aborted live] at hf
    obtain rfl := Except.error.inj hf
    cases hkind
  | false =>
    cases hjudged : judged t.command t.allowFail (ex t.command g.desk.state).1.result with
    | ok o =>
      rw [(Stage.addTask_of_judged_eq_ok live hjudged).1] at hf
      cases hf
    | error f' =>
      obtain ⟨hanswer, hgrows⟩ := Stage.addTask_of_judged_eq_error live hjudged
      obtain rfl : f' = f := Except.error.inj (hanswer.symm.trans hf)
      obtain ⟨o, hresult, -, hexplains⟩ := hex.explains_of_judged_eq_error hjudged hkind
      exact ⟨[], t.command, o, by rw [hgrows.calls, List.append_nil], hresult, hexplains⟩

/-! ## Runs -/

/-- Playing ends with a step fault only where it stops at a command that was executed. -/
theorem explained_play (hex : Impartial ex) (script : Script) (p : Placeholders) (g : Stage σ) :
    Explained ex g.desk.state g.desk.calls (g.play ex script p).1
      (g.play ex script p).2.desk.calls := by
  intro f hf hkind
  cases live : g.session.aborted with
  | true =>
    obtain ⟨s, rest, hsteps⟩ : ∃ s rest, script.steps = s :: rest := by
      refine List.exists_cons_of_ne_nil fun hnil => ?_
      rw [((Stage.play_of_aborted live script).2).2 hnil] at hf
      cases hf
    obtain ⟨f', hstep, hkind'⟩ := Stage.exists_playStep_of_aborted ex p live s
    rw [Stage.play, hsteps, Stage.playSteps_cons_of_error rest (by rw [hstep])] at hf
    obtain rfl := Except.error.inj hf
    exact absurd hkind hkind'
  | false =>
    obtain ⟨pre, run, post, rs, stop, -, -, hfate, rfl, hcalls⟩ :=
      Stage.exists_cut_of_play_eq_error live hf
    obtain ⟨run', heq, ⟨f', hexp, rfl⟩ | ⟨c, hexp, hjudged, hcommand, -⟩⟩ :=
      Script.Step.cases_of_fate_eq_error hfate
    · -- a placeholder that cannot be filled is a usage fault
      have husage : (Stop.unfilled f').fault.kind = .usage :=
        Placeholders.kind_of_expand_eq_error hexp
      cases husage.symm.trans hkind
    · obtain ⟨o, hresult, -, hexplains⟩ := hex.explains_of_judged_eq_error hjudged hkind
      refine ⟨Record.commandLines rs, c, o, ?_, hresult, hexplains⟩
      rw [hcalls, hcommand, List.append_assoc]
      rfl

/-- The loop over the tasks of an archive ends with the fault of the last execution. -/
theorem explained_runTasks (hex : Impartial ex) (tasks : List Task) (n : Archive.Counts)
    (d : Desk σ) :
    Explained ex d.state d.calls (Archive.runTasks ex tasks n d).1
      (Archive.runTasks ex tasks n d).2.calls := by
  induction tasks generalizing n d with
  | nil =>
    intro f hf
    cases hf
  | cons t rest ih =>
    cases hrun : (runChecked ex t.command t.allowFail d).1 with
    | error f' =>
      have hfirst := hex.explained_runChecked t.command t.allowFail d
      rw [Archive.runTasks_cons_of_error rest n hrun]
      rw [hrun] at hfirst
      intro f hf
      obtain rfl : f' = f := Except.error.inj hf
      exact hfirst f' rfl
    | ok o =>
      intro f hf hkind
      rw [Archive.runTasks_cons_of_ok rest n hrun] at hf ⊢
      obtain ⟨before, c, o', hcalls, hresult, hexplains⟩ := ih _ _ f hf hkind
      rw [calls_runChecked] at hcalls
      rw [state_runChecked] at hresult
      refine ⟨t.command :: before, c, o', ?_, hresult, hexplains⟩
      rw [hcalls]
      simp

end Impartial

/-- An archive is filled by the loop over its tasks, behind the removal of the old one. -/
theorem Impartial.explained_populate {ex : Executor (Machine × τ)} (hex : Impartial ex)
    (path : String) (script : Script) (p : Placeholders) (d : Desk (Machine × τ)) :
    Explained ex (Archive.removeStale path d).2.state d.calls
      (Archive.populate ex path script p d).1 (Archive.populate ex path script p d).2.calls := by
  intro f hf hkind
  unfold Archive.populate at hf ⊢
  cases htasks : script.tasks p with
  | error f' =>
    rw [htasks] at hf
    obtain rfl : f' = f := Except.error.inj hf
    have husage : f'.kind = .usage := Script.kind_of_tasksOf_eq_error htasks
    cases husage.symm.trans hkind
  | ok tasks =>
    obtain ⟨hcalls, -⟩ := Archive.removeStale_frame path d
    cases hremove : Archive.removeStale path d with
    | mk answer d' =>
      rw [hremove] at hcalls
      simp only [htasks, hremove] at hf ⊢
      cases answer with
      | error f' =>
        obtain rfl : f' = f := Except.error.inj hf
        have hio : f'.kind = .io := Archive.kind_of_removeStale_eq_error (by rw [hremove])
        cases hio.symm.trans hkind
      | ok u =>
        rw [← hcalls]
        exact hex.explained_runTasks tasks {} d' f hf hkind

/-- **Asking for an identity** ends with a step fault for a version command that exits
non-zero, which is explained, or that prints nothing, where the output is left out. -/
theorem Impartial.fetchIdentity_eq_error {ex : Executor σ} (hex : Impartial ex)
    {c : CommandLine} {d : Desk σ} {f : Fault}
    (h : (Transcript.fetchIdentity ex c d).1 = .error f) (hkind : f.kind = .stepFailed) :
    ∃ o, (ex c d.state).1.result = .ok o ∧
      (o.exitCode = 0 → Text.trim o.output.toList = []) ∧
      f.command = some c.display ∧ f.exitCode = some o.exitCode ∧
      f.output = if o.exitCode = 0 then none else some o.output := by
  have hanswer := runChecked_fst ex c false d
  unfold Transcript.fetchIdentity at h
  cases hrun : runChecked ex c false d with
  | mk answer d' =>
    rw [hrun] at h hanswer
    cases answer with
    | error f' =>
      obtain rfl : f' = f := Except.error.inj h
      obtain ⟨o, hresult, hcode, hexplains⟩ :=
        hex.explains_of_judged_eq_error hanswer.symm hkind
      refine ⟨o, hresult, fun hz => absurd hz hcode, hexplains.command, hexplains.exitCode, ?_⟩
      rw [if_neg hcode, hexplains.output]
    | ok o =>
      obtain ⟨hresult, htolerated⟩ := judged_eq_ok_iff.1 hanswer.symm
      have hcode : o.exitCode = 0 :=
        Decidable.byContradiction fun hz => Bool.false_ne_true (htolerated hz)
      dsimp only at h
      split at h
      · rename_i hempty
        obtain rfl : Transcript.silentVersionFault c o = f := Except.error.inj h
        refine ⟨o, hresult, fun _ => List.isEmpty_iff.1 hempty, rfl, rfl, ?_⟩
        rw [if_pos hcode]
        rfl
      · cases h

/-- The version command is the only command that is given. -/
theorem calls_fetchIdentity (ex : Executor σ) (c : CommandLine) (d : Desk σ) :
    (Transcript.fetchIdentity ex c d).2.calls = d.calls ++ [c] := by
  have hcalls := calls_runChecked ex c false d
  unfold Transcript.fetchIdentity
  cases hrun : runChecked ex c false d with
  | mk answer d' =>
    rw [hrun] at hcalls
    cases answer with
    | error f => exact hcalls
    | ok o =>
      dsimp only
      split <;> exact hcalls

/-- **Step faults explain the last execution**, except that of a silent version command.  Let
the executors have no step faults of their own.  A step fault that comes from running a
command, adding a task, playing a script or filling an archive names the last command that
was executed as it is displayed, with the exit code and the output of that very execution,
and so does its report.  A step fault that comes from asking for an identity names the
version command and its exit code, and also its output exactly if it exited non-zero;
otherwise the command printed only blanks, and the report has no output. -/
theorem stepFaults_explained {ex : Executor σ} {filler : Executor (Machine × τ)}
    (hex : Impartial ex) (hfiller : Impartial filler) :
    (∀ c allowFail d, Explained ex d.state d.calls (runChecked ex c allowFail d).1
      (runChecked ex c allowFail d).2.calls) ∧
    (∀ t g, Explained ex g.desk.state g.desk.calls (Stage.addTask ex t g).1
      (g.addTask ex t).2.desk.calls) ∧
    (∀ script p g, Explained ex g.desk.state g.desk.calls (Stage.play ex script p g).1
      (g.play ex script p).2.desk.calls) ∧
    (∀ path script p d, Explained filler (Archive.removeStale path d).2.state d.calls
      (Archive.populate filler path script p d).1
      (Archive.populate filler path script p d).2.calls) ∧
    (∀ c d f, (Transcript.fetchIdentity ex c d).1 = .error f → f.kind = .stepFailed →
      (Transcript.fetchIdentity ex c d).2.calls = d.calls ++ [c] ∧
      ∃ o, (ex c d.state).1.result = .ok o ∧
        (o.exitCode ≠ 0 ∧ f.Explains c o ∨
          o.exitCode = 0 ∧ Text.trim o.output.toList = [] ∧ f.command = some c.display ∧
            f.exitCode = some 0 ∧ ∀ v, ("output", v) ∉ Report.members f)) ∧
    ∀ f c o, Fault.Explains f c o →
      ("command", .string c.display) ∈ Report.members f ∧
      ("exit_code", .number (.natural o.exitCode.toNat)) ∈ Report.members f ∧
      ("output", .string o.output) ∈ Report.members f := by
  refine ⟨hex.explained_runChecked, hex.explained_addTask, hex.explained_play,
    hfiller.explained_populate, fun c d f hf hkind => ?_,
    fun f c o => Report.members_of_explains⟩
  obtain ⟨o, hresult, hblank, hcommand, hcode, houtput⟩ := hex.fetchIdentity_eq_error hf hkind
  refine ⟨calls_fetchIdentity ex c d, o, hresult, ?_⟩
  by_cases hz : o.exitCode = 0
  · rw [if_pos hz] at houtput
    rw [hz] at hcode
    exact .inr ⟨hz, hblank hz, hcommand, hcode, Report.output_not_mem_members houtput⟩
  · rw [if_neg hz] at houtput
    exact .inl ⟨hz, hcommand, hcode, houtput⟩

/-! ## A silent version command -/

/-- An executor that answers every command alike. -/
def Executor.constantly (o : Outcome) : Executor σ :=
  fun _ st => ({ result := .ok o }, st)

theorem impartial_constantly (o : Outcome) : Impartial (Executor.constantly (σ := σ) o) := by
  intro c st f h
  cases h

/-- Where every command fails, playing ends with the fault of the first run step. -/
theorem stepFaults_explained_constantly :
    let ex : Executor Unit := .constantly { exitCode := 2, output := "boom" }
    let script : Script := ⟨0, [.doc "text", .run ⟨.line "a", true, false⟩,
      .run ⟨.argv ["b", "c d"], false, true⟩]⟩
    let played := (Stage.start ()).play ex script ⟨["t"], "/w", none⟩
    Impartial ex ∧ Impartial (Archive.offMachine ex) ∧
      played.1 = .error (stepFault (.argv ["b", "c d"]) { exitCode := 2, output := "boom" }) ∧
      Explained ex () [] played.1 played.2.desk.calls := by
  intro ex script played
  have hex : Impartial ex := impartial_constantly _
  have hfiller : Impartial (Archive.offMachine ex) := fun c st f h => by cases h
  have hfault : played.1 =
      .error (stepFault (.argv ["b", "c d"]) { exitCode := 2, output := "boom" }) := by
    decide +kernel
  exact ⟨hex, hfiller, hfault,
    (stepFaults_explained hex hfiller).2.2.1 script ⟨["t"], "/w", none⟩ (Stage.start ())⟩

/-- **A silent version command is not explained**: its fault has no output. -/
theorem not_explained_silentVersion :
    let ex : Executor Unit := .constantly {}
    let asked := Transcript.fetchIdentity ex (.shell "tool --version") { state := () }
    Impartial ex ∧ ¬ Explained ex () [] asked.1 asked.2.calls := by
  intro ex asked
  refine ⟨impartial_constantly _, fun h => ?_⟩
  have hasked : asked.1 = .error (Transcript.silentVersionFault (.shell "tool --version") {}) := by
    decide +kernel
  obtain ⟨before, c, o, -, -, hexplains⟩ := h _ hasked rfl
  cases hexplains.output

end Walkthrough
