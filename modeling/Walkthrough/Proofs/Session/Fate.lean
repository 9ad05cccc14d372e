/-
# The fates of steps

With the executor in some state every step of a script has a fate: the record it leaves,
or the reason for which playing stops at it.  A step stops playing in one of three ways,
and they differ in what they leave behind:

| stop | fault | command given to the executor | session |
| --- | --- | --- | --- |
| a placeholder cannot be filled | that of the expansion | none | live |
| the executor has no outcome | that of the executor | the one of the step | aborted |
| a non-zero exit that is not tolerated | `stepFault` | the one of the step | aborted |

`Script.fates` lists the fates of the steps, each in the state that the steps before it
leave, and `Script.StopsAt` says that a step is the first that stops.
-/

import Walkthrough.Proofs.Script.Expansion
import Walkthrough.Proofs.Session.Execution
import Walkthrough.Session.Basic

namespace Walkthrough

variable {σ : Type}

/-- The command of a record, if it is one of a command. -/
def Record.command? : Record → Option CommandRecord
  | .doc _ => none
  | .command r => some r

/-- The records of commands, in order. -/
def Record.commands (rs : List Record) : List CommandRecord :=
  rs.filterMap Record.command?

/-- The commands that were recorded, in order. -/
def Record.commandLines (rs : List Record) : List CommandLine :=
  (Record.commands rs).map CommandRecord.command

@[simp] theorem Record.commands_doc (text : String) : Record.commands [.doc text] = [] := rfl

@[simp] theorem Record.commands_command (r : CommandRecord) :
    Record.commands [.command r] = [r] := rfl

@[simp] theorem Record.commands_append (rs rs' : List Record) :
    Record.commands (rs ++ rs') = Record.commands rs ++ Record.commands rs' :=
  List.filterMap_append

@[simp] theorem Record.commandLines_append (rs rs' : List Record) :
    Record.commandLines (rs ++ rs') = Record.commandLines rs ++ Record.commandLines rs' := by
  rw [commandLines, commands_append, List.map_append]
  rfl

/-- Why playing stops at a run step. -/
inductive Stop where
  /-- A placeholder cannot be filled. -/
  | unfilled (f : Fault)
  /-- The executor has no outcome for the command. -/
  | refused (c : CommandLine) (f : Fault)
  /-- The command exits non-zero, and that is not tolerated. -/
  | failed (c : CommandLine) (o : Outcome)
deriving DecidableEq, Repr

namespace Stop

/-- The fault that playing ends with. -/
def fault : Stop → Fault
  | .unfilled f => f
  | .refused _ f => f
  | .failed c o => stepFault c o

/-- The command that was given to the executor. -/
def command? : Stop → Option CommandLine
  | .unfilled _ => none
  | .refused c _ => some c
  | .failed c _ => some c

/-- Whether the session is aborted. -/
def aborts : Stop → Bool
  | .unfilled _ => false
  | .refused .. => true
  | .failed .. => true

end Stop

/-! ## The fates of steps -/

namespace Script

/-- What becomes of a step with the executor in a state: its record, or a stop. -/
def Step.fate (ex : Executor σ) (p : Placeholders) (st : σ) : Step → Except Stop Record
  | .doc text => .ok (.doc text)
  | .run r =>
    match p.expand r.spec with
    | .error f => .error (.unfilled f)
    | .ok c =>
      match (ex c st).1.result with
      | .error f => .error (.refused c f)
      | .ok o =>
        if o.exitCode ≠ 0 ∧ r.allowFail = false then .error (.failed c o)
        else .ok (.command ⟨c, r.allowFail, r.noOutput, o.exitCode, o.output⟩)

/-- The state of the executor behind a step. -/
def Step.leaves (ex : Executor σ) (p : Placeholders) (st : σ) : Step → σ
  | .doc _ => st
  | .run r =>
    match p.expand r.spec with
    | .error _ => st
    | .ok c => (ex c st).2

/-- The fates of steps, each in the state that the steps before it leave. -/
def fates (ex : Executor σ) (p : Placeholders) : List Step → σ → List (Except Stop Record)
  | [], _ => []
  | s :: rest, st => s.fate ex p st :: fates ex p rest (s.leaves ex p st)

/-- Step `k` stops playing, and no step before it does. -/
def StopsAt (ex : Executor σ) (p : Placeholders) (steps : List Step) (st : σ) (k : Nat)
    (stop : Stop) : Prop :=
  (fates ex p steps st)[k]? = some (.error stop) ∧
    ∀ j < k, ∃ r, (fates ex p steps st)[j]? = some (.ok r)

variable {ex : Executor σ} {p : Placeholders}

theorem length_fates (ex : Executor σ) (p : Placeholders) (steps : List Step) (st : σ) :
    (fates ex p steps st).length = steps.length := by
  induction steps generalizing st with
  | nil => rfl
  | cons s rest ih => exact congrArg Nat.succ (ih _)

theorem stopsAt_nil {st : σ} {k : Nat} {stop : Stop} : ¬ StopsAt ex p [] st k stop := by
  simp [StopsAt, fates]

theorem stopsAt_cons_zero {s : Step} {rest : List Step} {st : σ} {stop : Stop} :
    StopsAt ex p (s :: rest) st 0 stop ↔ s.fate ex p st = .error stop := by
  simp [StopsAt, fates]

theorem stopsAt_cons_succ {s : Step} {rest : List Step} {st : σ} {k : Nat} {stop : Stop} :
    StopsAt ex p (s :: rest) st (k + 1) stop ↔
      (∃ r, s.fate ex p st = .ok r) ∧ StopsAt ex p rest (s.leaves ex p st) k stop := by
  constructor
  · rintro ⟨hk, hbefore⟩
    refine ⟨?_, hk, fun j hj => hbefore (j + 1) (Nat.succ_lt_succ hj)⟩
    simpa [fates] using hbefore 0 (Nat.succ_pos k)
  · rintro ⟨⟨r, hr⟩, hk, hbefore⟩
    refine ⟨hk, fun j hj => ?_⟩
    cases j with
    | zero => exact ⟨r, by rw [fates, List.getElem?_cons_zero, hr]⟩
    | succ j => exact hbefore j (Nat.lt_of_succ_lt_succ hj)

/-- A run step whose placeholders cannot be filled stops playing before the executor. -/
theorem Step.fate_of_expand_eq_error {r : Run} {f : Fault} (h : p.expand r.spec = .error f)
    (st : σ) : (Step.run r).fate ex p st = .error (.unfilled f) := by
  rw [Step.fate, h]

/-- A run step whose command is known is judged by the answer to it: it is recorded with
the outcome, or it stops playing with the fault and aborts the session. -/
theorem Step.fate_of_expand_eq_ok {r : Run} {c : CommandLine} (h : p.expand r.spec = .ok c)
    (st : σ) :
    (∃ o, judged c r.allowFail (ex c st).1.result = .ok o ∧
        (Step.run r).fate ex p st =
          .ok (.command (Session.recordOf ⟨c, r.allowFail, r.noOutput⟩ o))) ∨
      ∃ stop, judged c r.allowFail (ex c st).1.result = .error stop.fault ∧
        (Step.run r).fate ex p st = .error stop ∧ stop.command? = some c ∧ stop.aborts = true := by
  simp only [Step.fate, h]
  cases hr : (ex c st).1.result with
  | error f => exact .inr ⟨.refused c f, rfl, rfl, rfl, rfl⟩
  | ok o =>
    by_cases hfailed : o.exitCode ≠ 0 ∧ r.allowFail = false
    · exact .inr ⟨.failed c o, if_pos hfailed, if_pos hfailed, rfl, rfl⟩
    · exact .inl ⟨o, if_neg hfailed, if_neg hfailed⟩

/-- **What a recorded step is**: documentation as it was given, or a run step whose command
is known and whose answer passes the policy. -/
theorem Step.cases_of_fate_eq_ok {s : Step} {st : σ} {r : Record} (h : s.fate ex p st = .ok r) :
    (∃ text, s = .doc text ∧ r = .doc text) ∨
      ∃ run c o, s = .run run ∧ p.expand run.spec = .ok c ∧
        judged c run.allowFail (ex c st).1.result = .ok o ∧
        r = .command (Session.recordOf ⟨c, run.allowFail, run.noOutput⟩ o) := by
  cases s with
  | doc text => exact .inl ⟨text, rfl, (Except.ok.inj h).symm⟩
  | run run =>
    cases hexp : p.expand run.spec with
    | error f => cases (Step.fate_of_expand_eq_error hexp st).symm.trans h
    | ok c =>
      rcases Step.fate_of_expand_eq_ok hexp st with ⟨o, hjudged, hfate⟩ | ⟨stop, -, hfate, -, -⟩
      · have hrecord := Except.ok.inj (hfate.symm.trans h)
        exact .inr ⟨run, c, o, rfl, hexp, hjudged, hrecord.symm⟩
      · cases hfate.symm.trans h

/-- **What a stop is**: a run step whose placeholders cannot be filled, or one whose command
is known and whose answer does not pass the policy. -/
theorem Step.cases_of_fate_eq_error {s : Step} {st : σ} {stop : Stop}
    (h : s.fate ex p st = .error stop) :
    ∃ run, s = .run run ∧
      ((∃ f, p.expand run.spec = .error f ∧ stop = .unfilled f) ∨
        ∃ c, p.expand run.spec = .ok c ∧
          judged c run.allowFail (ex c st).1.result = .error stop.fault ∧
          stop.command? = some c ∧ stop.aborts = true) := by
  cases s with
  | doc text => cases h
  | run run =>
    refine ⟨run, rfl, ?_⟩
    cases hexp : p.expand run.spec with
    | error f =>
      have hstop := Except.error.inj ((Step.fate_of_expand_eq_error hexp st).symm.trans h)
      exact .inl ⟨f, rfl, hstop.symm⟩
    | ok c =>
      rcases Step.fate_of_expand_eq_ok hexp st with
        ⟨o, -, hfate⟩ | ⟨stop', hjudged, hfate, hcommand, haborts⟩
      · cases hfate.symm.trans h
      · obtain rfl := Except.error.inj (hfate.symm.trans h)
        exact .inr ⟨c, rfl, hjudged, hcommand, haborts⟩

/-- What a recorded step leaves is what its command leaves, if it has one. -/
theorem Step.leaves_of_fate_eq_ok {s : Step} {st : σ} {r : Record} (h : s.fate ex p st = .ok r) :
    s.leaves ex p st = Executor.stateAfter ex (Record.commandLines [r]) st := by
  rcases Step.cases_of_fate_eq_ok h with ⟨text, rfl, rfl⟩ | ⟨run, c, o, rfl, hexp, -, rfl⟩
  · rfl
  · simp only [Step.leaves, hexp]
    rfl

/-- A stop at a step has given the executor the command of the step, if that is known. -/
theorem Step.command?_of_fate_eq_error {r : Run} {st : σ} {stop : Stop}
    (h : (Step.run r).fate ex p st = .error stop) :
    stop.command? = (p.expand r.spec).toOption := by
  obtain ⟨run, heq, hcases⟩ := Step.cases_of_fate_eq_error h
  obtain rfl := Step.run.inj heq
  rcases hcases with ⟨f, hexp, rfl⟩ | ⟨c, hexp, -, hcommand, -⟩
  · rw [hexp]
    rfl
  · rw [hexp]
    exact hcommand

/-! ## Scripts by their fates -/

/-- Steps that are all recorded leave what their commands leave. -/
theorem fates_append {pre post : List Step} {st : σ} {rs : List Record}
    (h : fates ex p pre st = rs.map .ok) :
    fates ex p (pre ++ post) st = rs.map .ok ++
      fates ex p post (Executor.stateAfter ex (Record.commandLines rs) st) := by
  induction pre generalizing st rs with
  | nil =>
    obtain rfl : rs = [] := List.map_eq_nil_iff.1 h.symm
    rfl
  | cons s pre ih =>
    obtain ⟨r, rs', rfl, hr, hrs⟩ := List.map_eq_cons_iff.1 h.symm
    have hleaves := Step.leaves_of_fate_eq_ok hr.symm
    rw [List.cons_append, fates, ih hrs.symm, ← hr, hleaves, ← Executor.stateAfter_append,
      ← Record.commandLines_append]
    rfl

/-- A script at which no step stops is recorded step by step. -/
theorem exists_records_of_not_stopsAt {steps : List Step} {st : σ}
    (h : ∀ k stop, ¬ StopsAt ex p steps st k stop) :
    ∃ rs : List Record, fates ex p steps st = rs.map .ok := by
  induction steps generalizing st with
  | nil => exact ⟨[], rfl⟩
  | cons s rest ih =>
    cases hs : s.fate ex p st with
    | error stop => exact absurd (stopsAt_cons_zero.2 hs) (h 0 stop)
    | ok r =>
      obtain ⟨rs, hrs⟩ := ih fun k stop hk => h (k + 1) stop (stopsAt_cons_succ.2 ⟨⟨r, hs⟩, hk⟩)
      exact ⟨r :: rs, by rw [fates, hs, hrs, List.map_cons]⟩

/-- **A stop cuts a script**: the steps before it are all recorded, and its step stops in
the state that they leave. -/
theorem StopsAt.exists_cut {steps : List Step} {st : σ} {k : Nat} {stop : Stop}
    (h : StopsAt ex p steps st k stop) :
    ∃ pre r post rs, steps = pre ++ .run r :: post ∧ pre.length = k ∧
      fates ex p pre st = rs.map .ok ∧
      (Step.run r).fate ex p (Executor.stateAfter ex (Record.commandLines rs) st) =
        .error stop := by
  induction steps generalizing st k with
  | nil => exact absurd h stopsAt_nil
  | cons s rest ih =>
    cases k with
    | zero =>
      have hfate := stopsAt_cons_zero.1 h
      obtain ⟨r, rfl, -⟩ := Step.cases_of_fate_eq_error hfate
      exact ⟨[], r, rest, [], rfl, rfl, rfl, hfate⟩
    | succ k =>
      obtain ⟨⟨r', hr'⟩, hrest⟩ := stopsAt_cons_succ.1 h
      obtain ⟨pre, r, post, rs, rfl, hk, hrs, hfate⟩ := ih hrest
      rw [Step.leaves_of_fate_eq_ok hr', ← Executor.stateAfter_append,
        ← Record.commandLines_append] at hfate
      refine ⟨s :: pre, r, post, r' :: rs, rfl, congrArg Nat.succ hk, ?_, hfate⟩
      rw [fates, hr', hrs, List.map_cons]

/-- Where a script is cut its fates are cut too. -/
theorem fates_of_cut {pre : List Step} {s : Step} {st : σ} {rs : List Record} {stop : Stop}
    (hrs : fates ex p pre st = rs.map .ok)
    (hfate : s.fate ex p (Executor.stateAfter ex (Record.commandLines rs) st) = .error stop)
    (post : List Step) :
    ∃ rest, fates ex p (pre ++ s :: post) st = rs.map .ok ++ .error stop :: rest :=
  ⟨_, by rw [fates_append hrs, fates, hfate]⟩

/-- The commands of steps that are all recorded are the expansions of their run steps. -/
theorem tasksOf_of_fates_eq {steps : List Step} {st : σ} {rs : List Record}
    (h : fates ex p steps st = rs.map .ok) :
    ∃ tasks, tasksOf p (steps.filterMap Step.run?) = .ok tasks ∧
      tasks.map Task.command = Record.commandLines rs := by
  induction steps generalizing st rs with
  | nil =>
    obtain rfl : rs = [] := List.map_eq_nil_iff.1 h.symm
    exact ⟨[], rfl, rfl⟩
  | cons s rest ih =>
    obtain ⟨r, rs', rfl, hr, hrs⟩ := List.map_eq_cons_iff.1 h.symm
    obtain ⟨tasks, htasks, hcommands⟩ := ih hrs.symm
    rcases Step.cases_of_fate_eq_ok hr.symm with ⟨text, rfl, rfl⟩ | ⟨run, c, o, rfl, hexp, -, rfl⟩
    · exact ⟨tasks, htasks, hcommands⟩
    · have htask : run.task p = .ok ⟨c, run.allowFail, run.noOutput⟩ :=
        Run.task_eq_ok_iff.2 ⟨c, hexp, rfl⟩
      refine ⟨⟨c, run.allowFail, run.noOutput⟩ :: tasks, ?_, congrArg _ hcommands⟩
      exact tasksOf_cons_eq_ok_iff.2 ⟨_, tasks, htask, htasks, rfl⟩

end Script
end Walkthrough
