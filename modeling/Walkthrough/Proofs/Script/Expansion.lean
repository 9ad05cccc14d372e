/-
# Expanding the commands of a script

A command can fail to expand in one way only: some text of it names the archive and there
is none (`expand_eq_error`).  The first text that cannot be filled gives the fault of a command
(`expand_eq_error_iff`), and of all the run steps of a script (`tasksOf_eq_error_iff`).  The
tasks of run steps are known one step at a time (`tasksOf_cons_eq_ok_iff`): the task of a step
carries its command and its two flags.
-/

import Walkthrough.Script.Placeholders

namespace Walkthrough

/-- The texts of a command that are filled: its line, or its arguments but those that stand for
the invocation of the target. -/
def Script.RunSpec.texts : Script.RunSpec → List String
  | .line text => [text]
  | .argv args => args.filter (· ≠ Placeholders.targetToken)

namespace Placeholders

/-- The fault of a text that cannot be filled. -/
def textFault? (p : Placeholders) (text : String) : Option Fault :=
  match p.expandText text with
  | .error f => some f
  | .ok _ => none

theorem textFault?_eq_some_iff {p : Placeholders} {text : String} {f : Fault} :
    p.textFault? text = some f ↔ p.expandText text = .error f := by
  unfold textFault?
  cases p.expandText text <;> simp

theorem textFault?_eq_none_iff {p : Placeholders} {text : String} :
    p.textFault? text = none ↔ ∃ filled, p.expandText text = .ok filled := by
  unfold textFault?
  cases p.expandText text <;> simp

theorem expandText_eq_error {p : Placeholders} {text : String} {f : Fault}
    (h : p.expandText text = .error f) : p.output = none ∧ f = noOutputFault text := by
  unfold expandText at h
  dsimp only at h
  split at h
  · cases ho : p.output with
    | none =>
      rw [ho] at h
      exact ⟨rfl, (Except.error.inj h).symm⟩
    | some output =>
      rw [ho] at h
      cases h
  · cases h

theorem expandArgs_eq_error_iff {p : Placeholders} {args : List String} {f : Fault} :
    p.expandArgs args = .error f ↔
      (args.filter (· ≠ targetToken)).findSome? p.textFault? = some f := by
  induction args with
  | nil => simp [expandArgs]
  | cons arg rest ih =>
    by_cases htoken : arg = targetToken
    · have harg : p.expandArg arg = .ok p.target := if_pos htoken
      rw [List.filter_cons_of_neg (by simpa using htoken), ← ih]
      cases hrest : p.expandArgs rest <;> simp [expandArgs, harg, hrest, bind, Except.bind]
    · have harg : p.expandArg arg = (p.expandText arg).map ([·]) := if_neg htoken
      rw [List.filter_cons_of_pos (by simpa using htoken), List.findSome?_cons]
      cases htext : p.expandText arg with
      | error f' =>
        rw [textFault?_eq_some_iff.2 htext]
        simp [expandArgs, harg, htext, Except.map, bind, Except.bind]
      | ok filled =>
        rw [textFault?_eq_none_iff.2 ⟨filled, htext⟩, ← ih]
        cases hrest : p.expandArgs rest <;>
          simp [expandArgs, harg, htext, hrest, Except.map, bind, Except.bind]

/-- **The first text that cannot be filled** gives the fault of a command. -/
theorem expand_eq_error_iff {p : Placeholders} {spec : Script.RunSpec} {f : Fault} :
    p.expand spec = .error f ↔ spec.texts.findSome? p.textFault? = some f := by
  cases spec with
  | line text =>
    rw [Script.RunSpec.texts, List.findSome?_singleton, textFault?_eq_some_iff, expand]
    cases p.expandText text <;> simp [Except.map]
  | argv args =>
    rw [Script.RunSpec.texts, ← expandArgs_eq_error_iff, expand]
    cases p.expandArgs args <;> simp [Except.map]

/-- **Only the archive can be missing**: a command fails to expand only without an archive
to name, and the fault names the text that asks for it. -/
theorem expand_eq_error {p : Placeholders} {spec : Script.RunSpec} {f : Fault}
    (h : p.expand spec = .error f) : p.output = none ∧ ∃ text, f = noOutputFault text := by
  obtain ⟨text, -, htext⟩ := List.exists_of_findSome?_eq_some (expand_eq_error_iff.1 h)
  obtain ⟨hnone, rfl⟩ := expandText_eq_error (textFault?_eq_some_iff.1 htext)
  exact ⟨hnone, text, rfl⟩

theorem kind_of_expand_eq_error {p : Placeholders} {spec : Script.RunSpec} {f : Fault}
    (h : p.expand spec = .error f) : f.kind = .usage := by
  obtain ⟨-, text, rfl⟩ := expand_eq_error h
  rfl

end Placeholders

namespace Script

theorem Run.task_eq_ok_iff {p : Placeholders} {r : Run} {t : Task} :
    r.task p = .ok t ↔ ∃ c, p.expand r.spec = .ok c ∧ t = ⟨c, r.allowFail, r.noOutput⟩ := by
  unfold Run.task
  cases p.expand r.spec with
  | error f => simp [Except.map]
  | ok c => simp [Except.map, eq_comm]

theorem tasksOf_cons_eq_ok_iff {p : Placeholders} {r : Run} {rest : List Run}
    {tasks : List Task} :
    tasksOf p (r :: rest) = .ok tasks ↔
      ∃ t ts, r.task p = .ok t ∧ tasksOf p rest = .ok ts ∧ tasks = t :: ts := by
  cases ht : r.task p with
  | error f => simp [tasksOf, ht, bind, Except.bind]
  | ok t =>
    cases hts : tasksOf p rest with
    | error f => simp [tasksOf, ht, hts, bind, Except.bind]
    | ok ts => simp [tasksOf, ht, hts, bind, Except.bind, eq_comm]

/-- **The first text that cannot be filled** gives the fault of all run steps. -/
theorem tasksOf_eq_error_iff {p : Placeholders} {runs : List Run} {f : Fault} :
    tasksOf p runs = .error f ↔
      (runs.flatMap fun r => r.spec.texts).findSome? p.textFault? = some f := by
  induction runs with
  | nil => simp [tasksOf]
  | cons r rest ih =>
    rw [List.flatMap_cons, List.findSome?_append]
    cases hexpand : p.expand r.spec with
    | error f' =>
      rw [Placeholders.expand_eq_error_iff.1 hexpand]
      simp [tasksOf, Run.task, hexpand, Except.map, bind, Except.bind]
    | ok c =>
      have hnone : r.spec.texts.findSome? p.textFault? = none := by
        refine Option.eq_none_iff_forall_ne_some.2 fun f' hf => ?_
        rw [Placeholders.expand_eq_error_iff.2 hf] at hexpand
        cases hexpand
      rw [hnone, Option.none_or, ← ih]
      cases hrest : tasksOf p rest <;>
        simp [tasksOf, Run.task, hexpand, hrest, Except.map, bind, Except.bind]

end Script
end Walkthrough
