/-
# Executing under the failure policy

What one execution does to a desk, said once.  The executor is asked in the state of the
desk; the command goes to the end of the calls; the answer is `judged`: a fault stays a
fault, and a non-zero exit that is not tolerated becomes one (`runChecked_fst`,
`state_runChecked`, `calls_runChecked`).  Nothing behind this module looks into
`runChecked` or `Desk.execute` again.

A desk needs no memory of the answers: they are determined by the state it started in and
the commands it was given (`Executor.answers`, `Executor.stateAfter`).
-/

import Walkthrough.Session.Executor

namespace Walkthrough

variable {σ : Type}

theorem Outcome.success_iff (o : Outcome) : o.success = true ↔ o.exitCode = 0 := by
  rw [Outcome.success, beq_iff_eq]

/-! ## One execution -/

namespace Desk

@[simp] theorem state_note (d : Desk σ) (e : Event) : (d.note e).state = d.state := rfl

@[simp] theorem calls_note (d : Desk σ) (e : Event) : (d.note e).calls = d.calls := rfl

/-- The answer is the one that the executor gives in the state of the desk. -/
theorem execute_fst (ex : Executor σ) (c : CommandLine) (d : Desk σ) :
    (d.execute ex c).1 = (ex c d.state).1.result := by
  unfold execute
  dsimp only
  split <;> rfl

theorem state_execute (ex : Executor σ) (c : CommandLine) (d : Desk σ) :
    (d.execute ex c).2.state = (ex c d.state).2 := by
  unfold execute
  dsimp only
  split <;> rfl

theorem calls_execute (ex : Executor σ) (c : CommandLine) (d : Desk σ) :
    (d.execute ex c).2.calls = d.calls ++ [c] := by
  unfold execute
  dsimp only
  split <;> rfl

end Desk

/-- An answer under the failure policy: a non-zero exit is a fault unless it is tolerated. -/
def judged (c : CommandLine) (allowFail : Bool) : Except Fault Outcome → Except Fault Outcome
  | .error f => .error f
  | .ok o => if o.exitCode ≠ 0 ∧ allowFail = false then .error (stepFault c o) else .ok o

/-- **The policy only judges**: what `runChecked` answers is the judged answer of the
executor, whatever was noted at the desk before. -/
theorem runChecked_fst (ex : Executor σ) (c : CommandLine) (allowFail : Bool) (d : Desk σ) :
    (runChecked ex c allowFail d).1 = judged c allowFail (ex c d.state).1.result := by
  have hans := Desk.execute_fst ex c (d.note (.executing c.display))
  rw [Desk.state_note] at hans
  rw [← hans]
  unfold runChecked
  cases h : (d.note (.executing c.display)).execute ex c with
  | mk answer d' =>
    cases answer with
    | error f => rfl
    | ok o =>
      by_cases hz : o.exitCode = 0
      · simp [judged, o.success_iff.2 hz, hz]
      · have hs : o.success = false := by simpa [Outcome.success] using hz
        cases allowFail <;> simp [judged, hs, hz]

/-- What `runChecked` leaves is what the execution leaves, notes apart. -/
theorem runChecked_snd (ex : Executor σ) (c : CommandLine) (allowFail : Bool) (d : Desk σ) :
    (runChecked ex c allowFail d).2.state = (ex c d.state).2 ∧
      (runChecked ex c allowFail d).2.calls = d.calls ++ [c] := by
  have hstate := Desk.state_execute ex c (d.note (.executing c.display))
  have hcalls := Desk.calls_execute ex c (d.note (.executing c.display))
  rw [Desk.state_note] at hstate
  rw [Desk.calls_note] at hcalls
  rw [← hstate, ← hcalls]
  unfold runChecked
  cases h : (d.note (.executing c.display)).execute ex c with
  | mk answer d' =>
    cases answer with
    | error f => exact ⟨rfl, rfl⟩
    | ok o => cases hs : o.success <;> cases allowFail <;> simp [hs]

theorem state_runChecked (ex : Executor σ) (c : CommandLine) (allowFail : Bool) (d : Desk σ) :
    (runChecked ex c allowFail d).2.state = (ex c d.state).2 :=
  (runChecked_snd ex c allowFail d).1

theorem calls_runChecked (ex : Executor σ) (c : CommandLine) (allowFail : Bool) (d : Desk σ) :
    (runChecked ex c allowFail d).2.calls = d.calls ++ [c] :=
  (runChecked_snd ex c allowFail d).2

/-- A judged answer is an outcome only if the executor gave that very outcome, and then it
is a success or tolerated. -/
theorem judged_eq_ok_iff {c : CommandLine} {allowFail : Bool} {a : Except Fault Outcome}
    {o : Outcome} :
    judged c allowFail a = .ok o ↔ a = .ok o ∧ (o.exitCode ≠ 0 → allowFail = true) := by
  cases a with
  | error f => simp [judged]
  | ok o' =>
    by_cases h : o'.exitCode ≠ 0 ∧ allowFail = false
    · simp only [judged, if_pos h, reduceCtorEq, Except.ok.injEq, false_iff]
      rintro ⟨rfl, ht⟩
      exact absurd (ht h.1) (by simp [h.2])
    · simp only [judged, if_neg h, Except.ok.injEq]
      refine ⟨?_, fun hr => hr.1⟩
      rintro rfl
      exact ⟨rfl, fun hz => by simpa using fun ha => h ⟨hz, ha⟩⟩

/-! ## Several executions -/

namespace Executor

/-- The state behind commands that are given one after the other. -/
def stateAfter (ex : Executor σ) : List CommandLine → σ → σ
  | [], st => st
  | c :: rest, st => stateAfter ex rest (ex c st).2

/-- The answers to commands that are given one after the other. -/
def answers (ex : Executor σ) : List CommandLine → σ → List (Except Fault Outcome)
  | [], _ => []
  | c :: rest, st => (ex c st).1.result :: answers ex rest (ex c st).2

theorem stateAfter_append (ex : Executor σ) (cs cs' : List CommandLine) (st : σ) :
    stateAfter ex (cs ++ cs') st = stateAfter ex cs' (stateAfter ex cs st) := by
  induction cs generalizing st with
  | nil => rfl
  | cons c rest ih => exact ih (ex c st).2

theorem answers_append (ex : Executor σ) (cs cs' : List CommandLine) (st : σ) :
    answers ex (cs ++ cs') st = answers ex cs st ++ answers ex cs' (stateAfter ex cs st) := by
  induction cs generalizing st with
  | nil => rfl
  | cons c rest ih => exact congrArg _ (ih (ex c st).2)

theorem length_answers (ex : Executor σ) (cs : List CommandLine) (st : σ) :
    (answers ex cs st).length = cs.length := by
  induction cs generalizing st with
  | nil => rfl
  | cons c rest ih => exact congrArg Nat.succ (ih (ex c st).2)

end Executor
end Walkthrough
