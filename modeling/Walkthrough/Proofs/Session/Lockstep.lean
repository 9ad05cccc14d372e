/-
# Two plays of one script

A script is played twice, by two executors and with two sets of placeholders.  If every step
keeps the two plays together as long as it hears related answers (`Keeps`), then the plays
stay together: step by step both leave a record, and the records are related, up to a step
at which both stop (`InStep`, `inStep_fates`).

What a play hears is a list of answers, one for each command up to the one that stops it
(`Script.heard`).  They are the answers to the calls at the desk (`answers_calls_play`).
-/

import Mathlib.Data.List.Forall2
import Walkthrough.Proofs.Session.Playback

namespace Walkthrough

variable {σ τ : Type}

namespace Script

/-! ## What a play hears -/

/-- The answer that a step asks for. -/
def Step.hears (ex : Executor σ) (p : Placeholders) (st : σ) : Step → List (Except Fault Outcome)
  | .doc _ => []
  | .run r =>
    match p.expand r.spec with
    | .error _ => []
    | .ok c => [(ex c st).1.result]

/-- The answers that steps ask for, up to the step that stops. -/
def heard (ex : Executor σ) (p : Placeholders) : List Step → σ → List (Except Fault Outcome)
  | [], _ => []
  | s :: rest, st =>
    s.hears ex p st ++
      match s.fate ex p st with
      | .error _ => []
      | .ok _ => heard ex p rest (s.leaves ex p st)

variable {ex : Executor σ} {p : Placeholders}

/-- A recorded step hears the answer to its command, if it has one. -/
theorem Step.hears_of_fate_eq_ok {s : Step} {st : σ} {r : Record} (h : s.fate ex p st = .ok r) :
    s.hears ex p st = Executor.answers ex (Record.commandLines [r]) st := by
  rcases Step.cases_of_fate_eq_ok h with ⟨text, rfl, rfl⟩ | ⟨run, c, o, rfl, hexp, -, rfl⟩
  · rfl
  · simp only [Step.hears, hexp]
    rfl

/-- A step that stops hears the answer to its command, if it was given. -/
theorem Step.hears_of_fate_eq_error {s : Step} {st : σ} {stop : Stop}
    (h : s.fate ex p st = .error stop) :
    s.hears ex p st = Executor.answers ex stop.command?.toList st := by
  obtain ⟨run, rfl, ⟨f, hexp, rfl⟩ | ⟨c, hexp, -, hcommand, -⟩⟩ := Step.cases_of_fate_eq_error h
  · simp only [Step.hears, hexp]
    rfl
  · simp only [Step.hears, hexp, hcommand]
    rfl

end Script

/-- The new calls of a play are answered by what it hears. -/
theorem Stage.exists_calls_playSteps (ex : Executor σ) (p : Placeholders) {g : Stage σ}
    (live : g.session.aborted = false) (steps : List Script.Step) :
    ∃ cs, (g.playSteps ex p steps).2.desk.calls = g.desk.calls ++ cs ∧
      Executor.answers ex cs g.desk.state = Script.heard ex p steps g.desk.state := by
  induction steps generalizing g with
  | nil => exact ⟨[], (List.append_nil _).symm, rfl⟩
  | cons s rest ih =>
    cases hs : s.fate ex p g.desk.state with
    | error stop =>
      obtain ⟨hanswer, hgrows⟩ := playStep_of_fate_eq_error live hs
      refine ⟨stop.command?.toList, ?_, ?_⟩
      · rw [playSteps_cons_of_error rest hanswer]
        exact hgrows.calls
      · rw [Script.heard, hs, Script.Step.hears_of_fate_eq_error hs, List.append_nil]
    | ok r =>
      obtain ⟨hanswer, hgrows⟩ := playStep_of_fate_eq_ok live hs
      obtain ⟨cs, hcalls, hheard⟩ := ih hgrows.aborted
      refine ⟨Record.commandLines [r] ++ cs, ?_, ?_⟩
      · rw [playSteps_cons_of_ok rest hanswer, hcalls, hgrows.calls, List.append_assoc]
      · rw [hgrows.state, ← Script.Step.leaves_of_fate_eq_ok hs] at hheard
        rw [Executor.answers_append, ← Script.Step.leaves_of_fate_eq_ok hs, hheard, Script.heard,
          hs, Script.Step.hears_of_fate_eq_ok hs]

/-- **What a play hears** are the answers to the calls that it leaves at the desk. -/
theorem Stage.answers_calls_play (ex : Executor σ) (script : Script) (p : Placeholders) (st : σ) :
    Executor.answers ex ((Stage.start st).play ex script p).2.desk.calls st =
      Script.heard ex p script.steps st := by
  have hlive : (Stage.start st).session.aborted = false := rfl
  obtain ⟨cs, hcalls, hheard⟩ := exists_calls_playSteps ex p hlive script.steps
  rw [play, hcalls]
  exact hheard

namespace Script

variable {ex : Executor σ} {p : Placeholders}

/-- A run step whose answer passes the policy is recorded with it. -/
theorem Step.fate_of_judged_eq_ok {r : Run} {c : CommandLine} {st : σ} {o : Outcome}
    (hexp : p.expand r.spec = .ok c) (h : judged c r.allowFail (ex c st).1.result = .ok o) :
    (Step.run r).fate ex p st =
      .ok (.command (Session.recordOf ⟨c, r.allowFail, r.noOutput⟩ o)) := by
  rcases Step.fate_of_expand_eq_ok hexp st with ⟨o', ho', hfate⟩ | ⟨stop, hstop, -, -, -⟩
  · obtain rfl := Except.ok.inj (ho'.symm.trans h)
    exact hfate
  · cases hstop.symm.trans h

/-- A run step whose answer does not pass the policy stops. -/
theorem Step.fate_of_judged_eq_error {r : Run} {c : CommandLine} {st : σ} {f : Fault}
    (hexp : p.expand r.spec = .ok c) (h : judged c r.allowFail (ex c st).1.result = .error f) :
    ∃ stop, (Step.run r).fate ex p st = .error stop := by
  rcases Step.fate_of_expand_eq_ok hexp st with ⟨o', ho', -⟩ | ⟨stop, -, hfate, -, -⟩
  · cases ho'.symm.trans h
  · exact ⟨stop, hfate⟩

/-! ## Plays in step -/

/-- Two plays go through steps together: both leave related records up to a step at which
both stop. -/
inductive InStep (R : Step → Record → Record → Prop) :
    List Step → List (Except Stop Record) → List (Except Stop Record) → Prop where
  | nil : InStep R [] [] []
  | stop {s : Step} {steps : List Step} {x y : Stop} {l l' : List (Except Stop Record)} :
      InStep R (s :: steps) (.error x :: l) (.error y :: l')
  | record {s : Step} {steps : List Step} {r r' : Record} {l l' : List (Except Stop Record)} :
      R s r r' → InStep R steps l l' → InStep R (s :: steps) (.ok r :: l) (.ok r' :: l')

/-- Two plays in step leave one record each for every step, and these are related, or both
stop. -/
theorem InStep.cases {R : Step → Record → Record → Prop} {steps : List Step}
    {l l' : List (Except Stop Record)} (h : InStep R steps l l') :
    (∃ rs rs', l = rs.map .ok ∧ l' = rs'.map .ok ∧ rs.length = steps.length ∧
        List.Forall₂ (fun x r' => R x.1 x.2 r') (steps.zip rs) rs') ∨
      (∃ x, .error x ∈ l) ∧ ∃ y, .error y ∈ l' := by
  induction h with
  | nil => exact .inl ⟨[], [], rfl, rfl, rfl, .nil⟩
  | stop => exact .inr ⟨⟨_, List.mem_cons_self⟩, _, List.mem_cons_self⟩
  | @record s steps r r' l l' hr _ ih =>
    rcases ih with ⟨rs, rs', rfl, rfl, hlength, hrs⟩ | ⟨⟨x, hx⟩, y, hy⟩
    · exact .inl ⟨r :: rs, r' :: rs', rfl, rfl, congrArg Nat.succ hlength, .cons hr hrs⟩
    · exact .inr ⟨⟨x, List.mem_cons_of_mem _ hx⟩, y, List.mem_cons_of_mem _ hy⟩

variable {ex' : Executor τ} {p' : Placeholders}
  {A : Run → Except Fault Outcome → Except Fault Outcome → Prop}
  {R : Step → Record → Record → Prop}

/-- What holds of every record beside its step. -/
theorem forall₂_zip {P : Step × Record → Record → Prop} {steps : List Step} {rs : List Record}
    (hlength : rs.length = steps.length) (h : ∀ x ∈ steps.zip rs, P x x.2) :
    List.Forall₂ P (steps.zip rs) rs := by
  have hzip : List.Forall₂ P (steps.zip rs) ((steps.zip rs).map Prod.snd) :=
    List.forall₂_map_right_iff.2 (List.forall₂_same.2 h)
  rwa [List.map_snd_zip (Nat.le_of_eq hlength)] at hzip

/-- A step keeps two plays together if, hearing answers that are related by `A`, both stop at
it or both leave records that are related by `R`. -/
def Step.Keeps (ex : Executor σ) (ex' : Executor τ) (p p' : Placeholders)
    (A : Run → Except Fault Outcome → Except Fault Outcome → Prop)
    (R : Step → Record → Record → Prop) (s : Step) : Prop :=
  ∀ st st',
    (∀ run a a', s = .run run → a ∈ s.hears ex p st → a' ∈ s.hears ex' p' st' → A run a a') →
    (∃ x y, s.fate ex p st = .error x ∧ s.fate ex' p' st' = .error y) ∨
      ∃ r r', s.fate ex p st = .ok r ∧ s.fate ex' p' st' = .ok r' ∧ R s r r'

/-- A step hears one answer at most. -/
theorem Step.hears_of_mem {s : Step} {st : σ} {a : Except Fault Outcome}
    (h : a ∈ s.hears ex p st) : s.hears ex p st = [a] := by
  cases s with
  | doc text => exact absurd h List.not_mem_nil
  | run r =>
    cases hexp : p.expand r.spec with
    | error f => simp [Step.hears, hexp] at h
    | ok c =>
      simp only [Step.hears, hexp, List.mem_singleton] at h ⊢
      rw [h]

/-- A recorded run step hears one answer, documentation none. -/
theorem Step.length_hears_of_fate_eq_ok {s : Step} {st : σ} {r : Record}
    (h : s.fate ex p st = .ok r) : (s.hears ex p st).length = s.run?.toList.length := by
  rcases Step.cases_of_fate_eq_ok h with ⟨text, rfl, rfl⟩ | ⟨run, c, o, rfl, hexp, -, rfl⟩
  · rfl
  · simp only [Step.hears, hexp]
    rfl

/-- Where the answers to all run steps are related, those to the first step are. -/
theorem hearing_head {s : Step} {rest : List Step} {st : σ} {st' : τ}
    (h : ∀ (i : Nat) run a a', ((s :: rest).filterMap Step.run?)[i]? = some run →
      (heard ex p (s :: rest) st)[i]? = some a →
      (heard ex' p' (s :: rest) st')[i]? = some a' → A run a a') :
    ∀ run a a', s = .run run → a ∈ s.hears ex p st → a' ∈ s.hears ex' p' st' → A run a a' := by
  rintro run a a' rfl ha ha'
  refine h 0 run a a' rfl ?_ ?_
  · rw [heard, Step.hears_of_mem ha]
    rfl
  · rw [heard, Step.hears_of_mem ha']
    rfl

/-- Where the answers to all run steps are related, those behind a recorded step are: it has
taken the same number of positions in both plays. -/
theorem hearing_tail {s : Step} {rest : List Step} {st : σ} {st' : τ} {r r' : Record}
    (hr : s.fate ex p st = .ok r) (hr' : s.fate ex' p' st' = .ok r')
    (h : ∀ (i : Nat) run a a', ((s :: rest).filterMap Step.run?)[i]? = some run →
      (heard ex p (s :: rest) st)[i]? = some a →
      (heard ex' p' (s :: rest) st')[i]? = some a' → A run a a') :
    ∀ (i : Nat) run a a', (rest.filterMap Step.run?)[i]? = some run →
      (heard ex p rest (s.leaves ex p st))[i]? = some a →
      (heard ex' p' rest (s.leaves ex' p' st'))[i]? = some a' → A run a a' := by
  intro i run a a' hrun ha ha'
  have hlength := Step.length_hears_of_fate_eq_ok hr
  have hlength' := Step.length_hears_of_fate_eq_ok hr'
  have hruns : (s :: rest).filterMap Step.run? = s.run?.toList ++ rest.filterMap Step.run? := by
    cases s <;> rfl
  refine h (s.run?.toList.length + i) run a a' ?_ ?_ ?_
  · rw [hruns, List.getElem?_append_right (by omega)]
    simpa using hrun
  · rw [heard, hr, List.getElem?_append_right (by omega)]
    simpa [hlength] using ha
  · rw [heard, hr', List.getElem?_append_right (by omega)]
    simpa [hlength'] using ha'

/-- **Two plays that hear related answers stay together**, if every step keeps them so.  The
`i`-th answers are those to the `i`-th run step. -/
theorem inStep_fates {steps : List Step} {st : σ} {st' : τ}
    (hkeeps : ∀ s ∈ steps, s.Keeps ex ex' p p' A R)
    (h : ∀ (i : Nat) run a a', (steps.filterMap Step.run?)[i]? = some run →
      (heard ex p steps st)[i]? = some a → (heard ex' p' steps st')[i]? = some a' → A run a a') :
    InStep R steps (fates ex p steps st) (fates ex' p' steps st') := by
  induction steps generalizing st st' with
  | nil => exact .nil
  | cons s rest ih =>
    rcases hkeeps s List.mem_cons_self st st' (hearing_head h) with
      ⟨x, y, hx, hy⟩ | ⟨r, r', hr, hr', hR⟩
    · rw [fates, fates, hx, hy]
      exact .stop
    · rw [fates, fates, hr, hr']
      exact .record hR
        (ih (fun s' hs' => hkeeps s' (List.mem_cons_of_mem s hs')) (hearing_tail hr hr' h))

end Script

/-- A script with a step that stops is not played to the end. -/
theorem Stage.play_eq_error_of_mem {ex : Executor σ} {script : Script} {p : Placeholders} {st : σ}
    {x : Stop} (h : .error x ∈ Script.fates ex p script.steps st) :
    ∃ f, ((Stage.start st).play ex script p).1 = .error f := by
  rcases play_cases ex script p (g := Stage.start st) rfl with
    ⟨pre, run, post, rs, stop, g', -, -, -, -, hplay⟩ | ⟨rs, g', hrs, -, -⟩
  · exact ⟨stop.fault, by rw [hplay]⟩
  · change Script.fates ex p script.steps st = rs.map .ok at hrs
    rw [hrs, List.mem_map] at h
    obtain ⟨r, -, hr⟩ := h
    cases hr

end Walkthrough
