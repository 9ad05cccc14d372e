/-
# Steps that are refused without running anything

A run step can be refused before a process is started: a placeholder of it cannot be
filled, or it has no arguments and the executor says so (`Script.Run.Refused`).  Both are usage
faults, and from an executor that is `Candid` there are no others.

Playing meets such a step only when it comes to it.  By then the steps before it have been
played, and if there is a run step among them a command has been executed: the refusal is
late (`LateRefusal`).  `play_refusesFirst_iff` says that there is no other way for a usage
fault to come behind a command.
-/

import Walkthrough.Proofs.Session.Playback

namespace Walkthrough

variable {σ : Type}

/-- An executor that has a usage fault for an empty argument list at most, and no setup faults.
An empty argument list has no outcome; it may fail for another reason, too. -/
structure Candid (ex : Executor σ) : Prop where
  empty : ∀ st, ∃ f, (ex (.argv []) st).1.result = .error f
  usage : ∀ c st f, (ex c st).1.result = .error f → f.kind = .usage → c = .argv []
  setup : ∀ c st f, (ex c st).1.result = .error f → f.kind ≠ .setup

/-- The commands that stand for a process: an empty argument list starts none. -/
def executed (cs : List CommandLine) : List CommandLine :=
  cs.filter fun c => c ≠ .argv []

/-- The executor has a usage fault for an empty argument list. -/
def RefusesEmpty (ex : Executor σ) (st : σ) : Prop :=
  ∃ f, (ex (.argv []) st).1.result = .error f ∧ f.kind = .usage

/-- A run step that is refused in a state: it cannot be expanded, or it is expanded to an empty
argument list and the executor refuses that. -/
def Script.Run.Refused (ex : Executor σ) (p : Placeholders) (r : Script.Run) (st : σ) : Prop :=
  (∃ f, p.expand r.spec = .error f) ∨ p.expand r.spec = .ok (.argv []) ∧ RefusesEmpty ex st

/-- A run step that is refused behind steps that are all recorded, a run step among them. -/
def LateRefusal (ex : Executor σ) (p : Placeholders) (steps : List Script.Step) (st : σ) :
    Prop :=
  ∃ pre r post, steps = pre ++ .run r :: post ∧ (∃ r', .run r' ∈ pre) ∧
    ∃ rs : List Record, Script.fates ex p pre st = rs.map .ok ∧
      r.Refused ex p (Executor.stateAfter ex (Record.commandLines rs) st)

/-- A usage or setup fault, if that is the answer, comes before any command is executed:
between the old desk and the new one there is none. -/
def RefusesFirst {α : Type} (old : Desk σ) (answer : Except Fault α) (new : Desk σ) : Prop :=
  ∀ f, answer = .error f → f.kind = .usage ∨ f.kind = .setup →
    executed (new.calls.drop old.calls.length) = []

theorem executed_append (cs cs' : List CommandLine) :
    executed (cs ++ cs') = executed cs ++ executed cs' :=
  List.filter_append cs cs'

/-- Only the faults and the calls matter. -/
theorem RefusesFirst.congr {α β : Type} {old old' new new' : Desk σ} {a : Except Fault α}
    {b : Except Fault β} (hold : old.calls = old'.calls) (hnew : new.calls = new'.calls)
    (h : ∀ f, a = .error f ↔ b = .error f) :
    RefusesFirst old a new ↔ RefusesFirst old' b new' := by
  simp only [RefusesFirst, hold, hnew, h]

/-! ## Judged by a candid executor -/

namespace Candid

variable {ex : Executor σ} {p : Placeholders} {st : σ}

/-- An empty argument list has no outcome. -/
theorem judged_empty_ne_ok (hex : Candid ex) (allowFail : Bool) (o : Outcome) :
    judged (.argv []) allowFail (ex (.argv []) st).1.result ≠ .ok o := by
  obtain ⟨f, hf⟩ := hex.empty st
  rw [hf]
  simp [judged]

/-- A fault behind the policy is a setup fault never, and a usage fault exactly for an empty
argument list that is refused. -/
theorem kind_of_judged_eq_error (hex : Candid ex) {c : CommandLine} {allowFail : Bool}
    {f : Fault} (h : judged c allowFail (ex c st).1.result = .error f) :
    f.kind ≠ .setup ∧ (f.kind = .usage ↔ c = .argv [] ∧ RefusesEmpty ex st) := by
  cases hr : (ex c st).1.result with
  | error f' =>
    rw [hr] at h
    obtain rfl : f' = f := Except.error.inj h
    refine ⟨hex.setup c st f' hr, fun hkind => ?_, ?_⟩
    · obtain rfl := hex.usage c st f' hr hkind
      exact ⟨rfl, f', hr, hkind⟩
    · rintro ⟨rfl, f, hf, hkind⟩
      obtain rfl : f' = f := Except.error.inj (hr.symm.trans hf)
      exact hkind
  | ok o =>
    -- an outcome is refused by the policy only, and an empty argument list has none
    have hc : c ≠ .argv [] := by
      rintro rfl
      obtain ⟨f, hf⟩ := hex.empty st
      cases hr.symm.trans hf
    have hkind : f.kind = .stepFailed := by
      rw [hr, judged] at h
      split at h
      · exact Except.error.inj h ▸ rfl
      · cases h
    simp [hkind, hc]

/-- The fault of a stop is a setup fault never, and a usage fault exactly at a step that is
refused. -/
theorem kind_of_fate_eq_error (hex : Candid ex) {r : Script.Run} {stop : Stop}
    (h : (Script.Step.run r).fate ex p st = .error stop) :
    stop.fault.kind ≠ .setup ∧ (stop.fault.kind = .usage ↔ r.Refused ex p st) := by
  obtain ⟨run, heq, hcases⟩ := Script.Step.cases_of_fate_eq_error h
  obtain rfl := Script.Step.run.inj heq
  rcases hcases with ⟨f, hexp, rfl⟩ | ⟨c, hexp, hjudged, -, -⟩
  · have hkind : (Stop.unfilled f).fault.kind = .usage := Placeholders.kind_of_expand_eq_error hexp
    have hrefused : r.Refused ex p st := .inl ⟨f, hexp⟩
    simp [hkind, hrefused]
  · have hrefused : r.Refused ex p st ↔ c = .argv [] ∧ RefusesEmpty ex st := by
      simp [Script.Run.Refused, hexp]
    rw [hrefused]
    exact hex.kind_of_judged_eq_error hjudged

/-- Playing stops at a step that is refused, and nothing of it is executed. -/
theorem fate_of_refused (hex : Candid ex) {r : Script.Run} (h : r.Refused ex p st) :
    ∃ stop, (Script.Step.run r).fate ex p st = .error stop ∧
      executed stop.command?.toList = [] := by
  rcases h with ⟨f, hexp⟩ | ⟨hexp, -⟩
  · exact ⟨_, Script.Step.fate_of_expand_eq_error hexp st, rfl⟩
  · rcases Script.Step.fate_of_expand_eq_ok hexp st with
      ⟨o, hj, -⟩ | ⟨stop, -, hfate, hcommand, -⟩
    · exact absurd hj (hex.judged_empty_ne_ok _ o)
    · exact ⟨stop, hfate, by rw [hcommand]; rfl⟩

/-- A command that was recorded has been executed. -/
theorem executed_commandLines (hex : Candid ex) {steps : List Script.Step} {rs : List Record}
    (h : Script.fates ex p steps st = rs.map .ok) :
    executed (Record.commandLines rs) = Record.commandLines rs := by
  induction steps generalizing st rs with
  | nil =>
    obtain rfl : rs = [] := List.map_eq_nil_iff.1 h.symm
    rfl
  | cons s rest ih =>
    obtain ⟨r, rs', rfl, hr, hrs⟩ := List.map_eq_cons_iff.1 h.symm
    have hhead : executed (Record.commandLines [r]) = Record.commandLines [r] := by
      rcases Script.Step.cases_of_fate_eq_ok hr.symm with
        ⟨text, -, rfl⟩ | ⟨run, c, o, -, -, hjudged, rfl⟩
      · rfl
      · have hc : c ≠ .argv [] := by
          rintro rfl
          exact hex.judged_empty_ne_ok _ o hjudged
        exact List.filter_cons_of_pos (decide_eq_true hc)
    rw [← List.singleton_append, Record.commandLines_append, executed_append, hhead, ih hrs.symm]

end Candid

/-- Steps that are all recorded have a command exactly if there is a run step among them. -/
theorem Script.commandLines_eq_nil_iff {ex : Executor σ} {p : Placeholders} {st : σ}
    {steps : List Script.Step} {rs : List Record} (h : Script.fates ex p steps st = rs.map .ok) :
    Record.commandLines rs = [] ↔ ∀ r, Script.Step.run r ∉ steps := by
  obtain ⟨tasks, htasks, hcommands⟩ := Script.tasksOf_of_fates_eq h
  have hruns : steps.filterMap Script.Step.run? = [] ↔ ∀ r, Script.Step.run r ∉ steps := by
    rw [List.filterMap_eq_nil_iff]
    constructor
    · intro hnone r hr
      cases hnone _ hr
    · intro hnone s hs
      cases s with
      | doc text => rfl
      | run r => exact absurd hs (hnone r)
  rw [← hcommands, ← hruns, List.map_eq_nil_iff]
  cases hcase : steps.filterMap Script.Step.run? with
  | nil =>
    rw [hcase] at htasks
    obtain rfl : tasks = [] := (Except.ok.inj htasks).symm
    exact ⟨fun _ => rfl, fun _ => rfl⟩
  | cons r rest =>
    rw [hcase] at htasks
    obtain ⟨t, ts, -, -, rfl⟩ := Script.tasksOf_cons_eq_ok_iff.1 htasks
    simp

/-! ## Playing -/

namespace Stage

variable {ex : Executor σ} {p : Placeholders} {g : Stage σ} {script : Script}

/-- Playing that ends with a fault has stopped at a run step behind recorded steps, and was
given their commands and the one of the stop. -/
theorem exists_cut_of_play_eq_error (live : g.session.aborted = false) {f : Fault}
    (h : (g.play ex script p).1 = .error f) :
    ∃ pre r post rs stop, script.steps = pre ++ .run r :: post ∧
      Script.fates ex p pre g.desk.state = rs.map .ok ∧
      (Script.Step.run r).fate ex p
        (Executor.stateAfter ex (Record.commandLines rs) g.desk.state) = .error stop ∧
      f = stop.fault ∧
      (g.play ex script p).2.desk.calls =
        g.desk.calls ++ (Record.commandLines rs ++ stop.command?.toList) := by
  rcases play_cases ex script p live with
    ⟨pre, r, post, rs, stop, g', hcut, hrs, hfate, hgrows, hplay⟩ | ⟨rs, g', -, -, hplay⟩
  · rw [hplay] at h ⊢
    exact ⟨pre, r, post, rs, stop, hcut, hrs, hfate, (Except.error.inj h).symm, hgrows.calls⟩
  · rw [hplay] at h
    cases h

/-- Playing has no setup faults. -/
theorem kind_ne_setup_of_play_eq_error (hex : Candid ex) (live : g.session.aborted = false)
    {f : Fault} (h : (g.play ex script p).1 = .error f) : f.kind ≠ .setup := by
  obtain ⟨pre, r, post, rs, stop, -, -, hfate, rfl, -⟩ := exists_cut_of_play_eq_error live h
  exact (hex.kind_of_fate_eq_error hfate).1

/-- **Only a late refusal comes behind a command.**  A usage fault of playing comes before
any command of the script is executed, exactly if the first stop is not at a run step that is
refused behind another run step. -/
theorem play_refusesFirst_iff (hex : Candid ex) (script : Script) (p : Placeholders)
    (live : g.session.aborted = false) :
    RefusesFirst g.desk (g.play ex script p).1 (g.play ex script p).2.desk ↔
      ¬ LateRefusal ex p script.steps g.desk.state := by
  constructor
  · rintro hfirst ⟨pre, r, post, hcut, ⟨r', hr'⟩, rs, hrs, hrefused⟩
    obtain ⟨stop, hfate, -⟩ := hex.fate_of_refused hrefused
    obtain ⟨g', hgrows, hplay⟩ := playSteps_of_cut live hrs hfate
    have hstep : g.play ex script p = (.error stop.fault, g') := by rw [play, hcut, hplay]
    have hkind : stop.fault.kind = .usage := (hex.kind_of_fate_eq_error hfate).2.2 hrefused
    have hnone := hfirst stop.fault (by rw [hstep]) (.inl hkind)
    rw [hstep, hgrows.calls, List.drop_left, executed_append, List.append_eq_nil_iff,
      hex.executed_commandLines hrs, Script.commandLines_eq_nil_iff hrs] at hnone
    exact hnone.1 r' hr'
  · intro hlate f hf hrefusal
    have hkind : f.kind = .usage :=
      hrefusal.resolve_right (kind_ne_setup_of_play_eq_error hex live hf)
    obtain ⟨pre, r, post, rs, stop, hcut, hrs, hfate, rfl, hcalls⟩ :=
      exists_cut_of_play_eq_error live hf
    have hrefused := (hex.kind_of_fate_eq_error hfate).2.1 hkind
    have hpre : ∀ r', Script.Step.run r' ∉ pre :=
      fun r' hr' => hlate ⟨pre, r, post, hcut, ⟨r', hr'⟩, rs, hrs, hrefused⟩
    have hrecorded : Record.commandLines rs = [] := (Script.commandLines_eq_nil_iff hrs).2 hpre
    obtain ⟨stop', hfate', hstop'⟩ := hex.fate_of_refused hrefused
    obtain rfl : stop = stop' := Except.error.inj (hfate.symm.trans hfate')
    rw [hcalls, List.drop_left, hrecorded, List.nil_append]
    exact hstop'

end Stage
end Walkthrough
