/-
# The history of a session

A session is driven by requests: documentation, a task, a whole script.  Whatever the
requests and whatever the executor, three things stay in step: the records, the mark of an
aborted session and the commands that were executed.

| session | commands executed |
| --- | --- |
| live | those of the records |
| aborted | those of the records, and one more |

`Faithful` says this of a stretch of a session, with the answers of the executor to those
very commands.  Stretches add up (`Faithful.append`), every request on a live session is
such a stretch (`Request.perform_of_live`), and on an aborted session it is nothing at all
(`Request.perform_of_aborted`).  `session_history` is the run of any requests.
-/

import Walkthrough.Proofs.Session.Playback

namespace Walkthrough

variable {σ : Type}

/-- What is asked of a session. -/
inductive Request where
  | doc (text : String)
  | task (t : Task)
  | play (script : Script) (p : Placeholders)

/-- The records of fates up to the first stop. -/
def Script.recordsUpToStop : List (Except Stop Record) → List Record
  | .ok r :: rest => r :: recordsUpToStop rest
  | _ => []

namespace Request

/-- Performs a request on a stage; of a task only the fault is told. -/
def perform (ex : Executor σ) (g : Stage σ) : Request → Except Fault Unit × Stage σ
  | .doc text => g.addDoc text
  | .task t => ((g.addTask ex t).1.map fun _ => (), (g.addTask ex t).2)
  | .play script p => g.play ex script p

/-- The records that a request registers on a stage: the documentation that is accepted,
the record that a task is answered with, and those of a script up to the first stop. -/
def registers (ex : Executor σ) (g : Stage σ) : Request → List Record
  | .doc text =>
    match (g.addDoc text).1 with
    | .ok () => [.doc text]
    | .error _ => []
  | .task t =>
    match (g.addTask ex t).1 with
    | .ok r => [.command r]
    | .error _ => []
  | .play script p =>
    if g.session.aborted then []
    else Script.recordsUpToStop (Script.fates ex p script.steps g.desk.state)

/-- The stage behind requests. -/
def run (ex : Executor σ) : List Request → Stage σ → Stage σ
  | [], g => g
  | q :: rest, g => run ex rest (q.perform ex g).2

/-- The records that requests register, in order. -/
def registered (ex : Executor σ) : List Request → Stage σ → List Record
  | [], _ => []
  | q :: rest, g => q.registers ex g ++ registered ex rest (q.perform ex g).2

end Request

/-! ## Stretches of a session -/

/-- An answer as far as a record keeps it. -/
def kept : Except Fault Outcome → Option (UInt8 × String)
  | .ok o => some (o.exitCode, o.output)
  | .error _ => none

/-- A stretch of a session that starts with the executor in the state `st`: the commands
executed are those of the records, and one more if the session is aborted; every record
keeps the answer to its own command; and a non-zero exit is recorded only where it is
tolerated. -/
structure Faithful (ex : Executor σ) (st : σ) (rs : List Record) (aborted : Bool)
    (cs : List CommandLine) : Prop where
  calls : ∃ last, cs = Record.commandLines rs ++ last ∧ last.length = if aborted then 1 else 0
  answers : (Executor.answers ex (Record.commandLines rs) st).map kept =
    (Record.commands rs).map fun r => some (r.exitCode, r.output)
  tolerated : ∀ r ∈ Record.commands rs, r.exitCode ≠ 0 → r.allowFail = true

namespace Faithful

variable {ex : Executor σ} {st : σ} {rs rs' : List Record} {a : Bool} {cs cs' : List CommandLine}

theorem nil : Faithful ex st [] false [] where
  calls := ⟨[], rfl, rfl⟩
  answers := rfl
  tolerated := fun _ h => absurd h List.not_mem_nil

/-- One more command and no record of it is an aborted session. -/
theorem lost (c : CommandLine) : Faithful ex st [] true [c] where
  calls := ⟨[c], rfl, rfl⟩
  answers := rfl
  tolerated := fun _ h => absurd h List.not_mem_nil

theorem doc (text : String) : Faithful ex st [.doc text] false [] where
  calls := ⟨[], rfl, rfl⟩
  answers := rfl
  tolerated := fun _ h => absurd h List.not_mem_nil

theorem command {t : Task} {o : Outcome}
    (h : judged t.command t.allowFail (ex t.command st).1.result = .ok o) :
    Faithful ex st [.command (Session.recordOf t o)] false [t.command] := by
  obtain ⟨hanswer, htolerated⟩ := judged_eq_ok_iff.1 h
  refine ⟨⟨[], rfl, rfl⟩, ?_, fun r hr => ?_⟩
  · show [kept (ex t.command st).1.result] = [some (o.exitCode, o.output)]
    rw [hanswer]
    rfl
  · obtain rfl : r = Session.recordOf t o := List.mem_singleton.1 hr
    exact htolerated

/-- A stretch goes on behind one that left the session live. -/
theorem append (h : Faithful ex st rs false cs)
    (h' : Faithful ex (Executor.stateAfter ex cs st) rs' a cs') :
    Faithful ex st (rs ++ rs') a (cs ++ cs') := by
  obtain ⟨last, rfl, hlast⟩ := h.calls
  obtain rfl : last = [] := List.eq_nil_of_length_eq_zero hlast
  obtain ⟨last', rfl, hlast'⟩ := h'.calls
  have hanswers' := h'.answers
  rw [List.append_nil] at hanswers' ⊢
  refine ⟨⟨last', by rw [Record.commandLines_append, List.append_assoc], hlast'⟩, ?_, ?_⟩
  · rw [Record.commandLines_append, Executor.answers_append, List.map_append, h.answers,
      hanswers', Record.commands_append, List.map_append]
  · intro r hr
    rw [Record.commands_append] at hr
    rcases List.mem_append.1 hr with hr | hr
    · exact h.tolerated r hr
    · exact h'.tolerated r hr

theorem of_fate {p : Placeholders} {s : Script.Step} {r : Record}
    (h : s.fate ex p st = .ok r) : Faithful ex st [r] false (Record.commandLines [r]) := by
  rcases Script.Step.cases_of_fate_eq_ok h with
    ⟨text, rfl, rfl⟩ | ⟨run, c, o, rfl, -, hjudged, rfl⟩
  · exact doc text
  · exact command (t := ⟨c, run.allowFail, run.noOutput⟩) hjudged

theorem of_fates {p : Placeholders} {steps : List Script.Step}
    (h : Script.fates ex p steps st = rs.map .ok) :
    Faithful ex st rs false (Record.commandLines rs) := by
  induction steps generalizing st rs with
  | nil =>
    obtain rfl : rs = [] := List.map_eq_nil_iff.1 h.symm
    exact nil
  | cons s rest ih =>
    obtain ⟨r, rs', rfl, hr, hrs⟩ := List.map_eq_cons_iff.1 h.symm
    rw [Script.Step.leaves_of_fate_eq_ok hr.symm] at hrs
    rw [← List.singleton_append, Record.commandLines_append]
    exact (of_fate hr.symm).append (ih hrs.symm)

theorem of_stop (stop : Stop) : Faithful ex st [] stop.aborts stop.command?.toList := by
  cases stop with
  | unfilled f => exact nil
  | refused c f => exact lost c
  | failed c o => exact lost c

end Faithful

/-! ## Requests -/

theorem Script.recordsUpToStop_map_append (rs : List Record) (rest : List (Except Stop Record)) :
    recordsUpToStop (rs.map .ok ++ rest) = rs ++ recordsUpToStop rest := by
  induction rs with
  | nil => rfl
  | cons r rs ih => exact congrArg _ ih

namespace Stage

variable {ex : Executor σ} {p : Placeholders} {g : Stage σ}

theorem addDoc_of_aborted (h : g.session.aborted = true) (text : String) :
    g.addDoc text = (.error Session.abortedFault, g) := by
  unfold addDoc Session.addDoc
  rw [if_pos h]

theorem addTask_of_aborted (h : g.session.aborted = true) (t : Task) :
    g.addTask ex t = (.error Session.abortedFault, g) := by
  unfold addTask
  rw [if_pos h]

/-- No step can be played into an aborted session, and trying leaves it as it is. -/
theorem playStep_of_aborted (h : g.session.aborted = true) (s : Script.Step) :
    ∃ f, g.playStep ex p s = (.error f, g) := by
  cases s with
  | doc text => exact ⟨_, addDoc_of_aborted h text⟩
  | run run =>
    cases hexp : p.expand run.spec with
    | error f => exact ⟨f, playStep_of_expand_eq_error hexp⟩
    | ok c =>
      refine ⟨Session.abortedFault, ?_⟩
      rw [playStep_of_expand_eq_ok hexp, addTask_of_aborted h]
      rfl

/-- Only a script without steps is played into an aborted session. -/
theorem play_of_aborted (h : g.session.aborted = true) (script : Script) :
    (g.play ex script p).2 = g ∧ ((g.play ex script p).1 = .ok () ↔ script.steps = []) := by
  unfold play
  cases script.steps with
  | nil => exact ⟨rfl, by simp [playSteps]⟩
  | cons s rest =>
    obtain ⟨f, hf⟩ : ∃ f, g.playStep ex p s = (.error f, g) := playStep_of_aborted h s
    rw [playSteps_cons_of_error rest (by rw [hf]), hf]
    exact ⟨rfl, by simp⟩

end Stage

namespace Request

variable {ex : Executor σ} {g : Stage σ}

/-- **A request to an aborted session does nothing**: no command, no record, no note. -/
theorem perform_of_aborted (h : g.session.aborted = true) (q : Request) :
    (q.perform ex g).2 = g ∧ q.registers ex g = [] := by
  cases q with
  | doc text =>
    rw [perform, registers, Stage.addDoc_of_aborted h]
    exact ⟨rfl, rfl⟩
  | task t =>
    rw [perform, registers, Stage.addTask_of_aborted h]
    exact ⟨rfl, rfl⟩
  | play script p =>
    rw [perform, registers, if_pos h]
    exact ⟨(Stage.play_of_aborted h script).1, rfl⟩

/-- **A request to a live session is a stretch of it**, and the records that the session
gains are the ones that the request registers. -/
theorem perform_of_live (ex : Executor σ) (live : g.session.aborted = false) (q : Request) :
    ∃ a cs, Stage.Grows ex g (q.registers ex g) a cs (q.perform ex g).2 ∧
      Faithful ex g.desk.state (q.registers ex g) a cs := by
  cases q with
  | doc text =>
    obtain ⟨hanswer, hgrows⟩ := Stage.addDoc_of_live ex live text
    simp only [perform, registers, hanswer]
    exact ⟨false, [], hgrows, .doc text⟩
  | task t =>
    cases hjudged : judged t.command t.allowFail (ex t.command g.desk.state).1.result with
    | error f =>
      obtain ⟨hanswer, hgrows⟩ := Stage.addTask_of_judged_eq_error live hjudged
      simp only [perform, registers, hanswer]
      exact ⟨true, [t.command], hgrows, .lost t.command⟩
    | ok o =>
      obtain ⟨hanswer, hgrows⟩ := Stage.addTask_of_judged_eq_ok live hjudged
      simp only [perform, registers, hanswer]
      exact ⟨false, [t.command], hgrows, .command hjudged⟩
  | play script p =>
    simp only [perform, registers, live, Bool.false_eq_true, if_false]
    rcases Stage.play_cases ex script p live with
      ⟨pre, run, post, rs, stop, g', hcut, hrs, hfate, hgrows, hplay⟩ |
        ⟨rs, g', hrs, hgrows, hplay⟩
    · obtain ⟨rest, hfates⟩ := Script.fates_of_cut hrs hfate post
      have hregistered :
          Script.recordsUpToStop (Script.fates ex p script.steps g.desk.state) = rs := by
        rw [hcut, hfates, Script.recordsUpToStop_map_append]
        exact List.append_nil rs
      rw [hregistered, hplay]
      refine ⟨stop.aborts, _, hgrows, ?_⟩
      simpa using (Faithful.of_fates hrs).append (.of_stop stop)
    · have hregistered : Script.recordsUpToStop (rs.map .ok) = rs := by
        simpa [Script.recordsUpToStop] using Script.recordsUpToStop_map_append rs []
      rw [hrs, hregistered, hplay]
      exact ⟨false, _, hgrows, .of_fates hrs⟩

end Request

/-! ## Runs -/

/-- What holds at every moment: the session is one faithful stretch since it began with
the executor in the state `st`, and the executor has answered its calls and nothing
else. -/
structure Stage.Sound (ex : Executor σ) (st : σ) (g : Stage σ) : Prop where
  state : g.desk.state = Executor.stateAfter ex g.desk.calls st
  faithful : Faithful ex st g.session.records g.session.aborted g.desk.calls

namespace Request

variable {ex : Executor σ} {st : σ} {g : Stage σ}

/-- A request adds to the records what it registers. -/
theorem records_perform (q : Request) :
    (q.perform ex g).2.session.records = g.session.records ++ q.registers ex g := by
  cases h : g.session.aborted with
  | true => rw [(perform_of_aborted h q).1, (perform_of_aborted h q).2, List.append_nil]
  | false =>
    obtain ⟨a, cs, hgrows, -⟩ := perform_of_live ex h q
    rw [hgrows.session]

theorem sound_perform (h : g.Sound ex st) (q : Request) : (q.perform ex g).2.Sound ex st := by
  cases ha : g.session.aborted with
  | true => rwa [(perform_of_aborted ha q).1]
  | false =>
    obtain ⟨a, cs, hgrows, hfaithful⟩ := perform_of_live ex ha q
    have hbefore := h.faithful
    rw [ha] at hbefore
    rw [h.state] at hfaithful
    refine ⟨?_, ?_⟩
    · rw [hgrows.state, hgrows.calls, Executor.stateAfter_append, h.state]
    · rw [hgrows.session, hgrows.calls]
      exact hbefore.append hfaithful

theorem sound_run (h : g.Sound ex st) (qs : List Request) : (run ex qs g).Sound ex st := by
  induction qs generalizing g with
  | nil => exact h
  | cons q rest ih => exact ih (sound_perform h q)

theorem records_run (qs : List Request) :
    (run ex qs g).session.records = g.session.records ++ registered ex qs g := by
  induction qs generalizing g with
  | nil => exact (List.append_nil _).symm
  | cons q rest ih => rw [run, ih, records_perform, registered, List.append_assoc]

theorem run_of_aborted (h : g.session.aborted = true) (qs : List Request) : run ex qs g = g := by
  induction qs with
  | nil => rfl
  | cons q rest ih => rw [run, (perform_of_aborted h q).1, ih]

end Request

/-- What the answers to the calls say of a record: the call at its position is its own
command, and the answer to it is an outcome with its exit code and its output. -/
theorem Faithful.answer {ex : Executor σ} {st : σ} {rs : List Record} {a : Bool}
    {cs : List CommandLine} (h : Faithful ex st rs a cs) {i : Nat} {r : CommandRecord}
    (hr : (Record.commands rs)[i]? = some r) :
    cs[i]? = some r.command ∧ ∃ o, (Executor.answers ex cs st)[i]? = some (.ok o) ∧
      r.exitCode = o.exitCode ∧ r.output = o.output := by
  obtain ⟨last, rfl, -⟩ := h.calls
  have hline : (Record.commandLines rs)[i]? = some r.command := by
    rw [Record.commandLines, List.getElem?_map, hr, Option.map_some]
  have hi : i < (Record.commandLines rs).length := (List.getElem?_eq_some_iff.1 hline).1
  have hkept : ((Executor.answers ex (Record.commandLines rs) st).map kept)[i]? =
      some (some (r.exitCode, r.output)) := by
    rw [h.answers, List.getElem?_map, hr, Option.map_some]
  rw [List.getElem?_map] at hkept
  obtain ⟨answer, hanswer, hsome⟩ := Option.map_eq_some_iff.1 hkept
  refine ⟨by rw [List.getElem?_append_left hi, hline], ?_⟩
  rw [Executor.answers_append,
    List.getElem?_append_left (by rw [Executor.length_answers]; exact hi), hanswer]
  cases answer with
  | error f => cases hsome
  | ok o =>
    obtain ⟨hcode, houtput⟩ := Prod.mk.inj (Option.some.inj hsome)
    exact ⟨o, rfl, hcode.symm, houtput.symm⟩

/-- **The history of a session.**  Start a session and perform any requests.  The commands
executed are those of the records, in order, and one more exactly if the session is
aborted; the record at a position keeps the exit code and the output of the very execution
at that position; and a non-zero exit is recorded only where it is tolerated.  An aborted
session stays as it is whatever is asked of it: documentation, tasks and the end are
refused as aborted, and no script with a step is played.  A session ends well exactly if
it is not aborted, with what was registered, in order. -/
theorem session_history (ex : Executor σ) (st : σ) (qs : List Request) :
    let g := Request.run ex qs (Stage.start st)
    (∃ last, g.desk.calls = Record.commandLines g.session.records ++ last ∧
        last.length = if g.session.aborted then 1 else 0) ∧
      (∀ (i : Nat) (r : CommandRecord), (Record.commands g.session.records)[i]? = some r →
        g.desk.calls[i]? = some r.command ∧
        (r.exitCode ≠ 0 → r.allowFail = true) ∧
        ∃ o, (Executor.answers ex g.desk.calls st)[i]? = some (.ok o) ∧
          r.exitCode = o.exitCode ∧ r.output = o.output) ∧
      (g.session.aborted = true →
        (∀ qs', Request.run ex qs' g = g) ∧
        (∀ text, g.addDoc text = (.error Session.abortedFault, g)) ∧
        (∀ t, g.addTask ex t = (.error Session.abortedFault, g)) ∧
        (∀ script p, (g.play ex script p).1 = .ok () ↔ script.steps = []) ∧
        Session.abortedFault.kind = .aborted) ∧
      g.session.finish =
        if g.session.aborted then .error Session.abortedFault
        else .ok (Request.registered ex qs (Stage.start st)) := by
  intro g
  have hsound : g.Sound ex st := Request.sound_run ⟨rfl, .nil⟩ qs
  have hrecords : g.session.records = Request.registered ex qs (Stage.start st) :=
    Request.records_run qs
  refine ⟨hsound.faithful.calls, fun i r hr => ?_, fun ha => ?_, ?_⟩
  · obtain ⟨hcall, hanswer⟩ := hsound.faithful.answer hr
    exact ⟨hcall, hsound.faithful.tolerated r (List.mem_of_getElem? hr), hanswer⟩
  · exact ⟨Request.run_of_aborted ha, Stage.addDoc_of_aborted ha, Stage.addTask_of_aborted ha,
      fun script p => (Stage.play_of_aborted ha script).2, rfl⟩
  · rw [Session.finish, hrecords]

end Walkthrough
