/-
# What playing a script does

`play_up_to_first_stop` is the whole of `Stage.play` in terms of the fates of the steps
(`Walkthrough.Proofs.Session.Fate`).  The way there is one lemma for each operation on a
live stage, all of one form: the answer, and what the stage gains in records and calls
(`Stage.Grows`).  The gains of consecutive operations add up (`Grows.trans`), so steps
that are all recorded are one induction, and a stop is one more step behind them.  One of
the two is what happens to every script (`play_cases`).
-/

import Walkthrough.Proofs.Session.Fate
import Walkthrough.Session.Rehearsal

namespace Walkthrough

variable {σ : Type}

/-! ## What a stage gains -/

/-- The stage `g'` is `g` with more records and more calls; the executor has answered the
new calls and nothing else. -/
structure Stage.Grows (ex : Executor σ) (g : Stage σ) (rs : List Record) (aborted : Bool)
    (cs : List CommandLine) (g' : Stage σ) : Prop where
  session : g'.session = ⟨g.session.records ++ rs, aborted⟩
  calls : g'.desk.calls = g.desk.calls ++ cs
  state : g'.desk.state = Executor.stateAfter ex cs g.desk.state

namespace Stage

variable {ex : Executor σ} {p : Placeholders} {g g' g'' : Stage σ}

theorem Grows.refl (live : g.session.aborted = false) : Grows ex g [] false [] g where
  session := by rw [List.append_nil, ← live]
  calls := by rw [List.append_nil]
  state := rfl

theorem Grows.trans {rs rs' : List Record} {a a' : Bool} {cs cs' : List CommandLine}
    (h : Grows ex g rs a cs g') (h' : Grows ex g' rs' a' cs' g'') :
    Grows ex g (rs ++ rs') a' (cs ++ cs') g'' where
  session := by rw [h'.session, h.session, List.append_assoc]
  calls := by rw [h'.calls, h.calls, List.append_assoc]
  state := by rw [h'.state, h.state, Executor.stateAfter_append]

theorem Grows.aborted {rs : List Record} {a : Bool} {cs : List CommandLine}
    (h : Grows ex g rs a cs g') : g'.session.aborted = a := by
  rw [h.session]

theorem addDoc_eq_of_live (live : g.session.aborted = false) (text : String) :
    g.addDoc text = (.ok (), ⟨⟨g.session.records ++ [.doc text], false⟩, g.desk⟩) := by
  unfold addDoc Session.addDoc
  rw [live]
  rfl

/-- Documentation is recorded as it is, without the executor. -/
theorem addDoc_of_live (ex : Executor σ) (live : g.session.aborted = false) (text : String) :
    (g.addDoc text).1 = .ok () ∧ Grows ex g [.doc text] false [] (g.addDoc text).2 := by
  rw [addDoc_eq_of_live live]
  exact ⟨rfl, rfl, (List.append_nil _).symm, rfl⟩

/-- A task whose judged answer is an outcome is recorded with it. -/
theorem addTask_of_judged_eq_ok (live : g.session.aborted = false) {t : Task} {o : Outcome}
    (h : judged t.command t.allowFail (ex t.command g.desk.state).1.result = .ok o) :
    (g.addTask ex t).1 = .ok (Session.recordOf t o) ∧
      Grows ex g [.command (Session.recordOf t o)] false [t.command] (g.addTask ex t).2 := by
  have hfst := runChecked_fst ex t.command t.allowFail g.desk
  have hstate := state_runChecked ex t.command t.allowFail g.desk
  have hcalls := calls_runChecked ex t.command t.allowFail g.desk
  unfold addTask
  cases hrun : runChecked ex t.command t.allowFail g.desk with
  | mk answer d =>
    rw [hrun] at hfst hstate hcalls
    obtain rfl : answer = .ok o := hfst.trans h
    rw [if_neg (by rw [live]; exact Bool.false_ne_true)]
    exact ⟨rfl, congrArg (Session.mk _) live, hcalls, hstate⟩

/-- A task whose judged answer is a fault aborts the session and leaves no record. -/
theorem addTask_of_judged_eq_error (live : g.session.aborted = false) {t : Task} {f : Fault}
    (h : judged t.command t.allowFail (ex t.command g.desk.state).1.result = .error f) :
    (g.addTask ex t).1 = .error f ∧ Grows ex g [] true [t.command] (g.addTask ex t).2 := by
  have hfst := runChecked_fst ex t.command t.allowFail g.desk
  have hstate := state_runChecked ex t.command t.allowFail g.desk
  have hcalls := calls_runChecked ex t.command t.allowFail g.desk
  unfold addTask
  cases hrun : runChecked ex t.command t.allowFail g.desk with
  | mk answer d =>
    rw [hrun] at hfst hstate hcalls
    obtain rfl : answer = .error f := hfst.trans h
    rw [if_neg (by rw [live]; exact Bool.false_ne_true)]
    exact ⟨rfl, congrArg (Session.mk · true) (List.append_nil _).symm, hcalls, hstate⟩

/-- A run step whose command is known is played as `addTask` says, its record apart. -/
theorem playStep_of_expand_eq_ok {r : Script.Run} {c : CommandLine}
    (h : p.expand r.spec = .ok c) :
    g.playStep ex p (.run r) =
      ((g.addTask ex ⟨c, r.allowFail, r.noOutput⟩).1.map fun _ => (),
        (g.addTask ex ⟨c, r.allowFail, r.noOutput⟩).2) := by
  simp only [playStep, Script.Run.task, h, Except.map]
  cases g.addTask ex ⟨c, r.allowFail, r.noOutput⟩ with
  | mk answer g' => cases answer <;> rfl

/-- A run step whose placeholders cannot be filled leaves the stage as it is. -/
theorem playStep_of_expand_eq_error {r : Script.Run} {f : Fault}
    (h : p.expand r.spec = .error f) : g.playStep ex p (.run r) = (.error f, g) := by
  simp only [playStep, Script.Run.task, h, Except.map]

/-- A step whose fate is a record is played to the end and leaves that record. -/
theorem playStep_of_fate_eq_ok (live : g.session.aborted = false) {s : Script.Step} {r : Record}
    (h : s.fate ex p g.desk.state = .ok r) :
    (g.playStep ex p s).1 = .ok () ∧
      Grows ex g [r] false (Record.commandLines [r]) (g.playStep ex p s).2 := by
  rcases Script.Step.cases_of_fate_eq_ok h with
    ⟨text, rfl, rfl⟩ | ⟨run, c, o, rfl, hexp, hjudged, rfl⟩
  · exact addDoc_of_live ex live text
  · obtain ⟨hanswer, hgrows⟩ :=
      addTask_of_judged_eq_ok (t := ⟨c, run.allowFail, run.noOutput⟩) live hjudged
    rw [playStep_of_expand_eq_ok hexp, hanswer]
    exact ⟨rfl, hgrows⟩

/-- A step whose fate is a stop ends playing with the fault of the stop.  It leaves no
record, and only a stop that reached the executor aborts the session. -/
theorem playStep_of_fate_eq_error (live : g.session.aborted = false) {s : Script.Step}
    {stop : Stop} (h : s.fate ex p g.desk.state = .error stop) :
    (g.playStep ex p s).1 = .error stop.fault ∧
      Grows ex g [] stop.aborts stop.command?.toList (g.playStep ex p s).2 := by
  obtain ⟨run, rfl, ⟨f, hexp, rfl⟩ | ⟨c, hexp, hjudged, hcommand, haborts⟩⟩ :=
    Script.Step.cases_of_fate_eq_error h
  · rw [playStep_of_expand_eq_error hexp]
    exact ⟨rfl, Grows.refl live⟩
  · obtain ⟨hanswer, hgrows⟩ :=
      addTask_of_judged_eq_error (t := ⟨c, run.allowFail, run.noOutput⟩) live hjudged
    rw [playStep_of_expand_eq_ok hexp, hanswer, hcommand, haborts]
    exact ⟨rfl, hgrows⟩

/-! ## Runs -/

theorem playSteps_cons_of_ok {s : Script.Step} (rest : List Script.Step)
    (h : (g.playStep ex p s).1 = .ok ()) :
    playSteps ex p (s :: rest) g = playSteps ex p rest (g.playStep ex p s).2 := by
  rw [playSteps]
  cases hs : g.playStep ex p s with
  | mk answer g' =>
    obtain rfl : answer = .ok () := by rw [← h, hs]
    rfl

theorem playSteps_cons_of_error {s : Script.Step} {f : Fault} (rest : List Script.Step)
    (h : (g.playStep ex p s).1 = .error f) :
    playSteps ex p (s :: rest) g = (.error f, (g.playStep ex p s).2) := by
  rw [playSteps]
  cases hs : g.playStep ex p s with
  | mk answer g' =>
    obtain rfl : answer = .error f := by rw [← h, hs]
    rfl

/-- Steps are played behind others if those were played to the end. -/
theorem playSteps_append_of_ok {pre : List Script.Step} (post : List Script.Step)
    (h : (playSteps ex p pre g).1 = .ok ()) :
    playSteps ex p (pre ++ post) g = playSteps ex p post (playSteps ex p pre g).2 := by
  induction pre generalizing g with
  | nil => rfl
  | cons s pre ih =>
    cases hs : (g.playStep ex p s).1 with
    | error f =>
      rw [playSteps_cons_of_error pre hs] at h
      cases h
    | ok u =>
      rw [playSteps_cons_of_ok pre hs] at h ⊢
      rw [List.cons_append, playSteps_cons_of_ok (pre ++ post) hs, ih h]

/-- Steps whose fates are records are played to the end and leave those records. -/
theorem playSteps_of_fates_eq {steps : List Script.Step} {rs : List Record}
    (live : g.session.aborted = false)
    (h : Script.fates ex p steps g.desk.state = rs.map .ok) :
    (playSteps ex p steps g).1 = .ok () ∧
      Grows ex g rs false (Record.commandLines rs) (playSteps ex p steps g).2 := by
  induction steps generalizing g rs with
  | nil =>
    obtain rfl : rs = [] := List.map_eq_nil_iff.1 h.symm
    exact ⟨rfl, Grows.refl live⟩
  | cons s rest ih =>
    obtain ⟨r, rs', rfl, hr, hrs⟩ := List.map_eq_cons_iff.1 h.symm
    obtain ⟨hanswer, hgrows⟩ := playStep_of_fate_eq_ok live hr.symm
    -- the rest is played in the state behind the step, which is the one `fates` goes on with
    rw [Script.Step.leaves_of_fate_eq_ok hr.symm, ← hgrows.state] at hrs
    obtain ⟨hrest, hgrows'⟩ := ih hgrows.aborted hrs.symm
    rw [playSteps_cons_of_ok rest hanswer]
    refine ⟨hrest, ?_⟩
    rw [← List.singleton_append, Record.commandLines_append]
    exact hgrows.trans hgrows'

/-- Steps up to one that stops: the records are those of the steps before it, and what
follows it is not played. -/
theorem playSteps_of_cut {pre : List Script.Step} {s : Script.Step} {rs : List Record}
    {stop : Stop} (live : g.session.aborted = false)
    (hrs : Script.fates ex p pre g.desk.state = rs.map .ok)
    (hfate : s.fate ex p (Executor.stateAfter ex (Record.commandLines rs) g.desk.state) =
      .error stop) :
    ∃ g', Grows ex g rs stop.aborts (Record.commandLines rs ++ stop.command?.toList) g' ∧
      ∀ post, playSteps ex p (pre ++ s :: post) g = (.error stop.fault, g') := by
  obtain ⟨hok, hgrows⟩ := playSteps_of_fates_eq live hrs
  rw [← hgrows.state] at hfate
  obtain ⟨hanswer, hgrows'⟩ := playStep_of_fate_eq_error hgrows.aborted hfate
  refine ⟨_, by simpa using hgrows.trans hgrows', fun post => ?_⟩
  rw [playSteps_append_of_ok (s :: post) hok, playSteps_cons_of_error post hanswer]

/-- **A script is played to a stop or to the end.**  Either it is cut at a run step that stops
behind recorded steps, or all its steps are recorded. -/
theorem play_cases (ex : Executor σ) (script : Script) (p : Placeholders)
    (live : g.session.aborted = false) :
    (∃ pre run post rs stop g', script.steps = pre ++ .run run :: post ∧
      Script.fates ex p pre g.desk.state = rs.map .ok ∧
      (Script.Step.run run).fate ex p
        (Executor.stateAfter ex (Record.commandLines rs) g.desk.state) = .error stop ∧
      Grows ex g rs stop.aborts (Record.commandLines rs ++ stop.command?.toList) g' ∧
      g.play ex script p = (.error stop.fault, g')) ∨
    ∃ rs g', Script.fates ex p script.steps g.desk.state = rs.map .ok ∧
      Grows ex g rs false (Record.commandLines rs) g' ∧ g.play ex script p = (.ok (), g') := by
  by_cases hnone : ∀ k stop, ¬ Script.StopsAt ex p script.steps g.desk.state k stop
  · obtain ⟨rs, hrs⟩ := Script.exists_records_of_not_stopsAt hnone
    obtain ⟨hok, hgrows⟩ := playSteps_of_fates_eq live hrs
    exact .inr ⟨rs, _, hrs, hgrows, Prod.ext hok rfl⟩
  · simp only [Classical.not_forall, Classical.not_not] at hnone
    obtain ⟨k, stop, hstop⟩ := hnone
    obtain ⟨pre, run, post, rs, hcut, -, hrs, hfate⟩ := hstop.exists_cut
    obtain ⟨g', hgrows, hplay⟩ := playSteps_of_cut live hrs hfate
    exact .inl ⟨pre, run, post, rs, stop, g', hcut, hrs, hfate, hgrows, by rw [play, hcut, hplay]⟩

/-- **Playing a script, exactly.**  In a live session a script at which no step stops is
played to the end: one record for each step, in order, and every command in the order of
the run steps.  Otherwise let step `k` be the first that stops.  Playing ends with the
fault of the stop; the records are those of the steps before `k`; the executor was given
their commands and, unless its placeholders could not be filled, that of step `k`; the
session is aborted exactly if that command was given; and whatever steps follow in the
script, they have no effect. -/
theorem play_up_to_first_stop (ex : Executor σ) (script : Script) (p : Placeholders)
    (g : Stage σ) (live : g.session.aborted = false) :
    ((∀ k stop, ¬ Script.StopsAt ex p script.steps g.desk.state k stop) →
      ∃ rs tasks, Script.fates ex p script.steps g.desk.state = rs.map .ok ∧
        rs.length = script.steps.length ∧ script.tasks p = .ok tasks ∧
        (g.play ex script p).1 = .ok () ∧
        (g.play ex script p).2.session = ⟨g.session.records ++ rs, false⟩ ∧
        (g.play ex script p).2.desk.calls = g.desk.calls ++ tasks.map Task.command) ∧
    ∀ k stop, Script.StopsAt ex p script.steps g.desk.state k stop →
      ∃ rs tasks run, (Script.fates ex p script.steps g.desk.state).take k = rs.map .ok ∧
        ({ script with steps := script.steps.take k } : Script).tasks p = .ok tasks ∧
        script.steps[k]? = some (.run run) ∧
        stop.command? = (p.expand run.spec).toOption ∧
        (g.play ex script p).1 = .error stop.fault ∧
        (g.play ex script p).2.session = ⟨g.session.records ++ rs, stop.aborts⟩ ∧
        (g.play ex script p).2.desk.calls =
          g.desk.calls ++ tasks.map Task.command ++ stop.command?.toList ∧
        ∀ later, g.play ex { script with steps := script.steps.take (k + 1) ++ later } p =
          g.play ex script p := by
  constructor
  · intro hnone
    obtain ⟨rs, hrs⟩ := Script.exists_records_of_not_stopsAt hnone
    obtain ⟨tasks, htasks, hcommands⟩ := Script.tasksOf_of_fates_eq hrs
    obtain ⟨hok, hgrows⟩ := playSteps_of_fates_eq live hrs
    have hlength : rs.length = script.steps.length := by
      rw [← Script.length_fates ex p script.steps g.desk.state, hrs, List.length_map]
    exact ⟨rs, tasks, hrs, hlength, htasks, hok, hgrows.session, hcommands ▸ hgrows.calls⟩
  · intro k stop hstop
    obtain ⟨pre, run, post, rs, hcut, rfl, hrs, hfate⟩ := hstop.exists_cut
    obtain ⟨tasks, htasks, hcommands⟩ := Script.tasksOf_of_fates_eq hrs
    obtain ⟨rest, hfates⟩ := Script.fates_of_cut hrs hfate post
    obtain ⟨g', hgrows, hplay⟩ := playSteps_of_cut live hrs hfate
    have htake : script.steps.take pre.length = pre := by rw [hcut, List.take_left]
    have htake' : script.steps.take (pre.length + 1) = pre ++ [.run run] := by
      rw [hcut, List.append_cons]
      exact List.take_left' (by rw [List.length_append, List.length_singleton])
    have hlength := Script.length_fates ex p pre g.desk.state
    rw [hrs] at hlength
    have hstep : g.play ex script p = (.error stop.fault, g') := by rw [play, hcut, hplay]
    refine ⟨rs, tasks, run, ?_, ?_, ?_, Script.Step.command?_of_fate_eq_error hfate, ?_⟩
    · rw [hcut, hfates, ← hlength, List.take_left]
    · rw [htake]
      exact htasks
    · rw [hcut]
      simp
    · rw [hstep, htake']
      refine ⟨rfl, hgrows.session, ?_, fun later => ?_⟩
      · rw [hgrows.calls, hcommands, List.append_assoc]
      · rw [play, List.append_assoc]
        exact hplay later

/-- A tolerated failure is recorded behind the documentation, the next failure stops. -/
theorem play_up_to_first_stop_rehearsed :
    let script : Script := ⟨0, [.doc "\x7boutput\x7d", .run ⟨.line "a", true, false⟩,
      .run ⟨.line "b", false, false⟩, .run ⟨.line "c", false, false⟩]⟩
    let g : Stage (List Rehearsal.Cue) :=
      ⟨⟨[.doc "old"], false⟩, { state := [.ends { exitCode := 3 }, .ends { exitCode := 4 }] }⟩
    g.session.aborted = false ∧ ∃ rs : List Record, rs.length = 2 ∧
      (g.play Rehearsal.executor script ⟨["t"], "/w", none⟩).1 =
        .error (stepFault (.shell "b") { exitCode := 4 }) ∧
      (g.play Rehearsal.executor script ⟨["t"], "/w", none⟩).2.session =
        ⟨[.doc "old"] ++ rs, true⟩ := by
  intro script g
  have hstop : Script.StopsAt Rehearsal.executor ⟨["t"], "/w", none⟩ script.steps g.desk.state 2
      (.failed (.shell "b") { exitCode := 4 }) := by
    refine ⟨rfl, fun j hj => ?_⟩
    obtain rfl | rfl : j = 0 ∨ j = 1 := by omega
    · exact ⟨_, rfl⟩
    · exact ⟨_, rfl⟩
  obtain ⟨rs, tasks, run, hrs, -, -, -, herror, hsession, -⟩ :=
    (play_up_to_first_stop Rehearsal.executor script ⟨["t"], "/w", none⟩ g rfl).2 2 _ hstop
  refine ⟨rfl, rs, ?_, herror, hsession⟩
  rw [← List.length_map, ← hrs]
  rfl

end Stage
end Walkthrough
