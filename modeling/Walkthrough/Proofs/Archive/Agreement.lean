/-
# Filling an archive and playing a script agree

`Archive.populate` expands all commands, removes the old archive and executes; `Stage.play`
expands, executes and records one step after the other.  Where the expansion and the
removal succeed nothing else separates them (`populate_agrees_with_play`): they give the
executor the same commands, end with the same fault if they end with one, and the counts of
the first are those of the records of the second.

The two loops are related step by step (`Matched`): a documentation step is a step of the
second alone, a run step is one of both, and both judge the same answer.
-/

import Walkthrough.Archive
import Walkthrough.Proofs.Session.Playback
import Walkthrough.Session.Rehearsal

namespace Walkthrough
namespace Archive

variable {σ τ : Type}

/-- An executor that answers from its own state whatever the machine is like, and does to
the machine what it likes. -/
def acting (ex : Executor τ) (effect : CommandLine → Machine × τ → Machine) :
    Executor (Machine × τ) := fun c s =>
  let answer := ex c s.2
  (answer.1, (effect c s, answer.2))

/-- The counts of records of commands. -/
def Counts.ofRecords (rs : List Record) : Counts :=
  ⟨(Record.commands rs).length, ((Record.commands rs).filter fun r => r.exitCode != 0).length⟩

/-- A record of a task counts as its outcome does. -/
theorem Counts.ofRecords_append_command (rs : List Record) (t : Task) (o : Outcome) :
    Counts.ofRecords (rs ++ [.command (Session.recordOf t o)]) = (Counts.ofRecords rs).add o := by
  cases hs : o.success with
  | true => simp [ofRecords, add, hs, Session.recordOf, o.success_iff.1 hs]
  | false =>
    have hz : o.exitCode ≠ 0 := fun hz => by simp [o.success_iff.2 hz] at hs
    simp [ofRecords, add, hs, Session.recordOf, hz]

/-- Documentation does not count. -/
theorem Counts.ofRecords_append_doc (rs : List Record) (text : String) :
    Counts.ofRecords (rs ++ [.doc text]) = Counts.ofRecords rs := by
  simp [ofRecords]

/-! ## Steps of the loop over tasks -/

theorem runTasks_cons_of_ok {ex : Executor σ} {t : Task} {o : Outcome} {d : Desk σ}
    (rest : List Task) (n : Counts)
    (h : (runChecked ex t.command t.allowFail d).1 = .ok o) :
    runTasks ex (t :: rest) n d =
      runTasks ex rest (n.add o) (runChecked ex t.command t.allowFail d).2 := by
  rw [runTasks]
  cases hrun : runChecked ex t.command t.allowFail d with
  | mk answer d' =>
    obtain rfl : answer = .ok o := by rw [← h, hrun]
    rfl

theorem runTasks_cons_of_error {ex : Executor σ} {t : Task} {f : Fault} {d : Desk σ}
    (rest : List Task) (n : Counts)
    (h : (runChecked ex t.command t.allowFail d).1 = .error f) :
    runTasks ex (t :: rest) n d = (.error f, (runChecked ex t.command t.allowFail d).2) := by
  rw [runTasks]
  cases hrun : runChecked ex t.command t.allowFail d with
  | mk answer d' =>
    obtain rfl : answer = .error f := by rw [← h, hrun]
    rfl

/-- Removing the old archive gives the executor nothing and leaves its state alone. -/
theorem removeStale_frame (path : String) (d : Desk (Machine × τ)) :
    (removeStale path d).2.calls = d.calls ∧ (removeStale path d).2.state.2 = d.state.2 := by
  unfold removeStale
  dsimp only
  split
  · exact ⟨rfl, rfl⟩
  · split <;> exact ⟨rfl, rfl⟩

/-! ## The two loops in step -/

/-- The loop over tasks, with its counts at its desk, and a live stage are at the same
point: the executor is in one state, the stage has the calls behind the first `past`, and
the counts are those of its records. -/
structure Matched (past : List CommandLine) (n : Counts) (d : Desk (Machine × τ))
    (g : Stage τ) : Prop where
  live : g.session.aborted = false
  state : d.state.2 = g.desk.state
  calls : d.calls = past ++ g.desk.calls
  counts : n = Counts.ofRecords g.session.records

variable {ex : Executor τ} {effect : CommandLine → Machine × τ → Machine} {p : Placeholders}
  {past : List CommandLine} {n : Counts} {d : Desk (Machine × τ)} {g : Stage τ}

theorem Matched.addDoc (h : Matched past n d g) (text : String) :
    Matched past n d (g.addDoc text).2 := by
  rw [Stage.addDoc_eq_of_live h.live]
  refine ⟨rfl, h.state, h.calls, ?_⟩
  rw [Counts.ofRecords_append_doc, h.counts]

/-- At the same point both loops get the same judged answer to a task. -/
theorem Matched.runChecked_fst (h : Matched past n d g) (t : Task) :
    (runChecked (acting ex effect) t.command t.allowFail d).1 =
      judged t.command t.allowFail (ex t.command g.desk.state).1.result := by
  rw [Walkthrough.runChecked_fst, acting, h.state]

theorem Matched.addTask (h : Matched past n d g) {t : Task} {o : Outcome}
    (ho : judged t.command t.allowFail (ex t.command g.desk.state).1.result = .ok o) :
    Matched past (n.add o) (runChecked (acting ex effect) t.command t.allowFail d).2
      (g.addTask ex t).2 := by
  obtain ⟨-, hgrows⟩ := Stage.addTask_of_judged_eq_ok h.live ho
  refine ⟨hgrows.aborted, ?_, ?_, ?_⟩
  · rw [state_runChecked, hgrows.state, acting, h.state]
    rfl
  · rw [calls_runChecked, hgrows.calls, h.calls, List.append_assoc]
  · rw [hgrows.session, h.counts, Counts.ofRecords_append_command]

/-- **The loops stay in step**: from the same point they end with the same fault or at the
same point, and with the same calls. -/
theorem Matched.runTasks_playSteps {steps : List Script.Step} {tasks : List Task}
    (h : Matched past n d g)
    (htasks : Script.tasksOf p (steps.filterMap Script.Step.run?) = .ok tasks) :
    (runTasks (acting ex effect) tasks n d).2.calls =
        past ++ (Stage.playSteps ex p steps g).2.desk.calls ∧
      (runTasks (acting ex effect) tasks n d).1 = (Stage.playSteps ex p steps g).1.map
        fun _ => Counts.ofRecords (Stage.playSteps ex p steps g).2.session.records := by
  induction steps generalizing tasks n d g with
  | nil =>
    obtain rfl : tasks = [] := (Except.ok.inj htasks).symm
    exact ⟨h.calls, congrArg Except.ok h.counts⟩
  | cons s rest ih =>
    cases s with
    | doc text =>
      have hstep : (g.playStep ex p (.doc text)).1 = .ok () :=
        (Stage.addDoc_of_live ex h.live text).1
      rw [Stage.playSteps_cons_of_ok rest hstep]
      exact ih (h.addDoc text) htasks
    | run run =>
      obtain ⟨t, ts, ht, hts, rfl⟩ := Script.tasksOf_cons_eq_ok_iff.1 htasks
      obtain ⟨c, hexp, rfl⟩ := Script.Run.task_eq_ok_iff.1 ht
      have hplay : g.playStep ex p (.run run) = _ := Stage.playStep_of_expand_eq_ok hexp
      have hrun : (runChecked (acting ex effect) c run.allowFail d).1 = _ :=
        h.runChecked_fst ⟨c, run.allowFail, run.noOutput⟩
      cases hjudged : judged c run.allowFail (ex c g.desk.state).1.result with
      | error f =>
        obtain ⟨hanswer, hgrows⟩ := Stage.addTask_of_judged_eq_error
          (t := ⟨c, run.allowFail, run.noOutput⟩) h.live hjudged
        have hstep : (g.playStep ex p (.run run)).1 = .error f := by rw [hplay, hanswer]; rfl
        rw [Stage.playSteps_cons_of_error rest hstep,
          runTasks_cons_of_error ts n (hrun.trans hjudged), hplay]
        refine ⟨?_, rfl⟩
        rw [calls_runChecked, hgrows.calls, h.calls, List.append_assoc]
      | ok o =>
        obtain ⟨hanswer, -⟩ := Stage.addTask_of_judged_eq_ok
          (t := ⟨c, run.allowFail, run.noOutput⟩) h.live hjudged
        have hstep : (g.playStep ex p (.run run)).1 = .ok () := by rw [hplay, hanswer]; rfl
        rw [Stage.playSteps_cons_of_ok rest hstep,
          runTasks_cons_of_ok ts n (hrun.trans hjudged), hplay]
        exact ih (h.addTask hjudged) hts

/-- **Filling an archive fails as playing does.**  Let all commands of the script expand,
and let the old archive be removed.  For an executor that answers as the commands so far
make it answer, filling the archive and playing the script into a new session give it the
same commands in the same order; one ends well exactly if the other does; a fault of the
one is the fault of the other; and at a good end the commands executed are counted as the
records of commands, the tolerated failures as those of them with a non-zero exit code. -/
theorem populate_agrees_with_play (ex : Executor τ)
    (effect : CommandLine → Machine × τ → Machine) (path : String) (script : Script)
    (p : Placeholders) (d : Desk (Machine × τ)) {tasks : List Task}
    (htasks : script.tasks p = .ok tasks) (hstale : (removeStale path d).1 = .ok ()) :
    let filled := populate (acting ex effect) path script p d
    let played := (Stage.start d.state.2).play ex script p
    filled.2.calls = d.calls ++ played.2.desk.calls ∧
      filled.1 = played.1.map fun _ =>
        ⟨(Record.commands played.2.session.records).length,
          ((Record.commands played.2.session.records).filter fun r => r.exitCode != 0).length⟩ := by
  intro filled played
  have hfilled : filled = runTasks (acting ex effect) tasks {} (removeStale path d).2 := by
    simp only [filled, populate, htasks]
    cases hremove : removeStale path d with
    | mk answer d' =>
      obtain rfl : answer = .ok () := by rw [← hstale, hremove]
      rfl
  obtain ⟨hcalls, hstate⟩ := removeStale_frame path d
  have hmatched : Matched d.calls {} (removeStale path d).2 (Stage.start d.state.2) :=
    ⟨rfl, hstate, by rw [hcalls]; exact (List.append_nil _).symm, rfl⟩
  rw [hfilled]
  exact hmatched.runTasks_playSteps htasks

/-- An old archive that is removed, a tolerated failure and a command that is refused. -/
theorem populate_agrees_with_play_rehearsed :
    ∃ (script : Script) (p : Placeholders) (d : Desk (Machine × List Rehearsal.Cue))
      (tasks : List Task),
      script.tasks p = .ok tasks ∧ tasks.length = 2 ∧ (removeStale "/a" d).1 = .ok () ∧
      (populate (acting Rehearsal.executor fun _ s => s.1) "/a" script p d).2.calls =
        d.calls ++ ((Stage.start d.state.2).play Rehearsal.executor script p).2.desk.calls := by
  have htasks : Script.tasks
      ⟨0, [.run ⟨.line "a", true, false⟩, .doc "text", .run ⟨.line "b", false, false⟩]⟩
      ⟨["t"], "/", some "/a"⟩ =
        .ok [⟨.shell "a", true, false⟩, ⟨.shell "b", false, false⟩] := rfl
  have hstale : (removeStale "/a"
      ⟨((⟨⟨[(["a"], .file [] 0o644)]⟩, [], "", "/", 0, fun _ => "a1B2c3", 0⟩ : Machine),
        [Rehearsal.Cue.ends { exitCode := 3 }, .fails .io none]), [], []⟩).1 = .ok () := rfl
  obtain ⟨hcalls, -⟩ := populate_agrees_with_play Rehearsal.executor (fun _ s => s.1) "/a" _ _ _
    htasks hstale
  exact ⟨_, _, _, _, htasks, rfl, hstale, hcalls⟩

end Archive
end Walkthrough
