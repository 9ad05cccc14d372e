/-
# Outputs that are left out

A run step may leave its output out of the transcript.  A script is played twice, and the
answers at each position agree in everything but such outputs (`Script.Run.Agree`).  Then
nothing else tells the plays apart: the same commands are executed, a fault of the one is the
fault of the other up to the output it quotes, the records are the same up to outputs that
are left out, and the transcripts are equal (`play_of_agree`).

The two stages are related step by step (`Alike`); a step keeps them so or ends both plays
with faults that are the same without their outputs.
-/

import Walkthrough.Proofs.Session.Lockstep
import Walkthrough.Transcript.Render
import Walkthrough.Transcript.Substitution

namespace Walkthrough

variable {σ τ : Type}

/-- A record without an output that is left out of transcripts. -/
def Record.visible : Record → Record
  | .doc text => .doc text
  | .command r => .command (if r.noOutput then { r with output := "" } else r)

/-- A fault without the output it quotes. -/
def Fault.withoutOutput (f : Fault) : Fault :=
  { f with output := none }

/-- Two answers to a run step agree if they are the same fault, or outcomes that can differ
in their outputs only, and only if the step leaves its output out. -/
def Script.Run.Agree (run : Script.Run) : Except Fault Outcome → Except Fault Outcome → Prop
  | .ok o, .ok o' =>
    o'.exitCode = o.exitCode ∧ o'.signal = o.signal ∧ (run.noOutput = false → o'.output = o.output)
  | .error f, .error f' => f' = f
  | .ok _, .error _ => False
  | .error _, .ok _ => False

/-! ## Records -/

/-- What is left out of a transcript is not rendered. -/
theorem Transcript.renderRecord_visible (r : Record) :
    renderRecord r.visible = renderRecord r := by
  cases r with
  | doc text => rfl
  | command r =>
    cases hno : r.noOutput with
    | false => simp [Record.visible, hno]
    | true => simp [Record.visible, hno, renderRecord, renderCommand]

/-- Records that are the same without what is left out have the same transcript. -/
theorem Transcript.render_of_visible {rs rs' : List Record}
    (h : rs'.map Record.visible = rs.map Record.visible) : render rs' = render rs := by
  have hvisible : ∀ rs : List Record,
      rs.flatMap renderRecord = (rs.map Record.visible).flatMap renderRecord := by
    intro rs
    rw [List.flatMap_map]
    exact List.flatMap_congr fun r _ => (renderRecord_visible r).symm
  rw [render, render, hvisible rs', hvisible rs, h]

/-- Outcomes that agree leave the same record up to an output that is left out. -/
theorem Session.visible_recordOf {run : Script.Run} {c : CommandLine} {o o' : Outcome}
    (h : run.Agree (.ok o) (.ok o')) :
    (Record.command (Session.recordOf ⟨c, run.allowFail, run.noOutput⟩ o')).visible =
      (Record.command (Session.recordOf ⟨c, run.allowFail, run.noOutput⟩ o)).visible := by
  obtain ⟨hcode, -, houtput⟩ := h
  cases hno : run.noOutput with
  | true => simp [Record.visible, Session.recordOf, hcode]
  | false => simp [Record.visible, Session.recordOf, hcode, houtput hno]

/-- **The policy judges answers that agree alike**: both pass it, or both end in faults that
are the same without their outputs. -/
theorem Script.Run.Agree.judged {run : Script.Run} {a a' : Except Fault Outcome}
    (h : run.Agree a a') (c : CommandLine) :
    (∃ f f', judged c run.allowFail a = .error f ∧ judged c run.allowFail a' = .error f' ∧
        f'.withoutOutput = f.withoutOutput) ∨
      ∃ o o', judged c run.allowFail a = .ok o ∧ judged c run.allowFail a' = .ok o' ∧
        run.Agree (.ok o) (.ok o') := by
  cases a with
  | error f =>
    cases a' with
    | error f' => exact .inl ⟨f, f', rfl, rfl, congrArg _ h⟩
    | ok o' => exact h.elim
  | ok o =>
    cases a' with
    | error f' => exact h.elim
    | ok o' =>
      have hcode : o'.exitCode = o.exitCode := h.1
      by_cases hfailed : o.exitCode ≠ 0 ∧ run.allowFail = false
      · refine .inl ⟨stepFault c o, stepFault c o', if_pos hfailed, if_pos (by rwa [hcode]), ?_⟩
        simp [Fault.withoutOutput, stepFault, hcode]
      · exact .inr ⟨o, o', if_neg hfailed, if_neg (by rwa [hcode]), h⟩

/-! ## Stages -/

/-- Two stages with the same calls, and with sessions that are the same up to outputs that
are left out. -/
structure Stage.Alike (g : Stage σ) (g' : Stage τ) : Prop where
  calls : g'.desk.calls = g.desk.calls
  aborted : g'.session.aborted = g.session.aborted
  visible : g'.session.records.map Record.visible = g.session.records.map Record.visible

namespace Stage

variable {ex : Executor σ} {ex' : Executor τ} {p : Placeholders} {g g₁ : Stage σ}
  {g' g₁' : Stage τ}

/-- Stages that gain the same calls and the same visible records stay alike. -/
theorem Alike.grow (h : Alike g g') {rs rs' : List Record} {a : Bool} {cs : List CommandLine}
    (hgrows : Grows ex g rs a cs g₁) (hgrows' : Grows ex' g' rs' a cs g₁')
    (hvisible : rs'.map Record.visible = rs.map Record.visible) : Alike g₁ g₁' where
  calls := by rw [hgrows.calls, hgrows'.calls, h.calls]
  aborted := by rw [hgrows.aborted, hgrows'.aborted]
  visible := by
    rw [hgrows.session, hgrows'.session, List.map_append, List.map_append, h.visible, hvisible]

/-- **One step of two plays**: hearing answers that agree, both go on alike, or both end with
faults that are the same without their outputs. -/
theorem Alike.playStep (ex : Executor σ) (ex' : Executor τ) (h : Alike g g')
    (live : g.session.aborted = false) (s : Script.Step)
    (hagree : ∀ run a a', s = .run run → a ∈ s.hears ex p g.desk.state →
      a' ∈ s.hears ex' p g'.desk.state → run.Agree a a') :
    Alike (g.playStep ex p s).2 (g'.playStep ex' p s).2 ∧
      ((∃ r r', s.fate ex p g.desk.state = .ok r ∧ s.fate ex' p g'.desk.state = .ok r' ∧
          (g.playStep ex p s).1 = .ok () ∧ (g'.playStep ex' p s).1 = .ok ()) ∨
        ∃ f f', (g.playStep ex p s).1 = .error f ∧ (g'.playStep ex' p s).1 = .error f' ∧
          f'.withoutOutput = f.withoutOutput) := by
  have live' : g'.session.aborted = false := h.aborted.trans live
  cases s with
  | doc text =>
    obtain ⟨hok, hgrows⟩ := addDoc_of_live ex live text
    obtain ⟨hok', hgrows'⟩ := addDoc_of_live ex' live' text
    exact ⟨h.grow hgrows hgrows' rfl, .inl ⟨.doc text, .doc text, rfl, rfl, hok, hok'⟩⟩
  | run run =>
    cases hexp : p.expand run.spec with
    | error f =>
      rw [playStep_of_expand_eq_error hexp, playStep_of_expand_eq_error hexp]
      exact ⟨h, .inr ⟨f, f, rfl, rfl, rfl⟩⟩
    | ok c =>
      have hanswers : run.Agree (ex c g.desk.state).1.result (ex' c g'.desk.state).1.result :=
        hagree run _ _ rfl (by simp [Script.Step.hears, hexp]) (by simp [Script.Step.hears, hexp])
      rw [playStep_of_expand_eq_ok hexp, playStep_of_expand_eq_ok hexp]
      rcases hanswers.judged c with ⟨f, f', hf, hf', hsame⟩ | ⟨o, o', ho, ho', hsame⟩
      · obtain ⟨herror, hgrows⟩ :=
          addTask_of_judged_eq_error (t := ⟨c, run.allowFail, run.noOutput⟩) live hf
        obtain ⟨herror', hgrows'⟩ :=
          addTask_of_judged_eq_error (t := ⟨c, run.allowFail, run.noOutput⟩) live' hf'
        rw [herror, herror']
        exact ⟨h.grow hgrows hgrows' rfl, .inr ⟨f, f', rfl, rfl, hsame⟩⟩
      · obtain ⟨hok, hgrows⟩ :=
          addTask_of_judged_eq_ok (t := ⟨c, run.allowFail, run.noOutput⟩) live ho
        obtain ⟨hok', hgrows'⟩ :=
          addTask_of_judged_eq_ok (t := ⟨c, run.allowFail, run.noOutput⟩) live' ho'
        rw [hok, hok']
        refine ⟨h.grow hgrows hgrows' (congrArg (fun r => [r]) (Session.visible_recordOf hsame)),
          .inl ⟨_, _, Script.Step.fate_of_judged_eq_ok hexp ho,
            Script.Step.fate_of_judged_eq_ok hexp ho', rfl, rfl⟩⟩

/-- **Two plays that hear answers that agree**, position by position, stay alike to the end. -/
theorem Alike.playSteps (ex : Executor σ) (ex' : Executor τ) {steps : List Script.Step}
    (h : Alike g g') (live : g.session.aborted = false)
    (hagree : ∀ (i : Nat) run a a', (steps.filterMap Script.Step.run?)[i]? = some run →
      (Script.heard ex p steps g.desk.state)[i]? = some a →
      (Script.heard ex' p steps g'.desk.state)[i]? = some a' → run.Agree a a') :
    Alike (Stage.playSteps ex p steps g).2 (Stage.playSteps ex' p steps g').2 ∧
      (Stage.playSteps ex' p steps g').1.mapError Fault.withoutOutput =
        (Stage.playSteps ex p steps g).1.mapError Fault.withoutOutput := by
  induction steps generalizing g g' with
  | nil => exact ⟨h, rfl⟩
  | cons s rest ih =>
    have live' : g'.session.aborted = false := h.aborted.trans live
    obtain ⟨halike, ⟨r, r', hfate, hfate', hok, hok'⟩ | ⟨f, f', hf, hf', hsame⟩⟩ :=
      h.playStep ex ex' live s (Script.hearing_head hagree)
    · obtain ⟨-, hgrows⟩ := playStep_of_fate_eq_ok live hfate
      obtain ⟨-, hgrows'⟩ := playStep_of_fate_eq_ok live' hfate'
      rw [playSteps_cons_of_ok rest hok, playSteps_cons_of_ok rest hok']
      refine ih halike hgrows.aborted ?_
      rw [hgrows.state, hgrows'.state, ← Script.Step.leaves_of_fate_eq_ok hfate,
        ← Script.Step.leaves_of_fate_eq_ok hfate']
      exact Script.hearing_tail hfate hfate' hagree
    · rw [playSteps_cons_of_error rest hf, playSteps_cons_of_error rest hf']
      exact ⟨halike, congrArg Except.error hsame⟩

end Stage

/-- **What is left out of a transcript does not influence it.**  A script is played into two
new sessions with the same placeholders, and the answers to the `i`-th run step agree in the
exit code, the signal and the fault, and in the output too unless that step leaves it out.
Then the same commands are executed; both plays end well, or both end with a fault, the same
but for the output it quotes; the recorded steps are the same up to outputs that are left
out; and both sessions are refused or both finish with the same transcript, which no footer
and no table can tell apart. -/
theorem play_of_agree (ex : Executor σ) (ex' : Executor τ) (script : Script) (p : Placeholders)
    (st : σ) (st' : τ)
    (hagree : ∀ (i : Nat) run a a', script.runs[i]? = some run →
      (Executor.answers ex ((Stage.start st).play ex script p).2.desk.calls st)[i]? = some a →
      (Executor.answers ex' ((Stage.start st').play ex' script p).2.desk.calls st')[i]? = some a' →
      run.Agree a a') :
    let played := (Stage.start st).play ex script p
    let played' := (Stage.start st').play ex' script p
    played'.2.desk.calls = played.2.desk.calls ∧
      played'.1.mapError Fault.withoutOutput = played.1.mapError Fault.withoutOutput ∧
      played'.2.session.aborted = played.2.session.aborted ∧
      played'.2.session.records.map Record.visible =
        played.2.session.records.map Record.visible ∧
      played'.2.session.finish.map Transcript.render =
        played.2.session.finish.map Transcript.render ∧
      ∀ (table : SubstitutionTable) (identity : String),
        (played'.2.session.finish.map fun rs =>
            table.apply (Transcript.withFooter (Transcript.render rs) identity)) =
          played.2.session.finish.map fun rs =>
            table.apply (Transcript.withFooter (Transcript.render rs) identity) := by
  intro played played'
  simp only [Stage.answers_calls_play] at hagree
  have hstart : Stage.Alike (Stage.start st) (Stage.start st') := ⟨rfl, rfl, rfl⟩
  obtain ⟨halike, hanswer⟩ := hstart.playSteps ex ex' (p := p) rfl hagree
  have hrender : Transcript.render played'.2.session.records =
      Transcript.render played.2.session.records := Transcript.render_of_visible halike.visible
  have hfinish : ∀ document : String → String,
      (played'.2.session.finish.map fun rs => document (Transcript.render rs)) =
        played.2.session.finish.map fun rs => document (Transcript.render rs) := by
    intro document
    have haborted : played'.2.session.aborted = played.2.session.aborted := halike.aborted
    unfold Session.finish
    rw [haborted]
    cases played.2.session.aborted with
    | true => rfl
    | false => exact congrArg (fun text => Except.ok (document text)) hrender
  exact ⟨halike.calls, hanswer, halike.aborted, halike.visible, hfinish id,
    fun table identity => hfinish fun text => table.apply (Transcript.withFooter text identity)⟩

/-- A failure that is left out and tolerated, and a shown output between two hidden ones. -/
theorem play_of_agree_rehearsed :
    let script : Script := ⟨0, [.doc "text", .run ⟨.line "a", true, true⟩,
      .run ⟨.line "b", false, false⟩, .run ⟨.line "c", false, true⟩]⟩
    let p : Placeholders := ⟨["t"], "/w", none⟩
    let st : List Rehearsal.Cue :=
      [.ends { exitCode := 3, output := "x" }, .ends { output := "y" }, .ends { output := "z" }]
    let st' : List Rehearsal.Cue :=
      [.ends { exitCode := 3 }, .ends { output := "y" }, .ends { output := "\x60\x60\x60" }]
    let played := (Stage.start st).play Rehearsal.executor script p
    let played' := (Stage.start st').play Rehearsal.executor script p
    played.1 = .ok () ∧ played'.2.session ≠ played.2.session ∧
      (∀ (i : Nat) run a a', script.runs[i]? = some run →
        (Executor.answers Rehearsal.executor played.2.desk.calls st)[i]? = some a →
        (Executor.answers Rehearsal.executor played'.2.desk.calls st')[i]? = some a' →
        run.Agree a a') ∧
      played'.2.session.finish.map Transcript.render =
        played.2.session.finish.map Transcript.render := by
  intro script p st st' played played'
  have hanswers : Executor.answers Rehearsal.executor played.2.desk.calls st =
      [.ok { exitCode := 3, output := "x" }, .ok { output := "y" }, .ok { output := "z" }] := by
    decide +kernel
  have hanswers' : Executor.answers Rehearsal.executor played'.2.desk.calls st' =
      [.ok { exitCode := 3 }, .ok { output := "y" }, .ok { output := "\x60\x60\x60" }] := by
    decide +kernel
  have hagree : ∀ (i : Nat) run a a', script.runs[i]? = some run →
      (Executor.answers Rehearsal.executor played.2.desk.calls st)[i]? = some a →
      (Executor.answers Rehearsal.executor played'.2.desk.calls st')[i]? = some a' →
      run.Agree a a' := by
    intro i run a a' hrun ha ha'
    rw [hanswers] at ha
    rw [hanswers'] at ha'
    rcases i with _ | _ | _ | i
    · obtain rfl := Option.some.inj hrun
      obtain rfl := Option.some.inj ha
      obtain rfl := Option.some.inj ha'
      exact ⟨rfl, rfl, fun h => absurd h (by decide)⟩
    · obtain rfl := Option.some.inj hrun
      obtain rfl := Option.some.inj ha
      obtain rfl := Option.some.inj ha'
      exact ⟨rfl, rfl, fun _ => rfl⟩
    · obtain rfl := Option.some.inj hrun
      obtain rfl := Option.some.inj ha
      obtain rfl := Option.some.inj ha'
      exact ⟨rfl, rfl, fun h => absurd h (by decide)⟩
    · cases hrun
  have hok : played.1 = .ok () := by decide +kernel
  have hdifferent : played'.2.session ≠ played.2.session := by decide +kernel
  refine ⟨hok, hdifferent, hagree, ?_⟩
  -- the plays are spelled out, so that nothing is evaluated to recognize them
  simp only [played, played'] at hagree ⊢
  obtain ⟨-, -, -, -, hdocument, -⟩ :=
    play_of_agree Rehearsal.executor Rehearsal.executor script p st st' hagree
  exact hdocument

end Walkthrough
