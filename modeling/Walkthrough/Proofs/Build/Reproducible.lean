/-
# Transcripts that do not depend on the working directory

Two builds of one script for one target differ in their working directories, and what the
executor prints in the second is what it prints in the first with the one directory written
as the other.  Then both fail, or both transcripts are one sketch, filled with the two
directories (`renders_of_renamed`).  Where the rules of the target take the directory out of the
sketch, the final documents are equal (`transcribe_eq_of_separable`).

The third rule takes out a directory with the slash behind it, and all rules are literal, so
this holds of sketches in which a directory stands apart from what is around it
(`Separable`).  Where it does not, the directory shows (`Trial.not_reproduced_of_entangled`).
-/

import Walkthrough.Proofs.Session.Lockstep
import Walkthrough.Proofs.Transcript.Sanitizing
import Walkthrough.Proofs.Transcript.Sketch

namespace Walkthrough
namespace Build

open Placeholders (Distinct)
open SubstitutionTable (rewrite rewriteRule)
open Text (Outline)
open Text.Outline (Slashed Spares StartsClear close fill mapRuns plain runs)
open Transcript (sketch)

variable {σ τ : Type}

/-- A script that was played for a target in a working directory. -/
def played (ex : Executor σ) (t : Target) (s : Script) (workdir : String) (st : σ) :
    Except Fault Unit × Stage σ :=
  (Stage.start st).play ex s ⟨t.invocationArgs, workdir, none⟩

/-- The answers to the commands that were given while a script was played. -/
def answered (ex : Executor σ) (t : Target) (s : Script) (workdir : String) (st : σ) :
    List (Except Fault Outcome) :=
  Executor.answers ex (played ex t s workdir st).2.desk.calls st

/-- The final document of a script: played, finished, rendered, with its footer, sanitized. -/
def transcribe (ex : Executor σ) (t : Target) (s : Script) (workdir identity : String) (st : σ) :
    Except Fault String :=
  match played ex t s workdir st with
  | (.error f, _) => .error f
  | (.ok (), g) => g.session.finish.map (document t workdir identity)

/-- The second answer is the first with the directory `w` written as `w'`. -/
def Renamed (w w' : String) : Except Fault Outcome → Except Fault Outcome → Prop
  | .ok o, .ok o' => o'.exitCode = o.exitCode ∧ o'.output = Text.replaceIn w w' o.output
  | .error _, .error _ => True
  | .ok _, .error _ => False
  | .error _, .ok _ => False

instance (w w' : String) (a a' : Except Fault Outcome) : Decidable (Renamed w w' a a') :=
  match a, a' with
  | .ok o, .ok o' =>
    inferInstanceAs (Decidable (o'.exitCode = o.exitCode ∧
      o'.output = Text.replaceIn w w' o.output))
  | .error _, .error _ => isTrue trivial
  | .ok _, .error _ => isFalse id
  | .error _, .ok _ => isFalse id

/-- The policy judges renamed answers alike. -/
theorem Renamed.judged {w w' : String} {a a' : Except Fault Outcome} (h : Renamed w w' a a')
    (c c' : CommandLine) (allowFail : Bool) :
    (∃ f f', judged c allowFail a = .error f ∧ judged c' allowFail a' = .error f') ∨
      ∃ o o', judged c allowFail a = .ok o ∧ judged c' allowFail a' = .ok o' ∧
        o'.exitCode = o.exitCode ∧ o'.output = Text.replaceIn w w' o.output := by
  cases a with
  | error f =>
    cases a' with
    | error f' => exact .inl ⟨f, f', rfl, rfl⟩
    | ok o' => exact h.elim
  | ok o =>
    cases a' with
    | error f' => exact h.elim
    | ok o' =>
      obtain ⟨hcode, houtput⟩ := h
      by_cases hfailed : o.exitCode ≠ 0 ∧ allowFail = false
      · exact .inl ⟨_, _, if_pos hfailed, if_pos (by rwa [hcode])⟩
      · exact .inr ⟨o, o', if_neg hfailed, if_neg (by rwa [hcode]), hcode, houtput⟩

/-! ## One sketch for two plays -/

/-- Two records of a step fill the same parts, each with the directory of its play. -/
def Fills (target : List String) (w w' : String) (s : Script.Step) (r r' : Record) : Prop :=
  Transcript.renderRecord r =
      Transcript.assemble (fill w.toList) (Transcript.stepParts target w s r) ∧
    Transcript.renderRecord r' =
      Transcript.assemble (fill w'.toList) (Transcript.stepParts target w s r)

/-- **A step keeps two plays together**: whether its command can be expanded does not depend
on the directory, and its records fill the same parts. -/
theorem keeps_of_distinct {ex : Executor σ} {ex' : Executor τ} {target : List String}
    {w w' : String} (hw : Distinct w.toList) (hw' : Distinct w'.toList) (s : Script.Step) :
    s.Keeps ex ex' ⟨target, w, none⟩ ⟨target, w', none⟩ (fun _ => Renamed w w')
      (Fills target w w') := by
  intro st st' hheard
  cases s with
  | doc text =>
    exact .inr ⟨_, _, rfl, rfl, Transcript.renderRecord_doc target w w text _,
      Transcript.renderRecord_doc target w w' text _⟩
  | run run =>
    by_cases hnames : Placeholders.NamesArchive target run.spec
    · obtain ⟨f, hf⟩ := Placeholders.expand_of_namesArchive hw hnames
      obtain ⟨f', hf'⟩ := Placeholders.expand_of_namesArchive hw' hnames
      exact .inl ⟨_, _, Script.Step.fate_of_expand_eq_error hf st,
        Script.Step.fate_of_expand_eq_error hf' st'⟩
    obtain ⟨c, hc, hdisplay⟩ := Placeholders.expand_of_not_namesArchive hw hnames
    obtain ⟨c', hc', hdisplay'⟩ := Placeholders.expand_of_not_namesArchive hw' hnames
    have hrenamed : Renamed w w' (ex c st).1.result (ex' c' st').1.result :=
      hheard run _ _ rfl (by simp [Script.Step.hears, hc]) (by simp [Script.Step.hears, hc'])
    rcases hrenamed.judged c c' run.allowFail with
      ⟨f, f', hf, hf'⟩ | ⟨o, o', ho, ho', hcode, houtput⟩
    · obtain ⟨x, hx⟩ := Script.Step.fate_of_judged_eq_error hc hf
      obtain ⟨y, hy⟩ := Script.Step.fate_of_judged_eq_error hc' hf'
      exact .inl ⟨x, y, hx, hy⟩
    · have hself : o.output = Text.replaceIn w w o.output := by
        rw [Text.replaceIn, Text.replaceAll_self, String.ofList_toList]
      exact .inr ⟨_, _, Script.Step.fate_of_judged_eq_ok hc ho,
        Script.Step.fate_of_judged_eq_ok hc' ho',
        Transcript.renderRecord_command hw.ne_nil hdisplay rfl rfl hself,
        Transcript.renderRecord_command hw'.ne_nil hdisplay' rfl hcode houtput⟩

/-- **Both plays fail, or their transcripts are one sketch**, drawn from the records of the
first play and filled with the two directories. -/
theorem renders_of_renamed {ex : Executor σ} {ex' : Executor τ} {t : Target} {s : Script}
    {w w' : String} {st : σ} {st' : τ} (hw : Distinct w.toList) (hw' : Distinct w'.toList)
    (hanswered : ∀ x ∈ (answered ex t s w st).zip (answered ex' t s w' st'), Renamed w w' x.1 x.2)
    (identity : String) :
    ((∃ f, (played ex t s w st).1 = .error f) ∧ ∃ f', (played ex' t s w' st').1 = .error f') ∨
      ∃ rs rs', (played ex t s w st).1 = .ok () ∧ (played ex t s w st).2.session = ⟨rs, false⟩ ∧
        (played ex' t s w' st').1 = .ok () ∧ (played ex' t s w' st').2.session = ⟨rs', false⟩ ∧
        (Transcript.withFooter (Transcript.render rs) identity).toList =
          fill w.toList (sketch t.invocationArgs w s.steps rs identity) ∧
        (Transcript.withFooter (Transcript.render rs') identity).toList =
          fill w'.toList (sketch t.invocationArgs w s.steps rs identity) := by
  have hstep : Script.InStep (Fills t.invocationArgs w w') s.steps
      (Script.fates ex ⟨t.invocationArgs, w, none⟩ s.steps st)
      (Script.fates ex' ⟨t.invocationArgs, w', none⟩ s.steps st') := by
    refine Script.inStep_fates (fun s _ => keeps_of_distinct hw hw' s) ?_
    intro i run a a' _ ha ha'
    rw [← Stage.answers_calls_play] at ha ha'
    exact hanswered (a, a') (List.mem_of_getElem? (List.getElem?_zip_eq_some.2 ⟨ha, ha'⟩))
  rcases hstep.cases with ⟨rs, rs', hrs, hrs', hlength, hfills⟩ | ⟨⟨x, hx⟩, y, hy⟩
  · right
    obtain ⟨hok, hgrows⟩ := Stage.playSteps_of_fates_eq (g := Stage.start st) rfl hrs
    obtain ⟨hok', hgrows'⟩ := Stage.playSteps_of_fates_eq (g := Stage.start st') rfl hrs'
    obtain ⟨hown, hsecond⟩ := (List.forall₂_and_left _ _).1 hfills
    exact ⟨rs, rs', hok, hgrows.session, hok', hgrows'.session,
      (Transcript.fill_sketch identity (Script.forall₂_zip hlength hown)).symm,
      (Transcript.fill_sketch identity hsecond).symm⟩
  · exact .inl ⟨Stage.play_eq_error_of_mem hx, Stage.play_eq_error_of_mem hy⟩

/-! ## Taking the directory out -/

/-- The rule for the invocation of a target. -/
def invocationRule (t : Target) : Rule :=
  ⟨t.invocation, t.shortName⟩

/-- The rule for the path of a target. -/
def pathRule (t : Target) : Rule :=
  ⟨t.path, String.ofList ((Path.fileName? t.path.toList).getD t.path.toList)⟩

/-- A sketch behind the rules for the invocation and the path of a target. -/
def named (t : Target) (o : Outline) : Outline :=
  mapRuns (rewriteRule (pathRule t)) (mapRuns (rewriteRule (invocationRule t)) o)

/-- A directory stands apart in a sketch, so that the rules of a target take it out: a slash
follows every mention, and a directory that is mentioned does not end in one; no occurrence of
the invocation or of the path touches a mention or the slash behind it; and when the third rule
applies, what it looks for, the directory with its slash, does not go across the start of a
mention and is not in the text between the mentions. -/
structure Separable (t : Target) (w : String) (o : Outline) : Prop where
  slashed : Slashed o
  unslashed : none ∈ o → w.toList.getLast? ≠ some '/'
  invocation : Spares t.invocation.toList w.toList o
  path : Spares t.path.toList w.toList (mapRuns (rewriteRule (invocationRule t)) o)
  starts : StartsClear (SubstitutionTable.withSlash w).toList w.toList (named t o)
  alone : ∀ run ∈ runs (named t o), ¬ (SubstitutionTable.withSlash w).toList <:+: run

/-- The third rule takes out what stands in the gaps, with the slashes behind it. -/
theorem rewriteRule_withSlash {w : String} {o : Outline} (ho : Slashed o)
    (hunslashed : none ∈ o → w.toList.getLast? ≠ some '/')
    (hstarts : StartsClear (SubstitutionTable.withSlash w).toList w.toList o)
    (halone : ∀ run ∈ runs o, ¬ (SubstitutionTable.withSlash w).toList <:+: run) :
    rewriteRule ⟨SubstitutionTable.withSlash w, ""⟩ (fill w.toList o) = close o := by
  by_cases hlast : w.toList.getLast? = some '/'
  · -- such a directory is not mentioned
    cases ho with
    | last s =>
      rw [Text.Outline.fill_plain, Text.Outline.close_plain]
      exact Text.replaceAll_eq_self _ (halone s (by simp))
    | gap s ho => exact absurd hlast (hunslashed (by simp))
  · have hslash : (SubstitutionTable.withSlash w).toList = w.toList ++ ['/'] := by
      rw [Transcript.toList_withSlash, if_neg hlast]
    rw [hslash] at hstarts halone
    unfold rewriteRule
    rw [hslash]
    exact Text.Outline.replaceAll_fill_nil ho hstarts halone

/-- **The rules take a directory out of a sketch** in which it stands apart; what is left does
not depend on it. -/
theorem rewrite_fill_of_separable {t : Target} {w : String} {o : Outline} (h : Separable t w o) :
    rewrite (SubstitutionTable.forTarget t.invocation t.shortName t.path w) (fill w.toList o) =
      close (named t o) := by
  obtain ⟨hfirst, hslashed⟩ :=
    Text.Outline.replaceAll_fill t.shortName.toList h.slashed h.invocation
  obtain ⟨hsecond, hslashed'⟩ :=
    Text.Outline.replaceAll_fill (pathRule t).replacement.toList hslashed h.path
  have htable : SubstitutionTable.forTarget t.invocation t.shortName t.path w =
      [invocationRule t, pathRule t, ⟨SubstitutionTable.withSlash w, ""⟩] := rfl
  rw [htable, SubstitutionTable.rewrite_cons, SubstitutionTable.rewrite_cons,
    SubstitutionTable.rewrite_cons, SubstitutionTable.rewrite_nil]
  have hfirst' : rewriteRule (invocationRule t) (fill w.toList o) =
      fill w.toList (mapRuns (rewriteRule (invocationRule t)) o) := hfirst
  have hsecond' : rewriteRule (pathRule t)
      (fill w.toList (mapRuns (rewriteRule (invocationRule t)) o)) =
        fill w.toList (named t o) := hsecond
  have hmentioned : none ∈ named t o → none ∈ o := fun hin =>
    Text.Outline.none_mem_mapRuns_iff.1 (Text.Outline.none_mem_mapRuns_iff.1 hin)
  rw [hfirst', hsecond']
  exact rewriteRule_withSlash hslashed' (fun hin => h.unslashed (hmentioned hin)) h.starts h.alone

/-- The transcript of a play with gaps for its working directory. -/
def sketched (ex : Executor σ) (t : Target) (s : Script) (w identity : String) (st : σ) : Outline :=
  sketch t.invocationArgs w s.steps (played ex t s w st).2.session.records identity

/-- A document in characters is what the rules make of the transcript. -/
theorem toList_document (t : Target) (w identity : String) (rs : List Record) :
    (document t w identity rs).toList =
      rewrite (SubstitutionTable.forTarget t.invocation t.shortName t.path w)
        (Transcript.withFooter (Transcript.render rs) identity).toList := by
  rw [document, rewrite, String.ofList_toList]

theorem transcribe_of_played_eq_error {ex : Executor σ} {t : Target} {s : Script} {w : String}
    {st : σ} {f : Fault} (h : (played ex t s w st).1 = .error f) (identity : String) :
    transcribe ex t s w identity st = .error f := by
  unfold transcribe
  cases hplayed : played ex t s w st with
  | mk answer g =>
    obtain rfl : answer = .error f := by rw [← h, hplayed]
    rfl

theorem transcribe_of_played_eq_ok {ex : Executor σ} {t : Target} {s : Script} {w : String}
    {st : σ} {rs : List Record} (h : (played ex t s w st).1 = .ok ())
    (hsession : (played ex t s w st).2.session = ⟨rs, false⟩) (identity : String) :
    transcribe ex t s w identity st = .ok (document t w identity rs) := by
  unfold transcribe
  cases hplayed : played ex t s w st with
  | mk answer g =>
    rw [hplayed] at h hsession
    obtain rfl : answer = .ok () := h
    have hfinish : g.session.finish = .ok rs := by
      rw [Session.finish, hsession]
      rfl
    simp only [hfinish]
    rfl

/-- The characters of the final document of a script, if there is one. -/
def characters (ex : Executor σ) (t : Target) (s : Script) (w identity : String) (st : σ) :
    Option (List Char) :=
  match played ex t s w st with
  | (.error _, _) => none
  | (.ok (), g) => g.session.finish.toOption.map fun rs =>
    (SubstitutionTable.forTarget t.invocation t.shortName t.path w).foldl
      (fun s r => rewriteRule r s)
      (Transcript.assemble id (Transcript.documentParts rs identity))

theorem characters_eq (ex : Executor σ) (t : Target) (s : Script) (w identity : String) (st : σ) :
    characters ex t s w identity st =
      (transcribe ex t s w identity st).toOption.map String.toList := by
  unfold characters transcribe
  split
  · rfl
  · rename_i g _
    cases g.session.finish with
    | error f => rfl
    | ok rs =>
      simp only [Except.toOption, Except.map, Option.map_some]
      rw [document, SubstitutionTable.toList_apply, Transcript.assemble_documentParts]

/-- **Transcripts do not depend on the working directory.**  A script is played for a target
in the directory `w`, and again in `w'` with answers that are those of the first play with
`w` written as `w'`.  The directories are absolute and have no blank and no opening brace.  Then
both builds fail, or both have a document, and the two transcripts that the rules of the target
make them from are one sketch, filled with the two directories.  If both directories stand apart
in that sketch, then both builds fail or both documents are the same. -/
theorem transcribe_eq_of_separable {ex : Executor σ} {ex' : Executor τ} {t : Target} {s : Script}
    {w w' : String} {st : σ} {st' : τ} (identity : String)
    (hw : Distinct w.toList) (hw' : Distinct w'.toList)
    (hanswered : ∀ x ∈ (answered ex t s w st).zip (answered ex' t s w' st'), Renamed w w' x.1 x.2) :
    (((transcribe ex t s w identity st).toOption = none ∧
        (transcribe ex' t s w' identity st').toOption = none) ∨
      ∃ rs rs', transcribe ex t s w identity st = .ok (document t w identity rs) ∧
        transcribe ex' t s w' identity st' = .ok (document t w' identity rs') ∧
        (Transcript.withFooter (Transcript.render rs) identity).toList =
          fill w.toList (sketched ex t s w identity st) ∧
        (Transcript.withFooter (Transcript.render rs') identity).toList =
          fill w'.toList (sketched ex t s w identity st)) ∧
    (((played ex t s w st).1 = .ok () → Separable t w (sketched ex t s w identity st) ∧
        Separable t w' (sketched ex t s w identity st)) →
      (transcribe ex t s w identity st).toOption =
        (transcribe ex' t s w' identity st').toOption) := by
  rcases renders_of_renamed hw hw' hanswered identity with
    ⟨⟨f, hf⟩, f', hf'⟩ | ⟨rs, rs', hok, hsession, hok', hsession', hfill, hfill'⟩
  · have hfailed := transcribe_of_played_eq_error hf identity
    have hfailed' := transcribe_of_played_eq_error hf' identity
    rw [hfailed, hfailed']
    exact ⟨.inl ⟨rfl, rfl⟩, fun _ => rfl⟩
  · have hdocument := transcribe_of_played_eq_ok hok hsession identity
    have hdocument' := transcribe_of_played_eq_ok hok' hsession' identity
    have hrecords : (played ex t s w st).2.session.records = rs := by rw [hsession]
    rw [sketched, hrecords]
    refine ⟨.inr ⟨rs, rs', hdocument, hdocument', hfill, hfill'⟩, fun hseparable => ?_⟩
    obtain ⟨hfirst, hsecond⟩ := hseparable hok
    have heq : document t w identity rs = document t w' identity rs' := by
      rw [← String.toList_inj, toList_document, toList_document, hfill, hfill',
        rewrite_fill_of_separable hfirst, rewrite_fill_of_separable hsecond]
    rw [hdocument, hdocument', heq]

/-- A command that names the target and the directory, and prints two paths in it. -/
theorem transcribe_eq_of_rehearsed :
    let t : Target := ⟨"/t", .executable, "tool"⟩
    let s : Script := ⟨0, [.run ⟨.line "\x7btarget\x7d \x7bworkdir\x7d/x", false, false⟩]⟩
    let st : List Rehearsal.Cue := [.ends { output := "/w/x\n/w/y" }]
    let st' : List Rehearsal.Cue := [.ends { output := "/v/k/x\n/v/k/y" }]
    let o := sketched Rehearsal.executor t s "/w" "1" st
    Distinct "/w".toList ∧ Distinct "/v/k".toList ∧ Separable t "/w" o ∧ Separable t "/v/k" o ∧
      (transcribe Rehearsal.executor t s "/w" "1" st).toOption =
        (transcribe Rehearsal.executor t s "/v/k" "1" st').toOption ∧
      (transcribe Rehearsal.executor t s "/w" "1" st).toOption.map String.toList =
        some (Transcript.block Transcript.shellFence "tool x".toList ++
          Transcript.block Transcript.fence "x\ny".toList ++
          (Transcript.footer "1").toList) := by
  intro t s st st' o
  have hw : Distinct "/w".toList := ⟨by decide, by decide, by decide⟩
  have hw' : Distinct "/v/k".toList := ⟨by decide, by decide, by decide⟩
  have ho : o = plain "\x60\x60\x60shell\n/t ".toList ++ none :: some '/' ::
      (plain "x\n\x60\x60\x60\n\n\x60\x60\x60\n".toList ++ none :: some '/' ::
        (plain "x\n".toList ++ none :: some '/' ::
          plain "y\n\x60\x60\x60\n\nGenerated using build \x601\x60.\n".toList)) := by
    decide +kernel
  have hslashed : Slashed o := by
    rw [ho]
    exact .gap _ (.gap _ (.gap _ (.last _)))
  have hfirst : Separable t "/w" o := by
    refine ⟨hslashed, fun _ => by decide, ?_, ?_, ?_, ?_⟩ <;> rw [ho] <;> decide +kernel
  have hsecond : Separable t "/v/k" o := by
    refine ⟨hslashed, fun _ => by decide, ?_, ?_, ?_, ?_⟩ <;> rw [ho] <;> decide +kernel
  have hanswered : ∀ x ∈ (answered Rehearsal.executor t s "/w" st).zip
      (answered Rehearsal.executor t s "/v/k" st'), Renamed "/w" "/v/k" x.1 x.2 := by
    decide +kernel
  have hdocument := characters_eq Rehearsal.executor t s "/w" "1" st
  exact ⟨hw, hw', hfirst, hsecond,
    (transcribe_eq_of_separable "1" hw hw' hanswered).2 fun _ => ⟨hfirst, hsecond⟩,
    hdocument.symm.trans (by decide +kernel)⟩

/-! ## Directories that do not stand apart -/

/-- Two rehearsed plays of a script for a target in two directories. -/
structure Trial where
  target : Target
  script : Script
  identity : String := "1"
  first : String
  second : String
  cues : List Rehearsal.Cue := []
  cues' : List Rehearsal.Cue := []

namespace Trial

/-- The texts of a script. -/
def textsOf (s : Script) : List String :=
  s.steps.flatMap fun
    | .doc text => [text]
    | .run ⟨.line text, _, _⟩ => [text]
    | .run ⟨.argv args, _, _⟩ => args

/-- Everything the two builds share. -/
def shared (x : Trial) : List String :=
  [x.target.path, x.target.shortName, x.identity] ++ textsOf x.script

/-- The directories are absolute and without blanks, neither occurs in what the builds share
or in the other, and the second play is answered as the first with the directory renamed. -/
def Admitted (x : Trial) : Prop :=
  (∀ w ∈ [x.first, x.second], Path.isAbsolute w.toList = true ∧
      w.toList.any Text.isBlank = false ∧
      ∀ text ∈ x.shared, Text.isWithin w text = false) ∧
    Text.isWithin x.first x.second = false ∧ Text.isWithin x.second x.first = false ∧
    ∀ a ∈ (answered Rehearsal.executor x.target x.script x.first x.cues).zip
      (answered Rehearsal.executor x.target x.script x.second x.cues'),
      Renamed x.first x.second a.1 a.2

/-- Both builds fail or both make the same document. -/
def Reproduced (x : Trial) : Prop :=
  (transcribe Rehearsal.executor x.target x.script x.first x.identity x.cues).toOption =
    (transcribe Rehearsal.executor x.target x.script x.second x.identity x.cues').toOption

instance (x : Trial) : Decidable x.Admitted :=
  inferInstanceAs (Decidable (_ ∧ _))

/-- Documents are compared character by character. -/
theorem reproduced_iff (x : Trial) :
    x.Reproduced ↔
      characters Rehearsal.executor x.target x.script x.first x.identity x.cues =
        characters Rehearsal.executor x.target x.script x.second x.identity x.cues' := by
  rw [characters_eq, characters_eq, Reproduced]
  exact (Option.map_injective fun _ _ => String.toList_inj.1).eq_iff.symm

instance (x : Trial) : Decidable x.Reproduced :=
  decidable_of_iff _ x.reproduced_iff.symm

/-- A play of one line for the program `/t`, in two directories. -/
def ofLine (line shortName first second : String) (output output' : String := "") : Trial where
  target := ⟨"/t", .executable, shortName⟩
  script := ⟨0, [.run ⟨.line line, false, false⟩]⟩
  first := first
  second := second
  cues := [.ends { output := output }]
  cues' := [.ends { output := output' }]

/-- Plays in which a directory does not stand apart, one for each way. -/
def entangled : List Trial :=
  [ -- no slash behind a mention
    ofLine "cd \x7bworkdir\x7d" "t" "/w" "/v",
    -- the directory ends in a slash, and only one of the two is taken out
    ofLine "ls \x7bworkdir\x7d/x" "t" "/a/" "/b",
    -- the directory with its slash is found across the start of its mention
    ofLine "ls /a\x7bworkdir\x7d/x" "t" "/a/a" "/b/c",
    -- the path of the program begins the directory
    ofLine "ls \x7bworkdir\x7d/x" "t" "/tv" "/w",
    -- the directory occurs once the first rule applied
    ofLine "ls \x7btarget\x7dw/x" "/v" "/vw" "/u",
    -- the first play prints the directory of the second
    ofLine "ls" "t" "/w" "/v" "/v/x" "/v/x",
    -- a brace in the directory completes the archive token
    ofLine "ls \x7bworkdir\x7dput\x7d/x" "t" "/\x7bout" "/w" ]

/-- **A directory that does not stand apart shows**: the document depends on it, or whether
there is one. -/
theorem not_reproduced_of_entangled :
    (¬ ∀ x : Trial, x.Admitted → x.Reproduced) ∧
      ∀ x ∈ entangled, x.Admitted ∧ ¬ x.Reproduced := by
  have hall : ∀ x ∈ entangled, x.Admitted ∧ ¬ x.Reproduced := by decide +kernel
  refine ⟨fun hclaim => ?_, hall⟩
  obtain ⟨hadmitted, hnot⟩ := hall _ List.mem_cons_self
  exact hnot (hclaim _ hadmitted)

end Trial

end Build
end Walkthrough
