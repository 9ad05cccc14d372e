/-
# Filling the placeholders in one pass

The placeholders of a text are filled token by token: the target, then the working directory,
then the archive.  Each replacement goes over everything that the ones before it have written.

That makes no difference for the values that a build gives (`Placed`): an invocation that
starts with a slash or with `java -jar /`, a directory that starts with a slash, and no opening
brace in either.  Then a command is the one that a single pass over each of its texts makes
(`expand_eq_atOnce`).  Whatever the archive is, its name is filled in last, so it may even be a
token.
-/

import Walkthrough.Proofs.Path
import Walkthrough.Proofs.Script.Expansion
import Walkthrough.Proofs.Script.Opening
import Walkthrough.Proofs.Text.Substitution
import Walkthrough.Target

namespace Walkthrough

open Text (Filling Marked Neutral ToldApart)

namespace Placeholders

/-- The values that a build gives: absolute paths, behind `java -jar` or not, without an
opening brace. -/
structure Placed (p : Placeholders) : Prop where
  target : "/".toList <+: (Text.joinWith " " p.target).toList ∨
    "java -jar /".toList <+: (Text.joinWith " " p.target).toList
  workdir : "/".toList <+: p.workdir.toList
  targetNoBrace : '\x7b' ∉ (Text.joinWith " " p.target).toList
  workdirNoBrace : '\x7b' ∉ p.workdir.toList

/-- The tokens and what is written for them. -/
def fillings (p : Placeholders) : List Filling :=
  [(targetToken.toList, (Text.joinWith " " p.target).toList),
    (workdirToken.toList, p.workdir.toList), (outputToken.toList, (p.output.getD "").toList)]

/-- A text with its placeholders filled in one pass. -/
def filled (p : Placeholders) (text : String) : String :=
  String.ofList (Text.substitute p.fillings text.toList)

/-- Whether a text of a script names the archive where there is none. -/
def lacks (p : Placeholders) (text : String) : Bool :=
  p.output.isNone && Text.isWithin outputToken text

/-- A command with each of its texts filled in one pass.  An argument stays one argument, but
the token of the target stands for all arguments of the invocation. -/
def written (p : Placeholders) : Script.RunSpec → CommandLine
  | .line text => .shell (p.filled text)
  | .argv args => .argv (args.flatMap fun arg =>
      if arg = targetToken then p.target else [p.filled arg])

/-- A command with each of its texts filled in one pass, or the fault of the first text that
names the archive where there is none. -/
def atOnce (p : Placeholders) (spec : Script.RunSpec) : Except Fault CommandLine :=
  match spec.texts.find? p.lacks with
  | some text => .error (noOutputFault text)
  | none => .ok (p.written spec)

variable {p : Placeholders}

/-! ## Tokens -/

theorem marked_targetToken : Marked '\x7b' targetToken.toList :=
  ⟨"target\x7d".toList, by decide, by decide⟩

theorem marked_workdirToken : Marked '\x7b' workdirToken.toList :=
  ⟨"workdir\x7d".toList, by decide, by decide⟩

theorem marked_outputToken : Marked '\x7b' outputToken.toList :=
  ⟨"output\x7d".toList, by decide, by decide⟩

/-- The tokens are told apart by the opening brace. -/
theorem toldApart_fillings (p : Placeholders) : ToldApart '\x7b' p.fillings where
  marked := by
    simp only [fillings, List.forall_mem_cons]
    exact ⟨marked_targetToken, marked_workdirToken, marked_outputToken, nofun⟩
  unique := by
    have htw : ¬ targetToken.toList <+: workdirToken.toList := by decide
    have hto : ¬ targetToken.toList <+: outputToken.toList := by decide
    have hwt : ¬ workdirToken.toList <+: targetToken.toList := by decide
    have hwo : ¬ workdirToken.toList <+: outputToken.toList := by decide
    have hot : ¬ outputToken.toList <+: targetToken.toList := by decide
    have how : ¬ outputToken.toList <+: workdirToken.toList := by decide
    simp [fillings, htw, hto, hwt, hwo, hot, how]

/-- An invocation makes and breaks no token that is filled later. -/
theorem Placed.neutral_target (h : p.Placed) {token : String}
    (htoken : '/' ∉ token.toList ∧ 'j' ∉ token.toList) :
    Neutral '\x7b' token.toList (Text.joinWith " " p.target).toList := by
  refine ⟨h.targetNoBrace, ?_⟩
  rcases h.target with ⟨t, ht⟩ | ⟨t, ht⟩
  · exact ⟨'/', t, ht.symm, htoken.1⟩
  · exact ⟨'j', "ava -jar /".toList ++ t, ht.symm, htoken.2⟩

/-- A directory makes and breaks no archive token. -/
theorem Placed.neutral_workdir (h : p.Placed) :
    Neutral '\x7b' outputToken.toList p.workdir.toList := by
  obtain ⟨t, ht⟩ := h.workdir
  exact ⟨h.workdirNoBrace, '/', t, ht.symm, by decide⟩

/-! ## Texts -/

theorem toList_fillPlaces_eq (p : Placeholders) (text : String) :
    (p.fillPlaces text).toList = Text.replaceAll workdirToken.toList p.workdir.toList
      (Text.replaceAll targetToken.toList (Text.joinWith " " p.target).toList text.toList) := by
  simp only [fillPlaces, Text.replaceIn, String.toList_ofList]

/-- **A text is filled in one pass**, token by token or not. -/
theorem Placed.toList_filled (h : p.Placed) (text : String) :
    (p.filled text).toList = Text.replaceAll outputToken.toList (p.output.getD "").toList
      (p.fillPlaces text).toList := by
  have hall := toldApart_fillings p
  have hworkdir : Neutral '\x7b' workdirToken.toList (Text.joinWith " " p.target).toList :=
    h.neutral_target (by decide)
  have houtput : Neutral '\x7b' outputToken.toList (Text.joinWith " " p.target).toList :=
    h.neutral_target (by decide)
  rw [filled, String.toList_ofList, toList_fillPlaces_eq, fillings,
    Text.substitute_cons hall (List.forall_mem_cons.2
      ⟨hworkdir, List.forall_mem_singleton.2 houtput⟩),
    Text.substitute_cons hall.tail (List.forall_mem_singleton.2 h.neutral_workdir),
    Text.substitute_cons hall.tail.tail (List.forall_mem_nil _), Text.substitute_of_no_fillings]

/-- What is filled in first neither makes nor breaks an archive token. -/
theorem Placed.isWithin_fillPlaces_iff (h : p.Placed) (text : String) :
    Text.isWithin outputToken (p.fillPlaces text) = Text.isWithin outputToken text := by
  rw [Bool.eq_iff_iff, Text.isWithin, Text.isWithin, Text.occursIn_iff_isInfix,
    Text.occursIn_iff_isInfix, toList_fillPlaces_eq,
    Text.infix_replaceAll_iff marked_workdirToken marked_outputToken (by decide) (by decide)
      h.neutral_workdir,
    Text.infix_replaceAll_iff marked_targetToken marked_outputToken (by decide) (by decide)
      (h.neutral_target (by decide))]

/-- A text is filled unless it names the archive where there is none. -/
theorem Placed.expandText_eq (h : p.Placed) (text : String) :
    p.expandText text =
      if p.lacks text then .error (noOutputFault text) else .ok (p.filled text) := by
  have hfilled := h.toList_filled text
  rw [expandText, lacks, h.isWithin_fillPlaces_iff]
  cases hwithin : Text.isWithin outputToken text with
  | false =>
    -- without the token the last replacement does nothing
    have hnot : ¬ outputToken.toList <:+: (p.fillPlaces text).toList := by
      rw [← Text.occursIn_iff_isInfix, ← Text.isWithin, h.isWithin_fillPlaces_iff, hwithin]
      exact Bool.false_ne_true
    rw [Text.replaceAll_eq_self _ hnot, String.toList_inj] at hfilled
    simp [hfilled]
  | true =>
    cases houtput : p.output with
    | none => simp
    | some output =>
      have hreplaced : Text.replaceIn outputToken output (p.fillPlaces text) = p.filled text := by
        rw [← String.toList_inj, hfilled, houtput, Text.replaceIn, String.toList_ofList]
        rfl
      simp [hreplaced]

/-! ## Commands -/

/-- The fault of the first text that cannot be filled is that of the first text that names the
archive where there is none. -/
theorem Placed.findSome?_textFault? (h : p.Placed) (texts : List String) :
    texts.findSome? p.textFault? = (texts.find? p.lacks).map noOutputFault := by
  have hfault : p.textFault? = Option.map noOutputFault ∘ Option.guard (p.lacks ·) := by
    funext text
    have htext := h.expandText_eq text
    cases hlacks : p.lacks text with
    | true =>
      rw [hlacks, if_pos rfl] at htext
      rw [textFault?_eq_some_iff.2 htext, Function.comp_apply, Option.guard, hlacks]
      rfl
    | false =>
      rw [hlacks, if_neg Bool.false_ne_true] at htext
      rw [textFault?_eq_none_iff.2 ⟨_, htext⟩, Function.comp_apply, Option.guard, hlacks]
      rfl
  rw [hfault, ← List.map_findSome?, List.findSome?_guard]

/-- A command whose texts are all filled in one pass. -/
theorem expand_of_filled {spec : Script.RunSpec}
    (h : ∀ text ∈ spec.texts, p.expandText text = .ok (p.filled text)) :
    p.expand spec = .ok (p.written spec) := by
  cases spec with
  | line text =>
    rw [expand, h text (List.mem_singleton_self text)]
    rfl
  | argv args =>
    have hargs : p.expandArgs args = .ok (args.flatMap fun arg =>
        if arg = targetToken then p.target else [p.filled arg]) := by
      rw [Script.RunSpec.texts] at h
      induction args with
      | nil => rfl
      | cons arg rest ih =>
        have hrest := ih fun text htext => h text (by simp_all)
        rw [expandArgs, hrest, List.flatMap_cons]
        by_cases htoken : arg = targetToken
        · rw [expandArg, if_pos htoken, if_pos htoken]
          rfl
        · have harg := h arg (by simp [htoken])
          rw [expandArg, if_neg htoken, if_neg htoken, harg]
          rfl
    rw [expand, hargs]
    rfl

/-- An absolute target without a brace, in an absolute directory without one. -/
theorem placed_of_target {t : Target} {workdir : String} (output : Option String)
    (ht : Path.isAbsolute t.path.toList = true) (htarget : '\x7b' ∉ t.path.toList)
    (hw : Path.isAbsolute workdir.toList = true) (hworkdir : '\x7b' ∉ workdir.toList) :
    Placed ⟨t.invocationArgs, workdir, output⟩ := by
  obtain ⟨u, hu⟩ := List.head?_eq_some_iff.1 (Path.isAbsolute_iff.1 ht)
  obtain ⟨d, hd⟩ := List.head?_eq_some_iff.1 (Path.isAbsolute_iff.1 hw)
  have hstart : "/".toList <+: workdir.toList := ⟨d, hd.symm⟩
  cases hkind : t.kind with
  | executable =>
    have hjoined : Text.joinWith " " t.invocationArgs = t.path := by
      simp [Target.invocationArgs, hkind, Text.joinWith]
    exact ⟨.inl ⟨u, by rw [hjoined, hu]; rfl⟩, hstart, by rwa [hjoined], hworkdir⟩
  | jar =>
    have hjoined : (Text.joinWith " " t.invocationArgs).toList =
        "java -jar ".toList ++ t.path.toList := by
      simp [Target.invocationArgs, hkind, Text.toList_joinWith]
    refine ⟨.inr ⟨u, by rw [hjoined, hu]; rfl⟩, hstart, ?_, hworkdir⟩
    rw [hjoined, List.mem_append]
    exact fun h => h.elim (by decide) htarget

/-- **The placeholders are filled as if in one pass.**  For an invocation that starts with a
slash or with `java -jar /` and a directory that starts with a slash, neither with an opening
brace, and for any archive or none, a command is expanded as one pass over each of its texts
does it.  It cannot be expanded, and that is a fault of usage, exactly if there is no archive
and a text of the script names it. -/
theorem expand_eq_atOnce (h : p.Placed) (spec : Script.RunSpec) :
    p.expand spec = p.atOnce spec ∧
      ((∃ f, p.expand spec = .error f) ↔
        p.output = none ∧ ∃ text ∈ spec.texts, Text.isWithin outputToken text = true) ∧
      ∀ f, p.expand spec = .error f → f.kind = .usage := by
  have hfaults := h.findSome?_textFault? spec.texts
  refine ⟨?_, ?_, fun f => kind_of_expand_eq_error⟩
  · cases hfind : spec.texts.find? p.lacks with
    | some text =>
      rw [hfind] at hfaults
      rw [atOnce, hfind]
      exact expand_eq_error_iff.2 hfaults
    | none =>
      rw [atOnce, hfind]
      refine expand_of_filled fun text htext => ?_
      rw [h.expandText_eq, if_neg (List.find?_eq_none.1 hfind text htext)]
  · simp only [expand_eq_error_iff, hfaults, Option.map_eq_some_iff]
    constructor
    · rintro ⟨f, text, hfind, -⟩
      have hlacks := List.find?_some hfind
      simp only [lacks, Bool.and_eq_true, Option.isNone_iff_eq_none] at hlacks
      exact ⟨hlacks.1, text, List.mem_of_find?_eq_some hfind, hlacks.2⟩
    · rintro ⟨hnone, text, hmem, hwithin⟩
      have hsome : (spec.texts.find? p.lacks).isSome :=
        List.find?_isSome.2 ⟨text, hmem, by simp [lacks, hnone, hwithin]⟩
      obtain ⟨first, hfirst⟩ := Option.isSome_iff_exists.1 hsome
      exact ⟨noOutputFault first, first, hfirst, rfl⟩

/-- A jar with a space in its path, and an archive that is named like the token of the target:
the jar stays one argument, and the name of the archive is not filled.  Without an archive the
last argument cannot be filled. -/
theorem expand_eq_atOnce_jar :
    let t : Target := ⟨"/o/t 1.jar", .jar, "t"⟩
    let p : Placeholders := ⟨t.invocationArgs, "/w", some "\x7btarget\x7d"⟩
    let bare : Placeholders := ⟨t.invocationArgs, "/w", none⟩
    let spec : Script.RunSpec :=
      .argv ["\x7btarget\x7d", "\x7b\x7btarget\x7d", "\x7bworkdir\x7d/\x7boutput\x7d"]
    (p.Placed ∧ bare.Placed) ∧ p.expand spec = p.atOnce spec ∧
      p.expand spec = .ok (.argv ["java", "-jar", "/o/t 1.jar", "\x7bjava -jar /o/t 1.jar",
        "/w/\x7btarget\x7d"]) ∧
      ∃ f, bare.expand spec = .error f ∧ f.kind = .usage := by
  intro t p bare spec
  have hplaced (output : Option String) : Placed ⟨t.invocationArgs, "/w", output⟩ :=
    placed_of_target output (by decide) (by decide) (by decide) (by decide)
  obtain ⟨hatOnce, -, -⟩ := expand_eq_atOnce (hplaced (some "\x7btarget\x7d")) spec
  obtain ⟨-, hfails, husage⟩ := expand_eq_atOnce (hplaced none) spec
  obtain ⟨f, hf⟩ := hfails.2 ⟨rfl, "\x7bworkdir\x7d/\x7boutput\x7d", by decide, by decide⟩
  exact ⟨⟨hplaced _, hplaced _⟩, hatOnce, by decide +kernel, f, hf, husage f hf⟩

end Placeholders
end Walkthrough
