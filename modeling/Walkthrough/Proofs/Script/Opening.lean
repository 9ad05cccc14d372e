/-
# Commands with the working directory left open

What a command of a script is displayed as depends on the working directory in one way: the
directory stands in the gaps of an outline that the script and the target fix
(`displayOutline`).  Whether the command can be expanded does not depend on it at all
(`expand_of_not_namesArchive`, `expand_of_namesArchive`), as long as the directory cannot
supply a part of the archive token or a blank that asks for quotes.
-/

import Walkthrough.Path
import Walkthrough.Proofs.Script.Expansion
import Walkthrough.Proofs.Text.Line
import Walkthrough.Proofs.Text.Outline

namespace Walkthrough

open Text (Outline)
open Text.Outline (cut fill plain runs)

namespace Placeholders

/-- A directory that can be told from the text around it: it starts with a slash, and it has
no blank and no opening brace. -/
structure Distinct (w : List Char) : Prop where
  absolute : w.head? = some '/'
  noBlank : ' ' ∉ w
  noBrace : '\x7b' ∉ w

theorem Distinct.ne_nil {w : List Char} (h : Distinct w) : w ≠ [] :=
  List.ne_nil_of_mem (List.mem_of_mem_head? h.absolute)

/-- A text of a script with gaps for the working directory. -/
def textOutline (target : List String) (text : String) : Outline :=
  cut workdirToken.toList (Text.replaceIn targetToken (Text.joinWith " " target) text).toList

/-- What an argument of a script stands for, with gaps for the working directory. -/
def argOutlines (target : List String) (arg : String) : List Outline :=
  if arg = targetToken then target.map fun a => plain a.toList else [textOutline target arg]

/-- An argument as it is displayed. -/
def quotedOutline (o : Outline) : Outline :=
  if some ' ' ∈ o then some '\x22' :: o ++ [some '\x22'] else o

/-- A command as it is displayed, with gaps for the working directory. -/
def displayOutline (target : List String) : Script.RunSpec → Outline
  | .line text => textOutline target text
  | .argv args =>
    [some ' '].intercalate ((args.flatMap (argOutlines target)).map quotedOutline)

/-- A text names the archive, whatever the working directory is. -/
def TextNamesArchive (target : List String) (text : String) : Prop :=
  ∃ run ∈ runs (textOutline target text), outputToken.toList <:+: run

/-- A command names the archive, whatever the working directory is. -/
def NamesArchive (target : List String) : Script.RunSpec → Prop
  | .line text => TextNamesArchive target text
  | .argv args => ∃ arg ∈ args, arg ≠ targetToken ∧ TextNamesArchive target arg

variable {target : List String} {w : String}

/-! ## Texts -/

theorem toList_fillPlaces (p : Placeholders) (text : String) :
    (p.fillPlaces text).toList = fill p.workdir.toList (textOutline p.target text) := by
  rw [textOutline, Text.Outline.fill_cut, fillPlaces, Text.replaceIn, String.toList_ofList]

/-- Filling in the directory does not make the archive token, nor does it break it. -/
theorem isWithin_fillPlaces (hw : Distinct w.toList) (text : String) :
    Text.isWithin outputToken (fillPlaces ⟨target, w, none⟩ text) = true ↔
      TextNamesArchive target text := by
  obtain ⟨t, ht⟩ : ∃ t, w.toList = '/' :: t := List.head?_eq_some_iff.1 hw.absolute
  have htoken : outputToken.toList = '\x7b' :: "output\x7d".toList := by decide
  have hslash : '/' ∉ '\x7b' :: "output\x7d".toList := by decide
  have hbrace := hw.noBrace
  rw [ht] at hbrace
  rw [Text.isWithin, Text.occursIn_iff_isInfix, toList_fillPlaces, TextNamesArchive, htoken, ht]
  exact Text.Outline.infix_fill_iff hslash hbrace _

theorem expandText_of_not (hw : Distinct w.toList) {text : String}
    (h : ¬ TextNamesArchive target text) :
    ∃ filled, expandText ⟨target, w, none⟩ text = .ok filled ∧
      filled.toList = fill w.toList (textOutline target text) := by
  refine ⟨fillPlaces ⟨target, w, none⟩ text, ?_, toList_fillPlaces _ _⟩
  rw [expandText]
  exact if_neg fun hin => h ((isWithin_fillPlaces hw text).1 hin)

theorem expandText_of_names (hw : Distinct w.toList) {text : String}
    (h : TextNamesArchive target text) :
    expandText ⟨target, w, none⟩ text = .error (noOutputFault text) := by
  rw [expandText]
  exact if_pos ((isWithin_fillPlaces hw text).2 h)

/-! ## Arguments -/

theorem expandArg_of_not (hw : Distinct w.toList) {arg : String}
    (h : ¬ (arg ≠ targetToken ∧ TextNamesArchive target arg)) :
    ∃ xs, expandArg ⟨target, w, none⟩ arg = .ok xs ∧
      xs.map String.toList = (argOutlines target arg).map (fill w.toList) := by
  by_cases harg : arg = targetToken
  · refine ⟨target, by rw [expandArg, if_pos harg], ?_⟩
    simp [argOutlines, harg, Function.comp_def]
  · obtain ⟨filled, hfilled, hlist⟩ := expandText_of_not hw fun hin => h ⟨harg, hin⟩
    refine ⟨[filled], ?_, ?_⟩
    · rw [expandArg, if_neg harg, hfilled]
      rfl
    · simp [argOutlines, harg, hlist]

theorem expandArgs_of_not (hw : Distinct w.toList) {args : List String}
    (h : ¬ ∃ arg ∈ args, arg ≠ targetToken ∧ TextNamesArchive target arg) :
    ∃ xs, expandArgs ⟨target, w, none⟩ args = .ok xs ∧
      xs.map String.toList = (args.flatMap (argOutlines target)).map (fill w.toList) := by
  induction args with
  | nil => exact ⟨[], rfl, rfl⟩
  | cons arg args ih =>
    obtain ⟨xs, hxs, hxsList⟩ :=
      expandArg_of_not hw fun harg => h ⟨arg, List.mem_cons_self, harg⟩
    obtain ⟨ys, hys, hysList⟩ :=
      ih fun ⟨arg', hmem, harg'⟩ => h ⟨arg', List.mem_cons_of_mem arg hmem, harg'⟩
    refine ⟨xs ++ ys, ?_, ?_⟩
    · simp [expandArgs, hxs, hys, bind, Except.bind]
    · rw [List.map_append, hxsList, hysList, List.flatMap_cons, List.map_append]

theorem expandArgs_of_names (hw : Distinct w.toList) {args : List String}
    (h : ∃ arg ∈ args, arg ≠ targetToken ∧ TextNamesArchive target arg) :
    ∃ f, expandArgs ⟨target, w, none⟩ args = .error f := by
  induction args with
  | nil =>
    obtain ⟨arg, hmem, -⟩ := h
    exact absurd hmem List.not_mem_nil
  | cons arg args ih =>
    by_cases harg : arg ≠ targetToken ∧ TextNamesArchive target arg
    · have herror : expandArg ⟨target, w, none⟩ arg = .error (noOutputFault arg) := by
        rw [expandArg, if_neg harg.1, expandText_of_names hw harg.2]
        rfl
      exact ⟨noOutputFault arg, by simp [expandArgs, herror, bind, Except.bind]⟩
    · obtain ⟨xs, hxs, -⟩ := expandArg_of_not hw harg
      obtain ⟨arg', hmem, harg'⟩ := h
      have hrest : arg' ∈ args := by
        rcases List.mem_cons.1 hmem with rfl | hmem
        · exact absurd harg' harg
        · exact hmem
      obtain ⟨f, hf⟩ := ih ⟨arg', hrest, harg'⟩
      exact ⟨f, by simp [expandArgs, hxs, hf, bind, Except.bind]⟩

/-! ## Commands -/

theorem mem_fill_iff {c : Char} {w : List Char} (hc : c ∉ w) (o : Outline) :
    c ∈ fill w o ↔ some c ∈ o := by
  induction o with
  | nil => simp
  | cons x o ih =>
    cases x with
    | none => simp [hc, ih]
    | some x => simp [ih]

/-- An argument is quoted as its outline is. -/
theorem toList_displayArg (hw : Distinct w.toList) {arg : String} {o : Outline}
    (h : arg.toList = fill w.toList o) :
    (CommandLine.displayArg arg).toList = fill w.toList (quotedOutline o) := by
  have hblank : CommandLine.needsQuotes arg = true ↔ some ' ' ∈ o := by
    rw [CommandLine.needsQuotes, h, List.contains_iff_mem, mem_fill_iff hw.noBlank]
  unfold CommandLine.displayArg quotedOutline
  by_cases hmem : some ' ' ∈ o
  · rw [if_pos (hblank.2 hmem), if_pos hmem, String.toList_append, String.toList_append, h]
    simp
  · rw [if_neg (mt hblank.1 hmem), if_neg hmem, h]

/-- **A command that does not name the archive** is displayed as its outline with the
working directory in the gaps. -/
theorem expand_of_not_namesArchive (hw : Distinct w.toList) {spec : Script.RunSpec}
    (h : ¬ NamesArchive target spec) :
    ∃ c, expand ⟨target, w, none⟩ spec = .ok c ∧
      c.display.toList = fill w.toList (displayOutline target spec) := by
  cases spec with
  | line text =>
    obtain ⟨filled, hfilled, hlist⟩ := expandText_of_not hw h
    refine ⟨.shell filled, ?_, hlist⟩
    rw [expand, hfilled]
    rfl
  | argv args =>
    obtain ⟨xs, hxs, hlist⟩ := expandArgs_of_not hw h
    refine ⟨.argv xs, ?_, ?_⟩
    · rw [expand, hxs]
      rfl
    · -- the arguments and their outlines go in step
      have hshown : ∀ (xs : List String) (os : List Outline),
          xs.map String.toList = os.map (fill w.toList) →
          (xs.map CommandLine.displayArg).map String.toList =
            (os.map quotedOutline).map (fill w.toList) := by
        intro xs os hxs
        induction xs generalizing os with
        | nil =>
          obtain rfl : os = [] := List.map_eq_nil_iff.1 hxs.symm
          rfl
        | cons x xs ih =>
          obtain ⟨o, os', rfl, ho, hos⟩ := List.map_eq_cons_iff.1 hxs.symm
          rw [List.map_cons, List.map_cons, List.map_cons, List.map_cons,
            toList_displayArg hw ho.symm, ih os' hos.symm]
      rw [CommandLine.display, Text.toList_joinWith, hshown xs _ hlist, displayOutline,
        Text.Outline.fill_intercalate]
      rfl

/-- A command that names the archive does not expand without one. -/
theorem expand_of_namesArchive (hw : Distinct w.toList) {spec : Script.RunSpec}
    (h : NamesArchive target spec) : ∃ f, expand ⟨target, w, none⟩ spec = .error f := by
  cases spec with
  | line text =>
    refine ⟨noOutputFault text, ?_⟩
    rw [expand, expandText_of_names hw h]
    rfl
  | argv args =>
    obtain ⟨f, hf⟩ := expandArgs_of_names hw h
    refine ⟨f, ?_⟩
    rw [expand, hf]
    rfl

end Placeholders
end Walkthrough
