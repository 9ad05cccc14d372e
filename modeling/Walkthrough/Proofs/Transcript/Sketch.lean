/-
# Transcripts with the working directory left open

The sketch of a transcript is the transcript with gaps for the working directory: where a
command names it by its placeholder, and where an output repeats it.  The frame, the
documentation and the footer have no gaps.  A sketch is drawn from the records of one play;
filled with the directory of that play it is the transcript, and filled with another
directory it is the transcript of a play that went the same way there (`fill_sketch`).
-/

import Walkthrough.Proofs.Script.Opening
import Walkthrough.Proofs.Transcript.Frame

namespace Walkthrough
namespace Transcript

open Text (Outline)
open Text.Outline (cut fill plain)

variable {β γ : Type}

/-- What is shown with its body rewritten. -/
def Shown.map (f : β → γ) : Shown β → Shown γ
  | .hidden => .hidden
  | .marker => .marker
  | .text b => .text (f b)

/-- The outline of a part. -/
def Part.outline : Part Outline → Outline
  | .frame text => plain text
  | .body o => o

/-- The parts of the record of a step that was played in the directory `w`. -/
def stepParts (target : List String) (w : String) :
    Script.Step → Record → List (Part Outline)
  | .run run, .command r =>
    commandParts (Placeholders.displayOutline target run.spec)
      ((shownOf r).map (cut w.toList)) r.exitCode
  | .run _, .doc _ => []
  | .doc text, _ => docParts (plain (docBody text))

/-- The transcript of steps that were played in the directory `w`, with gaps for it. -/
def sketch (target : List String) (w : String) (steps : List Script.Step) (rs : List Record)
    (identity : String) : Outline :=
  ((steps.zip rs).flatMap fun x => stepParts target w x.1 x.2).flatMap Part.outline ++
    plain (footer identity).toList

theorem fill_flatMap_outline (w : List Char) (ps : List (Part Outline)) :
    fill w (ps.flatMap Part.outline) = assemble (fill w) ps := by
  induction ps with
  | nil => rfl
  | cons p ps ih =>
    have hpart : fill w p.outline = p.text (fill w) := by
      cases p with
      | frame text => exact Text.Outline.fill_plain w text
      | body o => rfl
    rw [List.flatMap_cons, Text.Outline.fill_append, ih, hpart]
    rfl

@[simp] theorem assemble_outputParts_map (f : γ → List Char) (g : β → γ) (shown : Shown β) :
    assemble f (outputParts (shown.map g)) = assemble (f ∘ g) (outputParts shown) := by
  cases shown with
  | hidden => rfl
  | marker => rfl
  | text b => simp [Shown.map, outputParts]

/-- **A sketch is filled record by record**: it makes the transcript of every list of records
that fill the parts of their steps. -/
theorem fill_sketch {target : List String} {w₁ w : String} {steps : List Script.Step}
    {rs₁ rs : List Record} (identity : String)
    (h : List.Forall₂ (fun x r =>
      renderRecord r = assemble (fill w.toList) (stepParts target w₁ x.1 x.2))
      (steps.zip rs₁) rs) :
    fill w.toList (sketch target w₁ steps rs₁ identity) =
      (withFooter (render rs) identity).toList := by
  have hrecords : rs.flatMap renderRecord = assemble (fill w.toList)
      ((steps.zip rs₁).flatMap fun x => stepParts target w₁ x.1 x.2) := by
    rw [assemble_flatMap]
    generalize steps.zip rs₁ = xs at h
    induction h with
    | nil => rfl
    | cons hr _ ih => rw [List.flatMap_cons, List.flatMap_cons, hr, ih]
  rw [sketch, Text.Outline.fill_append, fill_flatMap_outline, Text.Outline.fill_plain, ← hrecords,
    withFooter, render, String.toList_append, String.toList_ofList]

/-- What is shown of an output in which a directory was replaced. -/
theorem shownOf_of_replaceIn {w₁ w : String} (hw : w.toList ≠ []) {r₁ r : CommandRecord}
    (hflag : r.noOutput = r₁.noOutput) (houtput : r.output = Text.replaceIn w₁ w r₁.output) :
    shownOf r = ((shownOf r₁).map (cut w₁.toList)).map (fill w.toList) := by
  have hlist : r.output.toList = fill w.toList (cut w₁.toList r₁.output.toList) := by
    rw [Text.Outline.fill_cut, houtput, Text.replaceIn, String.toList_ofList]
  have hempty : r.output.isEmpty = r₁.output.isEmpty := by
    rw [Bool.eq_iff_iff, String.isEmpty_iff, String.isEmpty_iff, ← String.toList_eq_nil_iff,
      ← String.toList_eq_nil_iff, hlist, Text.Outline.fill_cut, Text.replaceAll_eq_nil_iff hw]
  unfold shownOf
  rw [hflag, hempty, hlist]
  cases r₁.noOutput with
  | true => rfl
  | false => cases r₁.output.isEmpty <;> rfl

/-- A record of a command fills the parts of its step. -/
theorem renderRecord_command {target : List String} {w₁ w : String} (hw : w.toList ≠ [])
    {run : Script.Run} {r₁ r : CommandRecord}
    (hdisplay : r.command.display.toList =
      fill w.toList (Placeholders.displayOutline target run.spec))
    (hflag : r.noOutput = r₁.noOutput) (hcode : r.exitCode = r₁.exitCode)
    (houtput : r.output = Text.replaceIn w₁ w r₁.output) :
    renderRecord (.command r) =
      assemble (fill w.toList) (stepParts target w₁ (.run run) (.command r₁)) := by
  rw [← assemble_recordParts, recordParts, stepParts, assemble_commandParts, assemble_commandParts,
    hdisplay, hcode, shownOf_of_replaceIn hw hflag houtput, assemble_outputParts_map]
  rfl

/-- A record of documentation fills the parts of its step. -/
theorem renderRecord_doc (target : List String) (w₁ w : String) (text : String) (r₁ : Record) :
    renderRecord (.doc text) =
      assemble (fill w.toList) (stepParts target w₁ (.doc text) r₁) := by
  rw [stepParts, assemble_docParts, Text.Outline.fill_plain]
  rfl

end Transcript
end Walkthrough
