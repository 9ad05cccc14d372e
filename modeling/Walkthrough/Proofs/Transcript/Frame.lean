/-
# The frame of a transcript

A transcript is a frame with bodies in it.  The bodies are what comes from the script, the
commands and the program: documentation, display forms, outputs and the footer.  The frame
is the rest: fences, empty lines, the marker of an empty output and the lines of exit codes.

The parts are kept apart for any type of bodies, so that the same frame can be filled with
texts or with texts that have gaps; filled with the bodies as they are, it is the transcript
(`assemble_documentParts`).
-/

import Mathlib.Data.List.DropRight
import Walkthrough.Transcript.Render

namespace Walkthrough
namespace Transcript

/-! ## What stands in the parts -/

/-- **The body of documentation is its text**, up to the newlines and returns at its end. -/
theorem docBody_spec (text : String) :
    (∃ ends, text.toList = docBody text ++ ends ∧ ∀ c ∈ ends, c = '\n' ∨ c = '\r') ∧
      ∀ c ∈ (docBody text).getLast?, c ≠ '\n' ∧ c ≠ '\r' := by
  have hbody : docBody text = text.toList.rdropWhile isLineEnd := rfl
  rw [hbody]
  refine ⟨⟨text.toList.rtakeWhile isLineEnd, ?_, fun c hc => ?_⟩, fun c hc => ?_⟩
  · exact List.rdropWhile_append_rtakeWhile.symm
  · have hend : isLineEnd c = true := List.mem_rtakeWhile_imp hc
    simpa [isLineEnd] using hend
  · obtain ⟨hne, rfl⟩ := List.mem_getLast?_eq_getLast hc
    simpa [isLineEnd] using List.rdropWhile_last_not isLineEnd text.toList hne

/-- The line of an exit code names it in decimal digits. -/
theorem exitLine_eq (code : UInt8) :
    exitLine code = ("Exit code: " ++ toString code.toNat ++ "\n\n").toList := by
  have hdigits : (toString code.toNat).toList = Nat.toDigits 10 code.toNat := by
    rw [Nat.toString_eq_ofList_toDigits, String.toList_ofList]
  have hends : "\n\n".toList = ['\n', '\n'] := by decide
  rw [String.toList_append, String.toList_append, hdigits, hends]
  unfold exitLine
  rfl

/-! ## Parts -/

variable {β : Type}

/-- A part of a transcript. -/
inductive Part (β : Type) where
  | frame (text : List Char)
  | body (b : β)

/-- The text of a part whose bodies are written by `f`. -/
def Part.text (f : β → List Char) : Part β → List Char
  | .frame text => text
  | .body b => f b

/-- The text of parts whose bodies are written by `f`. -/
def assemble (f : β → List Char) (ps : List (Part β)) : List Char :=
  ps.flatMap (Part.text f)

/-- What a transcript shows of an output. -/
inductive Shown (β : Type) where
  | hidden
  /-- The output is empty. -/
  | marker
  | text (b : β)

/-- The parts of a block. -/
def blockParts (opening : List Char) (b : β) : List (Part β) :=
  [.frame (opening ++ ['\n']), .body b, .frame ('\n' :: fence ++ ['\n', '\n'])]

/-- The parts of documentation. -/
def docParts (b : β) : List (Part β) :=
  [.body b, .frame ['\n', '\n']]

/-- The parts of an output. -/
def outputParts : Shown β → List (Part β)
  | .hidden => []
  | .marker => [.frame (block fence emptyMarker.toList)]
  | .text b => blockParts fence b

/-- The parts of a command. -/
def commandParts (display : β) (shown : Shown β) (code : UInt8) : List (Part β) :=
  blockParts shellFence display ++ outputParts shown
    ++ if code = 0 then [] else [.frame (exitLine code)]

/-- What is shown of the output of a command. -/
def shownOf (r : CommandRecord) : Shown (List Char) :=
  if r.noOutput then .hidden
  else if r.output.isEmpty then .marker
  else .text r.output.toList

/-- The parts of a record. -/
def recordParts : Record → List (Part (List Char))
  | .doc text => docParts (docBody text)
  | .command r => commandParts r.command.display.toList (shownOf r) r.exitCode

/-- The parts of a transcript with its footer, which is a body as a whole. -/
def documentParts (rs : List Record) (identity : String) : List (Part (List Char)) :=
  rs.flatMap recordParts ++ [.body (footer identity).toList]

@[simp] theorem assemble_append (f : β → List Char) (ps ps' : List (Part β)) :
    assemble f (ps ++ ps') = assemble f ps ++ assemble f ps' :=
  List.flatMap_append

@[simp] theorem assemble_blockParts (f : β → List Char) (opening : List Char) (b : β) :
    assemble f (blockParts opening b) = block opening (f b) := by
  simp [assemble, blockParts, Part.text, block]

@[simp] theorem assemble_docParts (f : β → List Char) (b : β) :
    assemble f (docParts b) = f b ++ ['\n', '\n'] := by
  simp [assemble, docParts, Part.text]

@[simp] theorem assemble_frame (f : β → List Char) (text : List Char) :
    assemble f [.frame text] = text := by
  simp [assemble, Part.text]

@[simp] theorem assemble_body (f : β → List Char) (b : β) : assemble f [.body b] = f b := by
  simp [assemble, Part.text]

theorem assemble_flatMap {α : Type} (f : β → List Char) (g : α → List (Part β)) (as : List α) :
    assemble f (as.flatMap g) = as.flatMap fun a => assemble f (g a) := by
  rw [assemble, List.flatMap_assoc]
  rfl

/-- The text of a command is its parts with their bodies. -/
theorem assemble_commandParts (f : β → List Char) (display : β) (shown : Shown β) (code : UInt8) :
    assemble f (commandParts display shown code) =
      block shellFence (f display) ++ assemble f (outputParts shown)
        ++ if code = 0 then [] else exitLine code := by
  rw [commandParts, assemble_append, assemble_append, assemble_blockParts]
  split
  · rfl
  · rw [assemble_frame]

/-- The parts of a record make its text. -/
theorem assemble_recordParts (r : Record) : assemble id (recordParts r) = renderRecord r := by
  cases r with
  | doc text => simp [recordParts, renderRecord]
  | command r =>
    have houtput : assemble id (outputParts (shownOf r)) =
        if r.noOutput then [] else block fence (outputBody r.output) := by
      unfold shownOf outputBody
      cases r.noOutput with
      | true => rfl
      | false =>
        cases r.output.isEmpty with
        | true => simp [outputParts]
        | false => simp [outputParts]
    rw [recordParts, renderRecord, renderCommand, assemble_commandParts, houtput]
    rfl

/-- **The parts make the transcript.** -/
theorem assemble_documentParts (rs : List Record) (identity : String) :
    assemble id (documentParts rs identity) = (withFooter (render rs) identity).toList := by
  rw [documentParts, assemble_append, assemble_flatMap, assemble_body, withFooter, render,
    String.toList_append, String.toList_ofList]
  simp only [assemble_recordParts]
  rfl

end Transcript
end Walkthrough
