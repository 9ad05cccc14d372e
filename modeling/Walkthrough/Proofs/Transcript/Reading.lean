/-
# Reading a transcript back

A reader goes through a transcript line by line.

| where | line | what the reader does |
| --- | --- | --- |
| outside a block | the fence marked `shell` | opens a command block |
| outside a block | the fence | opens a plain block, which belongs to the last command |
| outside a block | `Exit code:` and a number | gives the number to the last command |
| inside a block | the fence | closes the block |
| inside a block | any other | adds the line to the block |

Fences in a body are not escaped, so a body that holds a fence line is cut there.  Nothing
else goes wrong: `readBack_render_iff` says that a transcript is read back exactly when no
body holds one.  What one record does to the reader is `foldl_line_record`; for the
converse no reader ever finds a body with a fence line (`Reader.Fenceless.foldl`).
-/

import Mathlib.Data.List.Basic
import Walkthrough.Proofs.Session.Fate
import Walkthrough.Proofs.Text.Line
import Walkthrough.Transcript.Render

namespace Walkthrough
namespace Transcript

open Text (joinLines splitLines)

/-! ## The reader -/

/-- What a reader finds of a command. -/
structure Reading where
  display : String
  /-- The plain blocks behind the command block. -/
  outputs : List String := []
  exitCode : Nat := 0
deriving DecidableEq, Repr

/-- What a block belongs to. -/
inductive BlockKind where
  | command
  | output
deriving DecidableEq, Repr

/-- The commands found so far, and the block that is open with its lines. -/
structure Reader where
  found : List Reading := []
  opened : Option (BlockKind × List (List Char)) := none
deriving Repr

/-- The last element changed, if there is one. -/
def onLast {α : Type} (f : α → α) : List α → List α
  | [] => []
  | [a] => [f a]
  | a :: b :: rest => a :: onLast f (b :: rest)

/-- How a line that names an exit code starts. -/
def exitOpening : List Char := "Exit code: ".toList

/-- The exit code that a line names. -/
def exitCode? (l : List Char) : Option Nat :=
  let digits := l.drop exitOpening.length
  if exitOpening.isPrefixOf l && !digits.isEmpty && digits.all Char.isDigit then
    some (Nat.ofDigitChars 10 digits 0)
  else none

/-- The commands found behind a block. -/
def closeBlock (found : List Reading) (kind : BlockKind) (body : String) : List Reading :=
  match kind with
  | .command => found ++ [{ display := body }]
  | .output => onLast (fun r => { r with outputs := r.outputs ++ [body] }) found

/-- The reader behind a line. -/
def Reader.line (s : Reader) (l : List Char) : Reader :=
  match s.opened with
  | none =>
    if l = shellFence then { s with opened := some (.command, []) }
    else if l = fence then { s with opened := some (.output, []) }
    else match exitCode? l with
      | some n => { s with found := onLast (fun r => { r with exitCode := n }) s.found }
      | none => s
  | some (kind, ls) =>
    if l = fence then ⟨closeBlock s.found kind (String.ofList (joinLines ls)), none⟩
    else { s with opened := some (kind, ls ++ [l]) }

/-- The commands that a reader finds in a transcript. -/
def readBack (doc : String) : List Reading :=
  ((splitLines doc.toList).foldl Reader.line {}).found

/-- What there is to find of a command. -/
def readingOf (r : CommandRecord) : Reading where
  display := r.command.display
  outputs := if r.noOutput then [] else [String.ofList (outputBody r.output)]
  exitCode := r.exitCode.toNat

/-- No line of the text is a fence. -/
def HasNoFence (s : List Char) : Prop :=
  fence ∉ splitLines s

/-- Documentation that a reader passes over. -/
def IsProse (text : String) : Prop :=
  ∀ l ∈ splitLines (docBody text), l ≠ fence ∧ l ≠ shellFence ∧ ¬ exitOpening <+: l

/-! ## The lines of a record -/

@[simp] theorem onLast_append {α : Type} (f : α → α) (as : List α) (a : α) :
    onLast f (as ++ [a]) = as ++ [f a] := by
  induction as with
  | nil => rfl
  | cons b as ih =>
    cases as with
    | nil => rfl
    | cons c as => exact congrArg (b :: ·) ih

theorem exitOpening_eq : exitOpening = 'E' :: "xit code: ".toList := by decide

theorem exitCode?_eq_none {l : List Char} (h : ¬ exitOpening <+: l) : exitCode? l = none := by
  have hstart : exitOpening.isPrefixOf l = false := by
    rwa [← Bool.not_eq_true, List.isPrefixOf_iff_prefix]
  simp [exitCode?, hstart]

/-- The number of an exit code line is the one that was written. -/
theorem exitCode?_append (n : Nat) : exitCode? (exitOpening ++ Nat.toDigits 10 n) = some n := by
  have hstart : exitOpening.isPrefixOf (exitOpening ++ Nat.toDigits 10 n) = true :=
    List.isPrefixOf_iff_prefix.2 (List.prefix_append _ _)
  have hdigits : (Nat.toDigits 10 n).all Char.isDigit = true :=
    List.all_eq_true.2 fun c hc => Nat.isDigit_of_mem_toDigits (by decide) (by decide) hc
  simp [exitCode?, hstart, hdigits, Nat.toDigits_ne_nil]

theorem newline_not_mem_exitLine (n : Nat) : '\n' ∉ exitOpening ++ Nat.toDigits 10 n := by
  rw [List.mem_append, not_or]
  refine ⟨by decide, fun hmem => ?_⟩
  have hdigit : '\n'.isDigit = true := Nat.isDigit_of_mem_toDigits (by decide) (by decide) hmem
  exact absurd hdigit (by decide)

/-- The lines of a block: its fence, those of its body, the fence and an empty one. -/
theorem splitLines_block {opening : List Char} (hopening : '\n' ∉ opening)
    (body rest : List Char) :
    splitLines (block opening body ++ rest) =
      opening :: (splitLines body ++ fence :: [] :: splitLines rest) := by
  have hshape : block opening body ++ rest =
      opening ++ '\n' :: (body ++ '\n' :: (fence ++ '\n' :: '\n' :: rest)) := by
    simp [block]
  have hfence : '\n' ∉ fence := by decide
  rw [hshape, Text.splitLines_append, Text.splitLines_append, Text.splitLines_append,
    Text.splitLines_cons_newline, Text.splitLines_of_not_mem hopening,
    Text.splitLines_of_not_mem hfence]
  rfl

/-! ## Reading a record -/

/-- An empty line outside a block changes nothing. -/
theorem Reader.line_empty (found : List Reading) :
    Reader.line ⟨found, none⟩ [] = ⟨found, none⟩ := rfl

/-- A body without fence lines is collected. -/
theorem Reader.foldl_line_body {body : List (List Char)} (h : fence ∉ body)
    (found : List Reading) (kind : BlockKind) (ls : List (List Char)) :
    body.foldl Reader.line ⟨found, some (kind, ls)⟩ = ⟨found, some (kind, ls ++ body)⟩ := by
  induction body generalizing ls with
  | nil => rw [List.foldl_nil, List.append_nil]
  | cons l body ih =>
    rw [List.mem_cons, not_or] at h
    have hl : Reader.line ⟨found, some (kind, ls)⟩ l = ⟨found, some (kind, ls ++ [l])⟩ := by
      rw [Reader.line]
      exact if_neg (Ne.symm h.1)
    rw [List.foldl_cons, hl, ih h.2, List.append_assoc, List.singleton_append]

/-- The lines of a block without fence lines in its body add the body. -/
theorem Reader.foldl_line_block {body : List Char} (h : HasNoFence body) (rest : List Char)
    (found : List Reading) :
    (splitLines (block shellFence body ++ rest)).foldl Reader.line ⟨found, none⟩ =
        (splitLines rest).foldl Reader.line
          ⟨closeBlock found .command (String.ofList body), none⟩ ∧
      (splitLines (block fence body ++ rest)).foldl Reader.line ⟨found, none⟩ =
        (splitLines rest).foldl Reader.line
          ⟨closeBlock found .output (String.ofList body), none⟩ := by
  have hclose (kind : BlockKind) :
      (splitLines body ++ fence :: [] :: splitLines rest).foldl Reader.line
          ⟨found, some (kind, [])⟩ =
        (splitLines rest).foldl Reader.line ⟨closeBlock found kind (String.ofList body), none⟩ := by
    rw [List.foldl_append, Reader.foldl_line_body h, List.nil_append, List.foldl_cons,
      List.foldl_cons]
    have hline : Reader.line ⟨found, some (kind, splitLines body)⟩ fence =
        ⟨closeBlock found kind (String.ofList body), none⟩ := by
      rw [Reader.line]
      dsimp only
      rw [if_pos rfl, Text.joinLines_splitLines]
    rw [hline, Reader.line_empty]
  have hshell : '\n' ∉ shellFence := by decide
  have hfence : '\n' ∉ fence := by decide
  constructor
  · rw [splitLines_block hshell, List.foldl_cons]
    exact hclose .command
  · rw [splitLines_block hfence, List.foldl_cons]
    exact hclose .output

/-- Lines that mean nothing outside a block change nothing. -/
theorem Reader.foldl_line_prose {ls : List (List Char)}
    (h : ∀ l ∈ ls, l ≠ fence ∧ l ≠ shellFence ∧ ¬ exitOpening <+: l) (found : List Reading) :
    ls.foldl Reader.line ⟨found, none⟩ = ⟨found, none⟩ := by
  induction ls with
  | nil => rfl
  | cons l ls ih =>
    obtain ⟨hfence, hshell, hexit⟩ := h l List.mem_cons_self
    have hl : Reader.line ⟨found, none⟩ l = ⟨found, none⟩ := by
      simp [Reader.line, hfence, hshell, exitCode?_eq_none hexit]
    rw [List.foldl_cons, hl, ih fun k hk => h k (List.mem_cons_of_mem l hk)]

/-- The line of an exit code goes to the last command. -/
theorem Reader.foldl_line_exit (code : UInt8) (rest : List Char) (found : List Reading)
    (r : Reading) :
    (splitLines (exitLine code ++ rest)).foldl Reader.line ⟨found ++ [r], none⟩ =
      (splitLines rest).foldl Reader.line
        ⟨found ++ [{ r with exitCode := code.toNat }], none⟩ := by
  have hshape : exitLine code ++ rest =
      (exitOpening ++ Nat.toDigits 10 code.toNat) ++ '\n' :: '\n' :: rest := by
    show exitOpening ++ Nat.toDigits 10 code.toNat ++ ['\n', '\n'] ++ rest = _
    rw [List.append_assoc]
    rfl
  -- the line is no fence: it starts with a letter
  have hne (l : List Char) (hl : l.head? ≠ some 'E') :
      exitOpening ++ Nat.toDigits 10 code.toNat ≠ l := by
    rintro rfl
    rw [exitOpening_eq] at hl
    exact hl rfl
  have hline : Reader.line ⟨found ++ [r], none⟩ (exitOpening ++ Nat.toDigits 10 code.toNat) =
      ⟨found ++ [{ r with exitCode := code.toNat }], none⟩ := by
    rw [Reader.line]
    dsimp only
    rw [if_neg (hne _ (by decide)), if_neg (hne _ (by decide)), exitCode?_append]
    dsimp only
    rw [onLast_append]
  rw [hshape, Text.splitLines_append, Text.splitLines_of_not_mem (newline_not_mem_exitLine _),
    Text.splitLines_cons_newline, List.singleton_append, List.foldl_cons, List.foldl_cons, hline,
    Reader.line_empty]

/-- The bodies of a command that a transcript shows hold no fence line. -/
def Fenceless (r : CommandRecord) : Prop :=
  HasNoFence r.command.display.toList ∧ (r.noOutput = false → HasNoFence r.output.toList)

/-- The body of an output block is the output, or a line that is no fence. -/
theorem hasNoFence_outputBody_iff (output : String) :
    HasNoFence (outputBody output) ↔ HasNoFence output.toList := by
  unfold outputBody
  split
  · rename_i hempty
    obtain rfl : output = "" := by simpa using hempty
    have hmarker : HasNoFence emptyMarker.toList := by
      unfold HasNoFence
      decide
    have hnothing : HasNoFence "".toList := by
      unfold HasNoFence
      decide
    exact ⟨fun _ => hnothing, fun _ => hmarker⟩
  · rfl

/-- **What a command does to a reader** when none of its bodies holds a fence line: it is
found, with its output and its exit code. -/
theorem Reader.foldl_line_command {r : CommandRecord} (h : Fenceless r) (rest : List Char)
    (found : List Reading) :
    (splitLines (renderCommand r ++ rest)).foldl Reader.line ⟨found, none⟩ =
      (splitLines rest).foldl Reader.line ⟨found ++ [readingOf r], none⟩ := by
  -- the exit code comes last, whatever the command was found with before
  have hexit (seen : Reading) (hseen : seen.exitCode = 0) :
      (splitLines ((if r.exitCode = 0 then [] else exitLine r.exitCode) ++ rest)).foldl
          Reader.line ⟨found ++ [seen], none⟩ =
        (splitLines rest).foldl Reader.line
          ⟨found ++ [{ seen with exitCode := r.exitCode.toNat }], none⟩ := by
    by_cases hzero : r.exitCode = 0
    · rw [if_pos hzero, List.nil_append, hzero]
      obtain ⟨display, outputs, code⟩ := seen
      obtain rfl : code = 0 := hseen
      rfl
    · rw [if_neg hzero, Reader.foldl_line_exit]
  rw [renderCommand, List.append_assoc, List.append_assoc,
    (Reader.foldl_line_block h.1 _ found).1]
  cases hshown : r.noOutput with
  | true =>
    rw [if_pos rfl, List.nil_append, closeBlock, hexit _ rfl]
    simp [readingOf, hshown]
  | false =>
    have hbody : HasNoFence (outputBody r.output) :=
      (hasNoFence_outputBody_iff r.output).2 (h.2 hshown)
    rw [if_neg Bool.false_ne_true, (Reader.foldl_line_block hbody _ _).2, closeBlock, closeBlock,
      onLast_append, hexit _ rfl]
    simp [readingOf, hshown]

/-- Documentation that is prose does nothing to a reader. -/
theorem Reader.foldl_line_doc {text : String} (h : IsProse text) (rest : List Char)
    (found : List Reading) :
    (splitLines (docBody text ++ ['\n', '\n'] ++ rest)).foldl Reader.line ⟨found, none⟩ =
      (splitLines rest).foldl Reader.line ⟨found, none⟩ := by
  have hshape : docBody text ++ ['\n', '\n'] ++ rest = docBody text ++ '\n' :: '\n' :: rest := by
    simp
  rw [hshape, Text.splitLines_append, Text.splitLines_cons_newline, List.foldl_append,
    Reader.foldl_line_prose h, List.foldl_cons, Reader.line_empty]

/-- Reading goes through the records of a session one by one. -/
theorem Reader.foldl_line_records {rs : List Record}
    (hdocs : ∀ text, Record.doc text ∈ rs → IsProse text)
    (hcommands : ∀ r ∈ Record.commands rs, Fenceless r) (found : List Reading) :
    (splitLines (rs.flatMap renderRecord)).foldl Reader.line ⟨found, none⟩ =
      ⟨found ++ (Record.commands rs).map readingOf, none⟩ := by
  induction rs generalizing found with
  | nil => exact congrArg (Reader.mk · none) (List.append_nil found).symm
  | cons r rs ih =>
    have hrest := ih (fun text hmem => hdocs text (List.mem_cons_of_mem r hmem))
    rw [List.flatMap_cons]
    cases r with
    | doc text =>
      rw [renderRecord, Reader.foldl_line_doc (hdocs text List.mem_cons_self)]
      exact hrest hcommands found
    | command r =>
      rw [renderRecord, Reader.foldl_line_command (hcommands r List.mem_cons_self),
        hrest (fun r' hr' => hcommands r' (List.mem_cons_of_mem r hr')), List.append_assoc]
      rfl

/-! ## What a reader never finds -/

/-- No body that was found holds a fence line, and no line that was collected is one. -/
structure Reader.Fenceless (s : Reader) : Prop where
  found : ∀ r ∈ s.found, HasNoFence r.display.toList ∧ ∀ o ∈ r.outputs, HasNoFence o.toList
  opened : ∀ kind ls, s.opened = some (kind, ls) → ∀ l ∈ ls, '\n' ∉ l ∧ l ≠ fence

/-- Collected lines are a body without fence lines. -/
theorem hasNoFence_joinLines {ls : List (List Char)} (h : ∀ l ∈ ls, '\n' ∉ l ∧ l ≠ fence) :
    HasNoFence (joinLines ls) := by
  by_cases hne : ls = []
  · subst hne
    unfold HasNoFence
    decide
  · rw [HasNoFence, Text.splitLines_joinLines hne fun l hl => (h l hl).1]
    exact fun hfence => (h fence hfence).2 rfl

theorem mem_onLast {α : Type} {f : α → α} {as : List α} {a : α} (h : a ∈ onLast f as) :
    a ∈ as ∨ ∃ b ∈ as, a = f b := by
  rcases List.eq_nil_or_concat as with rfl | ⟨init, b, rfl⟩
  · exact absurd h List.not_mem_nil
  · rw [List.concat_eq_append] at h ⊢
    rw [onLast_append] at h
    rcases List.mem_append.1 h with h | h
    · exact .inl (List.mem_append_left _ h)
    · exact .inr ⟨b, by simp, List.mem_singleton.1 h⟩

theorem Reader.Fenceless.line {s : Reader} (h : s.Fenceless) {l : List Char} (hl : '\n' ∉ l) :
    (s.line l).Fenceless := by
  obtain ⟨found, opened⟩ := s
  cases opened with
  | none =>
    rw [Reader.line]
    dsimp only
    split_ifs with hshell hfence
    · exact ⟨h.found, fun kind ls hls => by cases hls; simp⟩
    · exact ⟨h.found, fun kind ls hls => by cases hls; simp⟩
    · cases hexit : exitCode? l with
      | none => exact h
      | some n =>
        refine ⟨fun r hr => ?_, h.opened⟩
        rcases mem_onLast hr with hr | ⟨r', hr', rfl⟩
        · exact h.found r hr
        · exact h.found r' hr'
  | some block =>
    obtain ⟨kind, ls⟩ := block
    have hlines := h.opened kind ls rfl
    rw [Reader.line]
    dsimp only
    split_ifs with hfence
    · have hbody : HasNoFence (String.ofList (joinLines ls)).toList := by
        rw [String.toList_ofList]
        exact hasNoFence_joinLines hlines
      refine ⟨fun r hr => ?_, fun kind ls hls => by cases hls⟩
      cases kind with
      | command =>
        rcases List.mem_append.1 hr with hr | hr
        · exact h.found r hr
        · obtain rfl := List.mem_singleton.1 hr
          exact ⟨hbody, fun o ho => absurd ho List.not_mem_nil⟩
      | output =>
        rcases mem_onLast hr with hr | ⟨r', hr', rfl⟩
        · exact h.found r hr
        · refine ⟨(h.found r' hr').1, fun o ho => ?_⟩
          rcases List.mem_append.1 ho with ho | ho
          · exact (h.found r' hr').2 o ho
          · obtain rfl := List.mem_singleton.1 ho
            exact hbody
    · refine ⟨h.found, fun kind' ls' hls => ?_⟩
      obtain ⟨rfl, rfl⟩ := Prod.mk.inj (Option.some.inj hls)
      intro k hk
      rcases List.mem_append.1 hk with hk | hk
      · exact hlines k hk
      · obtain rfl := List.mem_singleton.1 hk
        exact ⟨hl, hfence⟩

/-- **Readers never find a fence line**: whatever the lines are. -/
theorem Reader.Fenceless.foldl {ls : List (List Char)} (hls : ∀ l ∈ ls, '\n' ∉ l) {s : Reader}
    (h : s.Fenceless) : (ls.foldl Reader.line s).Fenceless := by
  induction ls generalizing s with
  | nil => exact h
  | cons l ls ih =>
    exact ih (fun k hk => hls k (List.mem_cons_of_mem l hk)) (h.line (hls l List.mem_cons_self))

theorem readBack_hasNoFence (doc : String) {r : Reading} (hr : r ∈ readBack doc) :
    HasNoFence r.display.toList ∧ ∀ o ∈ r.outputs, HasNoFence o.toList :=
  (Reader.Fenceless.foldl (fun _ hl => Text.newline_not_mem_of_mem_splitLines hl)
    ⟨fun _ hmem => absurd hmem List.not_mem_nil, fun _ _ hnone => by cases hnone⟩).found r hr

/-- **When a transcript can be read back.**  Let the documentation be prose: no line of it is
a fence, with or without the mark, or starts as an exit code line does.  Then a reader finds
the commands of the session in order, each with its display form, with one output block that
holds its output (or the marker of an empty one) exactly if it is shown, and with its exit
code, if and only if no display form and no output that is shown has a line that is a fence. -/
theorem readBack_render_iff (rs : List Record)
    (hdocs : ∀ text, Record.doc text ∈ rs → IsProse text) :
    readBack (render rs) = (Record.commands rs).map readingOf ↔
      ∀ r ∈ Record.commands rs, HasNoFence r.command.display.toList ∧
        (r.noOutput = false → HasNoFence r.output.toList) := by
  constructor
  · intro hread r hr
    have hfound : readingOf r ∈ readBack (render rs) := hread ▸ List.mem_map_of_mem hr
    obtain ⟨hdisplay, houtputs⟩ := readBack_hasNoFence _ hfound
    refine ⟨hdisplay, fun hshown => ?_⟩
    have hbody := houtputs (String.ofList (outputBody r.output)) (by simp [readingOf, hshown])
    rwa [String.toList_ofList, hasNoFence_outputBody_iff] at hbody
  · intro hfenceless
    rw [readBack, render, String.toList_ofList]
    exact congrArg Reader.found (Reader.foldl_line_records hdocs hfenceless [])

/-- A session with prose, a tolerated failure and an output that is left out is read back. -/
theorem readBack_render_session :
    let rs : List Record := [.doc "# Title\n", .command ⟨.shell "a\nb", true, false, 3, ""⟩,
      .command ⟨.argv ["c", "d e"], false, true, 0, "\x60\x60\x60"⟩]
    (∀ text, Record.doc text ∈ rs → IsProse text) ∧
      readBack (render rs) =
        [⟨"a\nb", ["(no output)"], 3⟩, ⟨"c \x22d e\x22", [], 0⟩] := by
  intro rs
  have hdocs : ∀ text, Record.doc text ∈ rs → IsProse text := by
    intro text hmem
    obtain rfl : text = "# Title\n" := by simpa [rs] using hmem
    unfold IsProse
    decide +kernel
  refine ⟨hdocs, ((readBack_render_iff rs hdocs).2 ?_).trans (by decide +kernel)⟩
  unfold HasNoFence
  decide +kernel

end Transcript
end Walkthrough
