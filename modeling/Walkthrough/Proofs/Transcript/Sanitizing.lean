/-
# Sanitizing keeps the frame

The three rules of a target write paths out of a transcript.  Their sources are paths, or
end in one: each holds a slash and none holds a newline.  So a rule goes through a text line
by line, whatever it writes (`Linewise.newline`), and leaves lines without a slash alone
(`Linewise.slashless`); rules in a row do the same (`Linewise.comp`).  All lines of the
frame of a transcript are without a slash, so sanitizing the whole is sanitizing every body
on its own (`sanitized_frame`).
-/

import Walkthrough.Build
import Walkthrough.Proofs.Path
import Walkthrough.Proofs.Text.Replace
import Walkthrough.Proofs.Transcript.Frame
import Walkthrough.Proofs.Transcript.Rules

namespace Walkthrough

/-! ## Rules on characters -/

namespace SubstitutionTable

/-- The characters of a text after all rules. -/
def rewrite (t : SubstitutionTable) (s : List Char) : List Char :=
  (t.apply (String.ofList s)).toList

/-- The characters of a text after one rule. -/
def rewriteRule (r : Rule) (s : List Char) : List Char :=
  Text.replaceAll r.source.toList r.replacement.toList s

/-- Rules with an empty source change nothing, so none needs to be left out. -/
theorem toList_apply (t : SubstitutionTable) (text : String) :
    (t.apply text).toList = t.foldl (fun s r => rewriteRule r s) text.toList := by
  unfold apply
  induction t generalizing text with
  | nil => rfl
  | cons r t ih =>
    by_cases hempty : r.source.isEmpty = true
    · have hsource : r.source.toList = [] := by
        rw [String.isEmpty_iff.1 hempty]
        rfl
      rw [List.filter_cons_of_neg (by simp [hempty]), ih, List.foldl_cons, rewriteRule, hsource,
        Text.replaceAll_nil_left]
    · rw [List.filter_cons_of_pos (by simpa using hempty), List.foldl_cons, List.foldl_cons, ih,
        toList_applyRule, rewriteRule]

theorem rewrite_cons (r : Rule) (t : SubstitutionTable) (s : List Char) :
    rewrite (r :: t) s = rewrite t (rewriteRule r s) := by
  rw [rewrite, rewrite, toList_apply, toList_apply, String.toList_ofList, String.toList_ofList,
    List.foldl_cons]

@[simp] theorem rewrite_nil (s : List Char) : rewrite [] s = s := by
  rw [rewrite, toList_apply, String.toList_ofList, List.foldl_nil]

end SubstitutionTable

namespace Transcript

open SubstitutionTable (rewrite rewriteRule)

/-! ## Line by line -/

/-- A rewriting that goes through a text line by line and leaves lines without a slash
alone. -/
structure Linewise (f : List Char → List Char) : Prop where
  newline : ∀ a b, f (a ++ '\n' :: b) = f a ++ '\n' :: f b
  slashless : ∀ s, '/' ∉ s → f s = s

namespace Linewise

theorem refl : Linewise id where
  newline _ _ := rfl
  slashless _ _ := rfl

theorem comp {f g : List Char → List Char} (hf : Linewise f) (hg : Linewise g) :
    Linewise (f ∘ g) where
  newline a b := by simp only [Function.comp_apply, hg.newline, hf.newline]
  slashless s hs := by rw [Function.comp_apply, hg.slashless s hs, hf.slashless s hs]

/-- A rule whose source is a path without newlines, or ends in one, goes line by line. -/
theorem of_rule {r : Rule} (hslash : '/' ∈ r.source.toList) (hline : '\n' ∉ r.source.toList) :
    Linewise (rewriteRule r) where
  newline a b := Text.replaceAll_append_cons _ hline a b
  slashless _ hs := Text.replaceAll_eq_self _ fun hin => hs (hin.subset hslash)

/-- Rules of which each goes line by line do so in a row. -/
theorem of_table {t : SubstitutionTable}
    (h : ∀ r ∈ t, '/' ∈ r.source.toList ∧ '\n' ∉ r.source.toList) : Linewise (rewrite t) := by
  induction t with
  | nil =>
    have hnil : rewrite [] = id := funext SubstitutionTable.rewrite_nil
    exact hnil ▸ refl
  | cons r t ih =>
    have hcons : rewrite (r :: t) = rewrite t ∘ rewriteRule r :=
      funext (SubstitutionTable.rewrite_cons r t)
    obtain ⟨hslash, hline⟩ := h r List.mem_cons_self
    rw [hcons]
    exact (ih fun r' hr' => h r' (List.mem_cons_of_mem r hr')).comp (of_rule hslash hline)

/-! ## The frame -/

variable {f : List Char → List Char}

/-- A block is written as a block around its body. -/
theorem block_append (hf : Linewise f) {opening : List Char} (hopening : '/' ∉ opening)
    (body rest : List Char) :
    f (block opening body ++ rest) = block opening (f body) ++ f rest := by
  have hshape (b s : List Char) : block opening b ++ s =
      opening ++ '\n' :: (b ++ '\n' :: (fence ++ '\n' :: ([] ++ '\n' :: s))) := by
    simp [block]
  have hfence : '/' ∉ fence := by decide
  rw [hshape, hshape, hf.newline, hf.newline, hf.newline, hf.newline, hf.slashless _ hopening,
    hf.slashless _ hfence, hf.slashless [] List.not_mem_nil]

/-- The line of an exit code stays. -/
theorem exitLine_append (hf : Linewise f) (code : UInt8) (rest : List Char) :
    f (exitLine code ++ rest) = exitLine code ++ f rest := by
  have hshape (s : List Char) : exitLine code ++ s =
      ("Exit code: ".toList ++ Nat.toDigits 10 code.toNat) ++ '\n' :: ([] ++ '\n' :: s) := by
    show "Exit code: ".toList ++ Nat.toDigits 10 code.toNat ++ ['\n', '\n'] ++ s = _
    rw [List.append_assoc]
    rfl
  have hslash : '/' ∉ "Exit code: ".toList ++ Nat.toDigits 10 code.toNat := by
    rw [List.mem_append, not_or]
    refine ⟨by decide, fun hmem => ?_⟩
    have hdigit : '/'.isDigit = true := Nat.isDigit_of_mem_toDigits (by decide) (by decide) hmem
    exact absurd hdigit (by decide)
  rw [hshape, hshape, hf.newline, hf.newline, hf.slashless _ hslash,
    hf.slashless [] List.not_mem_nil]

/-- What is shown of an output keeps its frame. -/
theorem outputParts_append (hf : Linewise f) (shown : Shown (List Char)) (rest : List Char) :
    f (assemble id (outputParts shown) ++ rest) = assemble f (outputParts shown) ++ f rest := by
  have hfence : '/' ∉ fence := by decide
  cases shown with
  | hidden => rfl
  | marker =>
    have hmarker : '/' ∉ emptyMarker.toList := by decide
    rw [outputParts, assemble_frame, assemble_frame, hf.block_append hfence,
      hf.slashless _ hmarker]
  | text b =>
    rw [outputParts, assemble_blockParts, assemble_blockParts, hf.block_append hfence]
    rfl

/-- **One record**: the frame stays, and each body is written on its own. -/
theorem recordParts_append (hf : Linewise f) (r : Record) (rest : List Char) :
    f (assemble id (recordParts r) ++ rest) = assemble f (recordParts r) ++ f rest := by
  cases r with
  | doc text =>
    have hshape (s : List Char) :
        s ++ ['\n', '\n'] ++ rest = s ++ '\n' :: ([] ++ '\n' :: rest) := by
      simp
    rw [recordParts, assemble_docParts, assemble_docParts, hshape, hf.newline, hf.newline,
      hf.slashless [] List.not_mem_nil]
    simp
  | command r =>
    have hshell : '/' ∉ shellFence := by decide
    have hcode (s : List Char) :
        f ((if r.exitCode = 0 then [] else exitLine r.exitCode) ++ s) =
          (if r.exitCode = 0 then [] else exitLine r.exitCode) ++ f s := by
      split
      · rfl
      · exact hf.exitLine_append r.exitCode s
    rw [recordParts, assemble_commandParts, assemble_commandParts, List.append_assoc,
      List.append_assoc, hf.block_append hshell, hf.outputParts_append, hcode]
    simp

/-- Records one by one. -/
theorem documentParts_eq (hf : Linewise f) (rs : List Record) (identity : String) :
    f (assemble id (documentParts rs identity)) = assemble f (documentParts rs identity) := by
  rw [documentParts, assemble_append, assemble_append, assemble_body, assemble_body]
  induction rs with
  | nil => rfl
  | cons r rs ih =>
    rw [List.flatMap_cons, assemble_append, assemble_append, List.append_assoc, List.append_assoc,
      hf.recordParts_append, ih]

end Linewise

/-! ## The table of a target -/

section

variable {t : Target}

/-- The invocation of a target ends in its path. -/
theorem toList_invocation (t : Target) :
    t.invocation.toList =
      (match t.kind with
        | .jar => "java -jar ".toList
        | .executable => []) ++ t.path.toList := by
  unfold Target.invocation Target.invocationArgs
  cases t.kind with
  | jar =>
    show ("java" ++ " " ++ ("-jar" ++ " " ++ t.path)).toList = _
    simp only [String.toList_append]
    rfl
  | executable => rfl

theorem toList_withSlash (dir : String) :
    (SubstitutionTable.withSlash dir).toList =
      if dir.toList.getLast? = some '/' then dir.toList else dir.toList ++ ['/'] := by
  unfold SubstitutionTable.withSlash
  split
  · rfl
  · exact String.toList_push '/'

/-- The sources of the rules of a target hold slashes and no newlines. -/
theorem forTarget_sources {workdir : String} (hpath : Path.isAbsolute t.path.toList = true)
    (hpathLine : '\n' ∉ t.path.toList) (hworkdirLine : '\n' ∉ workdir.toList) :
    ∀ r ∈ SubstitutionTable.forTarget t.invocation t.shortName t.path workdir,
      '/' ∈ r.source.toList ∧ '\n' ∉ r.source.toList := by
  have hslash : '/' ∈ t.path.toList := Path.slash_mem_of_isAbsolute hpath
  intro r hr
  simp only [SubstitutionTable.forTarget, List.mem_cons, List.not_mem_nil, or_false] at hr
  rcases hr with rfl | rfl | rfl
  · rw [toList_invocation]
    refine ⟨List.mem_append_right _ hslash, ?_⟩
    rw [List.mem_append, not_or]
    refine ⟨?_, hpathLine⟩
    cases t.kind <;> decide
  · exact ⟨hslash, hpathLine⟩
  · rw [toList_withSlash]
    split
    · rename_i hlast
      exact ⟨List.mem_of_getLast? hlast, hworkdirLine⟩
    · refine ⟨by simp, ?_⟩
      simpa using hworkdirLine

end

/-- **Sanitizing never damages the structure of a transcript.**  A transcript is its frame
with the bodies as they are, and the sanitized transcript is the same frame with every body
sanitized on its own: documentation, display forms, outputs and the footer.  The alias may
be any text; the path of the target starts at the root, and neither it nor the working
directory holds a newline. -/
theorem sanitized_frame (t : Target) (workdir identity : String) (rs : List Record)
    (hpath : Path.isAbsolute t.path.toList = true) (hpathLine : '\n' ∉ t.path.toList)
    (hworkdirLine : '\n' ∉ workdir.toList) :
    (withFooter (render rs) identity).toList = assemble id (documentParts rs identity) ∧
      (Build.document t workdir identity rs).toList =
        assemble (rewrite (SubstitutionTable.forTarget t.invocation t.shortName t.path workdir))
          (documentParts rs identity) := by
  have hparts := assemble_documentParts rs identity
  have hlinewise := Linewise.of_table (forTarget_sources hpath hpathLine hworkdirLine)
  refine ⟨hparts.symm, ?_⟩
  rw [← hlinewise.documentParts_eq rs identity, hparts, Build.document, rewrite,
    String.ofList_toList]

/-- An alias with a newline and a fence in it, and a body that holds the path of the target. -/
theorem sanitized_frame_of_jar :
    let t : Target := ⟨"/o/t.jar", .jar, "t\n\x60\x60\x60"⟩
    let rs : List Record := [.doc "see /o/t.jar\n",
      .command ⟨.shell "java -jar /o/t.jar /w/a", true, false, 1, "/w/a"⟩]
    Path.isAbsolute t.path.toList = true ∧ '\n' ∉ t.path.toList ∧ '\n' ∉ "/w".toList ∧
      (Build.document t "/w" "1" rs).toList =
        assemble (rewrite (SubstitutionTable.forTarget t.invocation t.shortName t.path "/w"))
          (documentParts rs "1") := by
  intro t rs
  have hpath : Path.isAbsolute t.path.toList = true := by decide
  have hpathLine : '\n' ∉ t.path.toList := by decide
  have hworkdirLine : '\n' ∉ "/w".toList := by decide
  exact ⟨hpath, hpathLine, hworkdirLine,
    (sanitized_frame t "/w" "1" rs hpath hpathLine hworkdirLine).2⟩

end Transcript
end Walkthrough
