/-
# Two spellings of a command of the target

A step of a script can name the target in a line or in a list of arguments.  The list always
gives the arguments of the invocation and what follows (`expand_argv`).  The line gives the
invocation as it is shown, with nothing around its arguments, so what the shell makes of it
depends on the path of the target:

| in the path | the line | the display |
| --- | --- | --- |
| a space | is split inside the path | of the list has the path between quotes |
| a tab or a newline | is split inside the path | agrees |
| the token of the directory or the archive | has it filled in | of the line has it filled in |

Otherwise the two spellings agree, and so does the command that asks for the identity
(`spellings_agree_iff`).
-/

import Walkthrough.Proofs.Path
import Walkthrough.Proofs.Script.Opening
import Walkthrough.Proofs.Transcript.Rules
import Walkthrough.Target

namespace Walkthrough

/-! ## Words of a line -/

namespace CommandLine

/-- Whether the shell ends a word at the character. -/
def isBlank (c : Char) : Bool :=
  c == ' ' || c == '\t' || c == '\n'

/-- The words between the blanks of a line. -/
def words (s : List Char) : List (List Char) :=
  (Text.splitAt ' ' (s.map fun c => if isBlank c then ' ' else c)).filter fun w => !w.isEmpty

/-- The arguments that a command runs with, its line split at blanks. -/
def arguments : CommandLine → List String
  | .shell line => (words line.toList).map String.ofList
  | .argv args => args

/-- A text that is one word. -/
structure IsWord (w : List Char) : Prop where
  nonempty : w ≠ []
  noBlank : ∀ c ∈ w, isBlank c = false

theorem isWord_iff {w : List Char} :
    IsWord w ↔ w ≠ [] ∧ w.any isBlank = false := by
  rw [List.any_eq_false]
  constructor
  · rintro ⟨hne, hblank⟩
    exact ⟨hne, fun c hc => by simp [hblank c hc]⟩
  · rintro ⟨hne, hblank⟩
    exact ⟨hne, fun c hc => by simpa using hblank c hc⟩

instance (w : List Char) : Decidable (IsWord w) :=
  decidable_of_iff _ isWord_iff.symm

@[simp] theorem words_nil : words [] = [] := by
  decide

/-- A space keeps words apart. -/
theorem words_append (a b : List Char) : words (a ++ ' ' :: b) = words a ++ words b := by
  have hspace : (' ' :: b).map (fun c => if isBlank c then ' ' else c) =
      ' ' :: b.map fun c => if isBlank c then ' ' else c := rfl
  rw [words, List.map_append, hspace, Text.splitAt_append, List.filter_append]
  rfl

theorem words_of_isWord {w : List Char} (h : IsWord w) : words w = [w] := by
  have hsame : w.map (fun c => if isBlank c then ' ' else c) = w := by
    refine (List.map_congr_left fun c hc => ?_).trans (List.map_id w)
    simp [h.noBlank c hc]
  have hspace : ' ' ∉ w := fun hmem => absurd (h.noBlank ' ' hmem) (by decide)
  rw [words, hsame, Text.splitAt_of_not_mem hspace]
  simp [h.nonempty]

theorem isWord_of_mem_words {s w : List Char} (h : w ∈ words s) : IsWord w := by
  obtain ⟨hpart, hne⟩ := List.mem_filter.1 h
  refine ⟨by simpa using hne, fun c hc => ?_⟩
  have hspace : c ≠ ' ' := fun heq => Text.mark_not_mem_of_mem_splitAt hpart (heq ▸ hc)
  obtain ⟨d, -, hd⟩ := List.mem_map.1 ((Text.infix_of_mem_splitAt hpart).subset hc)
  split at hd
  · exact absurd hd.symm hspace
  · rename_i hblank
    exact hd ▸ by simpa using hblank

/-- Texts with spaces between them are the words of what they join to exactly if each of them
is a word. -/
theorem words_intercalate_iff {ls : List (List Char)} :
    words ([' '].intercalate ls) = ls ↔ ∀ l ∈ ls, IsWord l := by
  constructor
  · intro h l hl
    exact isWord_of_mem_words (h.symm ▸ hl)
  · intro h
    induction ls with
    | nil => exact words_nil
    | cons l ls ih =>
      obtain ⟨hl, hrest⟩ := List.forall_mem_cons.1 h
      cases ls with
      | nil => simpa using words_of_isWord hl
      | cons l' ls =>
        rw [Text.intercalate_mark_cons, words_append, words_of_isWord hl, ih hrest,
          List.singleton_append]

/-- A line with spaces between texts runs with them exactly if each of them is a word. -/
theorem arguments_shell_eq_iff {args : List String} :
    (shell (Text.joinWith " " args)).arguments = args ↔ ∀ a ∈ args, IsWord a.toList := by
  have hlist (ls : List (List Char)) :
      ls.map String.ofList = args ↔ ls = args.map String.toList := by
    constructor
    · rintro rfl
      simp [Function.comp_def]
    · rintro rfl
      simp [Function.comp_def]
  have hspace : " ".toList = [' '] := rfl
  rw [arguments, hlist, Text.toList_joinWith, hspace, words_intercalate_iff, List.forall_mem_map]

end CommandLine

/-! ## What follows the first word -/

/-- What a line has behind its first word. -/
def behind (args : List String) : List Char :=
  args.flatMap fun a => ' ' :: a.toList

theorem toList_joinWith_append {xs : List String} (hxs : xs ≠ []) (args : List String) :
    (Text.joinWith " " (xs ++ args)).toList = (Text.joinWith " " xs).toList ++ behind args := by
  have hspace : " ".toList = [' '] := rfl
  simp only [Text.toList_joinWith, hspace]
  induction xs with
  | nil => exact absurd rfl hxs
  | cons x xs ih =>
    cases xs with
    | cons y xs =>
      have hrest := ih (List.cons_ne_nil _ _)
      simp only [List.cons_append, List.map_cons] at hrest ⊢
      rw [Text.intercalate_mark_cons, Text.intercalate_mark_cons, hrest, List.append_assoc,
        List.cons_append]
    | nil =>
      clear ih hxs
      induction args generalizing x with
      | nil => simp [behind]
      | cons a args ih =>
        have hrest := ih a
        simp only [List.singleton_append, List.map_cons, List.map_nil,
          List.intercalate_singleton] at hrest ⊢
        rw [Text.intercalate_mark_cons, hrest, behind, behind, List.flatMap_cons,
          List.cons_append]

/-- A word of a script that stands for itself, in a line and as an argument. -/
structure Plain (a : String) : Prop where
  word : CommandLine.IsWord a.toList
  noBrace : '\x7b' ∉ a.toList

theorem brace_not_mem_behind {args : List String} (h : ∀ a ∈ args, Plain a) :
    '\x7b' ∉ behind args := by
  intro hmem
  obtain ⟨a, ha, hmem⟩ := List.mem_flatMap.1 hmem
  rcases List.mem_cons.1 hmem with heq | hmem
  · exact absurd heq (by decide)
  · exact (h a ha).noBrace hmem

/-- A token has one opening brace and no space. -/
structure IsToken (token : String) : Prop where
  brace : token.toList.count '\x7b' = 1
  noSpace : ' ' ∉ token.toList

namespace IsToken

variable {token : String} (ht : IsToken token)
include ht

theorem brace_mem : '\x7b' ∈ token.toList :=
  List.count_pos_iff.1 (ht.brace ▸ Nat.one_pos)

theorem ne_nil : token.toList ≠ [] :=
  List.ne_nil_of_mem ht.brace_mem

/-- A text without braces has no token. -/
theorem not_infix {s : List Char} (h : '\x7b' ∉ s) : ¬ token.toList <:+: s :=
  fun hin => h (hin.subset ht.brace_mem)

/-- No token runs into what follows the first word. -/
theorem apart (a : List Char) (args : List String) : Text.Apart token.toList a (behind args) := by
  cases args with
  | nil =>
    intro x y hxy
    have hlength := congrArg List.length hxy
    simp only [behind, List.flatMap_nil, List.length_append, List.length_nil] at hlength
    omega
  | cons b args => exact Text.apart_cons_of_not_mem ht.noSpace a _

/-- What follows the first word is not filled. -/
theorem replaceAll_append_behind {args : List String} (h : ∀ a ∈ args, Plain a)
    (r a : List Char) :
    Text.replaceAll token.toList r (a ++ behind args) =
      Text.replaceAll token.toList r a ++ behind args := by
  rw [Text.replaceAll_append r (ht.apart a args),
    Text.replaceAll_eq_self r (ht.not_infix (brace_not_mem_behind h))]

theorem infix_append_behind_iff {args : List String} (h : ∀ a ∈ args, Plain a) {a : List Char} :
    token.toList <:+: a ++ behind args ↔ token.toList <:+: a := by
  rw [Text.infix_append_iff (ht.apart a args),
    or_iff_left (ht.not_infix (brace_not_mem_behind h))]

/-- Every token that is filled with a text without braces takes a brace away. -/
theorem exists_cuts {r : List Char} (hr : '\x7b' ∉ r) (s : List Char) :
    ∃ k, (0 < k ↔ token.toList <:+: s) ∧
      (Text.replaceAll token.toList r s).count '\x7b' + k = s.count '\x7b' := by
  obtain ⟨k, hk, hcount⟩ := Text.exists_cuts ht.ne_nil s
  have hbraces := hcount r (· == '\x7b')
  rw [← List.count_eq_countP, ← List.count_eq_countP, ← List.count_eq_countP,
    ← List.count_eq_countP, ht.brace, List.count_eq_zero_of_not_mem hr] at hbraces
  exact ⟨k, hk, by simpa using hbraces⟩

end IsToken

namespace Placeholders

theorem isToken_targetToken : IsToken targetToken := by
  constructor <;> decide

theorem isToken_workdirToken : IsToken workdirToken := by
  constructor <;> decide

theorem isToken_outputToken : IsToken outputToken := by
  constructor <;> decide

/-! ## The two spellings -/

/-- Filling in the directory and the archive leaves a text as it is. -/
def Inert (p : Placeholders) (text : String) : Prop :=
  ({ p with target := [targetToken] } : Placeholders).expandText text = .ok text

variable {p : Placeholders} {args : List String}

theorem expandText_of_noBrace {text : String} (h : '\x7b' ∉ text.toList) :
    p.expandText text = .ok text := by
  have hfill : p.fillPlaces text = text := by
    rw [fillPlaces, Text.replaceIn, Text.replaceIn, String.toList_ofList,
      Text.replaceAll_eq_self _ (isToken_targetToken.not_infix h),
      Text.replaceAll_eq_self _ (isToken_workdirToken.not_infix h), String.ofList_toList]
  have hout : Text.isWithin outputToken text = false := by
    rw [Bool.eq_false_iff, ne_eq, Text.isWithin, Text.occursIn_iff_isInfix]
    exact isToken_outputToken.not_infix h
  rw [expandText, hfill, hout]
  rfl

theorem expandArgs_of_plain (h : ∀ a ∈ args, Plain a) : p.expandArgs args = .ok args := by
  induction args with
  | nil => rfl
  | cons a args ih =>
    obtain ⟨ha, hrest⟩ := List.forall_mem_cons.1 h
    have hne : a ≠ targetToken := fun heq => ha.noBrace (heq ▸ isToken_targetToken.brace_mem)
    rw [expandArgs, expandArg, if_neg hne, expandText_of_noBrace ha.noBrace, ih hrest]
    rfl

/-- **The list of arguments gives the invocation and what follows.** -/
theorem expand_argv (h : ∀ a ∈ args, Plain a) :
    p.expand (.argv (targetToken :: args)) = .ok (.argv (p.target ++ args)) := by
  rw [expand, expandArgs, expandArgs_of_plain h, expandArg, if_pos rfl]
  rfl

/-- The first word of the line is filled as the invocation is, and what follows stays. -/
theorem toList_fillPlaces_line (h : ∀ a ∈ args, Plain a) :
    (p.fillPlaces (Text.joinWith " " (targetToken :: args))).toList =
      (fillPlaces { p with target := [targetToken] } (Text.joinWith " " p.target)).toList
        ++ behind args := by
  have hline : (Text.joinWith " " (targetToken :: args)).toList =
      targetToken.toList ++ behind args :=
    toList_joinWith_append (List.cons_ne_nil targetToken []) args
  have hself : Text.joinWith " " [targetToken] = targetToken := rfl
  simp only [fillPlaces, Text.replaceIn, String.toList_ofList, hself, Text.replaceAll_self]
  rw [hline, Text.replaceAll_append_self isToken_targetToken.ne_nil,
    Text.replaceAll_eq_self _ (isToken_targetToken.not_infix (brace_not_mem_behind h)),
    isToken_workdirToken.replaceAll_append_behind h]

/-- **The line gives the invocation and what follows** exactly if nothing in the invocation is
filled in. -/
theorem expand_line_eq_ok_iff (htarget : p.target ≠ []) (h : ∀ a ∈ args, Plain a) :
    p.expand (.line (Text.joinWith " " (targetToken :: args))) =
      .ok (.shell (Text.joinWith " " (p.target ++ args))) ↔
        p.Inert (Text.joinWith " " p.target) := by
  obtain ⟨target, workdir, output⟩ := p
  let line := fillPlaces ⟨target, workdir, output⟩ (Text.joinWith " " (targetToken :: args))
  let word := fillPlaces ⟨[targetToken], workdir, output⟩ (Text.joinWith " " target)
  have hfilled : line.toList = word.toList ++ behind args := toList_fillPlaces_line h
  have hwhole := toList_joinWith_append htarget args
  have hwithin : Text.isWithin outputToken line = Text.isWithin outputToken word := by
    rw [Bool.eq_iff_iff, Text.isWithin, Text.isWithin, Text.occursIn_iff_isInfix,
      Text.occursIn_iff_isInfix, hfilled, isToken_outputToken.infix_append_behind_iff h]
  -- what follows is the same on both sides, so it can be left out
  have hcut : ∀ {x y : String}, x.toList = y.toList ++ behind args →
      (x = Text.joinWith " " (target ++ args) ↔ y = Text.joinWith " " target) := by
    intro x y hxy
    rw [← String.toList_inj, ← String.toList_inj, hxy, hwhole, List.append_left_inj]
  rw [expand, Inert, expandText, expandText]
  change Except.map _ (if Text.isWithin outputToken line = true then _ else _) = _ ↔
    (if Text.isWithin outputToken word = true then _ else _) = _
  rw [hwithin]
  split
  · cases output with
    | none => simp [Except.map]
    | some output =>
      have hreplaced := isToken_outputToken.replaceAll_append_behind h output.toList word.toList
      have hfill : (Text.replaceIn outputToken output line).toList =
          (Text.replaceIn outputToken output word).toList ++ behind args := by
        simp only [Text.replaceIn, String.toList_ofList, hfilled, hreplaced]
      simpa [Except.map] using hcut hfill
  · simpa [Except.map] using hcut hfilled

theorem eq_shell_of_expand_line {text : String} {c : CommandLine}
    (h : p.expand (.line text) = .ok c) : c = .shell c.display := by
  rw [expand] at h
  cases htext : p.expandText text with
  | error f => simp [htext, Except.map] at h
  | ok filled =>
    obtain rfl : .shell filled = c := by simpa [htext, Except.map] using h
    rfl

/-- Filling in texts without braces leaves a text as it is exactly if nothing is to fill in. -/
theorem inert_iff (hworkdir : '\x7b' ∉ p.workdir.toList)
    (houtput : ∀ output, p.output = some output → '\x7b' ∉ output.toList) {text : String} :
    p.Inert text ↔
      ¬ workdirToken.toList <:+: text.toList ∧ ¬ outputToken.toList <:+: text.toList := by
  obtain ⟨target, workdir, output⟩ := p
  let filled := Text.replaceIn workdirToken workdir text
  have hfilled : filled.toList = Text.replaceAll workdirToken.toList workdir.toList text.toList :=
    String.toList_ofList
  have hplaces : fillPlaces ⟨[targetToken], workdir, output⟩ text = filled := by
    have hself : Text.joinWith " " [targetToken] = targetToken := rfl
    simp [fillPlaces, Text.replaceIn, hself, Text.replaceAll_self, filled]
  obtain ⟨k, hk, hcount⟩ := isToken_workdirToken.exists_cuts hworkdir text.toList
  rw [← hfilled] at hcount
  have hkept : ¬ workdirToken.toList <:+: text.toList → filled = text := by
    intro hnone
    rw [← String.toList_inj, hfilled, Text.replaceAll_eq_self _ hnone]
  rw [Inert, expandText]
  dsimp only
  rw [hplaces]
  by_cases hwithin : Text.isWithin outputToken filled = true
  · rw [if_pos hwithin]
    rw [Text.isWithin, Text.occursIn_iff_isInfix] at hwithin
    -- the token of the archive takes a brace away, or there is no archive
    have hchanged : ∀ o, output = some o → Text.replaceIn outputToken o filled ≠ text := by
      intro o ho heq
      obtain ⟨k', hk', hcount'⟩ := isToken_outputToken.exists_cuts (houtput o ho) filled.toList
      have hpos := hk'.2 hwithin
      rw [Text.replaceIn] at heq
      rw [← heq, String.toList_ofList] at hcount
      omega
    constructor
    · intro h
      cases output with
      | none => cases h
      | some o => exact absurd (Except.ok.inj h) (hchanged o rfl)
    · rintro ⟨hnone, hout⟩
      exact absurd (hkept hnone ▸ hwithin) hout
  · rw [if_neg hwithin]
    rw [Text.isWithin, Text.occursIn_iff_isInfix] at hwithin
    constructor
    · intro h
      have hsame : filled = text := Except.ok.inj h
      rw [hsame] at hcount hwithin
      exact ⟨fun hin => absurd (hk.2 hin) (by omega), hwithin⟩
    · rintro ⟨hnone, -⟩
      exact congrArg Except.ok (hkept hnone)

end Placeholders

namespace Target

open CommandLine (IsWord)
open Placeholders (targetToken)

variable {t : Target}

/-- Two commands are one invocation of a target: they are shown alike, they start with the
invocation, which the first rule of the target turns into its alias, and they run with the same
arguments. -/
structure Agree (t : Target) (c d : CommandLine) : Prop where
  shown : c.display = d.display
  opening : ∃ rest, c.display = t.invocation ++ rest ∧ ∀ shortName workdir rule,
    (SubstitutionTable.forTarget t.invocation shortName t.path workdir).head? = some rule →
      SubstitutionTable.applyRule c.display rule =
        shortName ++ SubstitutionTable.applyRule rest rule
  arguments : c.arguments = d.arguments

theorem isAbsolute_path {m : Machine} {path : String} (h : resolve m path = .ok t) :
    Path.isAbsolute t.path.toList = true := by
  unfold resolve at h
  dsimp only at h
  split at h
  · cases h
  split at h
  · obtain rfl := Except.ok.inj h
    have hcwd : Path.isAbsolute (Place.path m.cwd).toList = true := by
      rw [Place.path, String.toList_append]
      rfl
    rw [absolutePath, String.toList_ofList]
    exact Path.isAbsolute_absolute hcwd _
  · cases h

theorem invocationArgs_ne_nil (t : Target) : t.invocationArgs ≠ [] := by
  unfold invocationArgs
  split <;> exact List.cons_ne_nil _ _

/-- All arguments of an invocation but the path are words. -/
theorem forall_invocationArgs_isWord_iff :
    (∀ a ∈ t.invocationArgs, IsWord a.toList) ↔ IsWord t.path.toList := by
  have hjava : IsWord "java".toList := by decide
  have hjar : IsWord "-jar".toList := by decide
  unfold invocationArgs
  cases t.kind with
  | jar => rw [List.forall_mem_cons, List.forall_mem_cons, List.forall_mem_singleton,
      and_iff_right hjava, and_iff_right hjar]
  | executable => rw [List.forall_mem_singleton]

theorem forall_invocationArgs_noSpace (h : ' ' ∉ t.path.toList) :
    ∀ a ∈ t.invocationArgs, ' ' ∉ a.toList := by
  unfold invocationArgs
  cases t.kind with
  | jar => exact List.forall_mem_cons.2 ⟨by decide, List.forall_mem_cons.2
      ⟨by decide, List.forall_mem_singleton.2 h⟩⟩
  | executable => exact List.forall_mem_singleton.2 h

/-- A line that starts with the invocation is the invocation and what follows. -/
theorem joinWith_invocationArgs (t : Target) (args : List String) :
    Text.joinWith " " (t.invocationArgs ++ args) = t.invocation ++ String.ofList (behind args) := by
  rw [← String.toList_inj, toList_joinWith_append t.invocationArgs_ne_nil, String.toList_append,
    String.toList_ofList]
  rfl

/-- The first rule of a target turns the invocation in front of a text into the alias. -/
theorem applyRule_invocation (t : Target) (shortName workdir rest : String) {rule : Rule}
    (h : (SubstitutionTable.forTarget t.invocation shortName t.path workdir).head? = some rule)
    (hne : t.invocation.toList ≠ []) :
    SubstitutionTable.applyRule (t.invocation ++ rest) rule =
      shortName ++ SubstitutionTable.applyRule rest rule := by
  obtain rfl := Option.some.inj h
  rw [← String.toList_inj, String.toList_append, SubstitutionTable.toList_applyRule,
    SubstitutionTable.toList_applyRule, String.toList_append, Text.replaceAll_append_self hne]

/-- The line runs with the arguments of the invocation exactly if the path is one word. -/
theorem arguments_line_eq_iff {args : List String} (h : ∀ a ∈ args, IsWord a.toList) :
    (CommandLine.shell (Text.joinWith " " (t.invocationArgs ++ args))).arguments =
      t.invocationArgs ++ args ↔ IsWord t.path.toList := by
  rw [CommandLine.arguments_shell_eq_iff, List.forall_mem_append, and_iff_left h,
    forall_invocationArgs_isWord_iff]

theorem displayArg_of_noSpace {a : String} (h : ' ' ∉ a.toList) : CommandLine.displayArg a = a := by
  rw [CommandLine.displayArg, CommandLine.needsQuotes, if_neg (by simpa using h)]

theorem noSpace_of_isWord {w : List Char} (h : IsWord w) : ' ' ∉ w :=
  fun hmem => absurd (h.noBlank ' ' hmem) (by decide)

/-- A list of arguments without spaces is shown as a line. -/
theorem display_argv_of_noSpace {args : List String} (h : ∀ a ∈ args, ' ' ∉ a.toList) :
    (CommandLine.argv args).display = Text.joinWith " " args := by
  have hsame : args.map CommandLine.displayArg = args :=
    (List.map_congr_left fun a ha => displayArg_of_noSpace (h a ha)).trans (List.map_id args)
  rw [CommandLine.display, hsame]

/-- A path with a space is shown between quotes, and the invocation is not shown. -/
theorem not_prefix_display_of_space (ht : Path.isAbsolute t.path.toList = true)
    (hspace : ' ' ∈ t.path.toList) (args : List String) :
    ¬ t.invocation.toList <+: (CommandLine.argv (t.invocationArgs ++ args)).display.toList := by
  obtain ⟨rest, hrest⟩ := List.head?_eq_some_iff.1 (Path.isAbsolute_iff.1 ht)
  have hquoted : (CommandLine.displayArg t.path).toList =
      '\x22' :: (t.path.toList ++ ['\x22']) := by
    rw [CommandLine.displayArg, CommandLine.needsQuotes, if_pos (by simpa using hspace),
      String.toList_append, String.toList_append]
    rfl
  -- both start with the same text in front of the path
  obtain ⟨front, hinvocation, hdisplay⟩ : ∃ front, t.invocation.toList = front ++ t.path.toList ∧
      (CommandLine.argv (t.invocationArgs ++ args)).display.toList =
        front ++ ((CommandLine.displayArg t.path).toList ++
          behind (args.map CommandLine.displayArg)) := by
    unfold invocation invocationArgs
    cases t.kind with
    | executable =>
      refine ⟨[], rfl, ?_⟩
      rw [CommandLine.display, List.map_append, toList_joinWith_append (by simp)]
      rfl
    | jar =>
      refine ⟨"java -jar ".toList, by simp [Text.joinWith], ?_⟩
      rw [CommandLine.display, List.map_append, toList_joinWith_append (by simp)]
      simp [Text.joinWith, CommandLine.displayArg, CommandLine.needsQuotes]
  rw [hinvocation, hdisplay, List.prefix_append_right_inj, hrest, hquoted]
  intro hprefix
  exact absurd (List.cons_prefix_cons.1 hprefix).1 (by decide)

theorem invocation_ne_nil (ht : Path.isAbsolute t.path.toList = true) :
    t.invocation.toList ≠ [] := by
  unfold invocation invocationArgs
  cases t.kind with
  | jar => simp [Text.joinWith]
  | executable =>
    intro hnil
    rw [Path.isAbsolute_iff] at ht
    rw [Text.joinWith] at hnil
    simp [hnil] at ht

theorem versionCommand_eq (t : Target) :
    t.versionCommand = .shell (Text.joinWith " " (t.invocationArgs ++ ["--version"])) := by
  rw [joinWith_invocationArgs]
  rfl

/-- **The two spellings agree** for a target exactly if its path is one word for the shell and
nothing in the invocation is filled in; the command for its identity needs the former only.
The list of arguments is the invocation in any case. -/
theorem spellings_agree_iff {m : Machine} {path : String} (h : resolve m path = .ok t)
    (workdir : String) (output : Option String) {args : List String}
    (hargs : ∀ a ∈ args, Plain a) :
    let p : Placeholders := ⟨t.invocationArgs, workdir, output⟩
    p.expand (.argv (targetToken :: args)) = .ok (.argv (t.invocationArgs ++ args)) ∧
      ((∃ c, p.expand (.line (Text.joinWith " " (targetToken :: args))) = .ok c ∧
          Agree t c (.argv (t.invocationArgs ++ args))) ↔
        IsWord t.path.toList ∧ p.Inert t.invocation) ∧
      (t.versionCommand.arguments = t.invocationArgs ++ ["--version"] ↔ IsWord t.path.toList) := by
  intro p
  have hwords : ∀ a ∈ args, IsWord a.toList := fun a ha => (hargs a ha).word
  have hline := Placeholders.expand_line_eq_ok_iff (p := p) t.invocationArgs_ne_nil hargs
  have hnoSpaces (hpath : ' ' ∉ t.path.toList) : ∀ a ∈ t.invocationArgs ++ args, ' ' ∉ a.toList :=
    List.forall_mem_append.2
      ⟨forall_invocationArgs_noSpace hpath, fun a ha => noSpace_of_isWord (hwords a ha)⟩
  refine ⟨Placeholders.expand_argv hargs, ⟨?_, ?_⟩, ?_⟩
  · rintro ⟨c, hc, hagree⟩
    obtain ⟨rest, hrest, -⟩ := hagree.opening
    have hnoSpace : ' ' ∉ t.path.toList := by
      intro hspace
      refine not_prefix_display_of_space (isAbsolute_path h) hspace args ?_
      rw [← hagree.shown, hrest, String.toList_append]
      exact List.prefix_append _ _
    obtain rfl : c = .shell (Text.joinWith " " (t.invocationArgs ++ args)) := by
      rw [Placeholders.eq_shell_of_expand_line hc, hagree.shown,
        display_argv_of_noSpace (hnoSpaces hnoSpace)]
    exact ⟨(arguments_line_eq_iff hwords).1 hagree.arguments, hline.1 hc⟩
  · rintro ⟨hpath, hinert⟩
    refine ⟨_, hline.2 hinert, ?_, ?_, (arguments_line_eq_iff hwords).2 hpath⟩
    · exact (display_argv_of_noSpace (hnoSpaces (noSpace_of_isWord hpath))).symm
    · refine ⟨String.ofList (behind args), joinWith_invocationArgs t args, ?_⟩
      intro shortName workdir rule hrule
      rw [CommandLine.display, joinWith_invocationArgs]
      exact applyRule_invocation t shortName workdir _ hrule (invocation_ne_nil (isAbsolute_path h))
  · rw [versionCommand_eq]
    exact arguments_line_eq_iff (List.forall_mem_singleton.2 (by decide))

/-- A machine with a jar. -/
def jarMachine : Machine where
  files := ⟨[(["o"], .directory 0o755), (["o", "t-1.jar"], .file [] 0o644)]⟩
  cwd := ["o"]
  searchPath := ""
  tempDir := "/"
  names := fun _ => "a1B2c3"

/-- A jar without blanks in its path, found from the current directory. -/
theorem spellings_agree_of_jar :
    let t : Target := ⟨"/o/t-1.jar", .jar, "t"⟩
    let p : Placeholders := ⟨t.invocationArgs, "/w", none⟩
    resolve jarMachine "t-1.jar" = .ok t ∧ (∀ a ∈ ["ls", "/"], Plain a) ∧
      ∃ c, p.expand (.line (Text.joinWith " " [targetToken, "ls", "/"])) = .ok c ∧
        Agree t c (.argv ["java", "-jar", "/o/t-1.jar", "ls", "/"]) := by
  intro t p
  have ht : resolve jarMachine "t-1.jar" = .ok t := by decide +kernel
  have hargs : ∀ a ∈ ["ls", "/"], Plain a :=
    List.forall_mem_cons.2
      ⟨⟨by decide, by decide⟩, List.forall_mem_singleton.2 ⟨by decide, by decide⟩⟩
  have hpath : IsWord t.path.toList := by decide
  have hinert : p.Inert t.invocation :=
    (Placeholders.inert_iff (by decide) (by rintro _ ⟨⟩)).2 ⟨by decide, by decide⟩
  exact ⟨ht, hargs, (spellings_agree_iff ht "/w" none hargs).2.1.2 ⟨hpath, hinert⟩⟩

/-- A machine with a program in a directory whose name has a space. -/
def spacedMachine : Machine where
  files := ⟨[(["a b"], .directory 0o755), (["a b", "t"], .file [] 0o755)]⟩
  cwd := []
  searchPath := ""
  tempDir := "/"
  names := fun _ => "a1B2c3"

/-- **The two spellings differ where the path has a space**: the list is shown with quotes, and
the line runs another program, also when it asks for the identity. -/
theorem spellings_differ_of_space :
    let t : Target := ⟨"/a b/t", .executable, "t"⟩
    let p : Placeholders := ⟨t.invocationArgs, "/w", none⟩
    resolve spacedMachine "/a b/t" = .ok t ∧
      p.expand (.argv [targetToken, "ls"]) = .ok (.argv ["/a b/t", "ls"]) ∧
      p.expand (.line (Text.joinWith " " [targetToken, "ls"])) = .ok (.shell "/a b/t ls") ∧
      (CommandLine.argv ["/a b/t", "ls"]).display = "\x22/a b/t\x22 ls" ∧
      (CommandLine.shell "/a b/t ls").arguments = ["/a", "b/t", "ls"] ∧
      t.versionCommand.arguments = ["/a", "b/t", "--version"] ∧
      ¬ Agree t (.shell "/a b/t ls") (.argv ["/a b/t", "ls"]) := by
  refine ⟨by decide +kernel, by decide +kernel, by decide +kernel, by decide, by decide +kernel,
    by decide +kernel, fun hagree => ?_⟩
  exact absurd hagree.shown (by decide)

end Target
end Walkthrough
