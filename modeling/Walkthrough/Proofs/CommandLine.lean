/-
# Arguments can be read off their display

An argument list is displayed with a space between neighbours, and an argument with a space in
it stands between quotes.  So a space ends an argument exactly if an even number of quotes is
in front of it, and that is how `shownArgs` reads a display: it goes through the text once,
knows whether it is between quotes, and leaves the quotes out.

It reads every list back that is not empty and has no quote in it, and no other
(`display_identifies_arguments`): a quote of an argument looks like one of the display, and no
argument at all looks like one empty argument.
-/

import Walkthrough.CommandLine
import Walkthrough.Proofs.Text.Line
import Walkthrough.Text.Replace

namespace Walkthrough
namespace CommandLine

open Text (consPiece)

/-- The arguments in a text that starts between quotes or outside: a space outside quotes ends
an argument, and quotes are left out. -/
def splitShown : (quoted : Bool) → List Char → List (List Char)
  | _, [] => [[]]
  | quoted, c :: s =>
    if c = '\x22' then splitShown (!quoted) s
    else if c = ' ' ∧ quoted = false then [] :: splitShown quoted s
    else consPiece c (splitShown quoted s)

/-- The arguments that a display shows. -/
def shownArgs (text : String) : List String :=
  (splitShown false text.toList).map String.ofList

/-- Arguments that a display identifies: at least one, and none with a quote. -/
structure Legible (args : List String) : Prop where
  nonempty : args ≠ []
  noQuote : ∀ a ∈ args, '\x22' ∉ a.toList

instance (args : List String) : Decidable (Legible args) :=
  decidable_of_iff (args ≠ [] ∧ ∀ a ∈ args, '\x22' ∉ a.toList)
    ⟨fun h => ⟨h.1, h.2⟩, fun h => ⟨h.nonempty, h.noQuote⟩⟩

/-! ## Reading -/

theorem splitShown_quote (quoted : Bool) (s : List Char) :
    splitShown quoted ('\x22' :: s) = splitShown (!quoted) s := by
  rw [splitShown, if_pos rfl]

theorem splitShown_space (s : List Char) :
    splitShown false (' ' :: s) = [] :: splitShown false s := by
  rw [splitShown, if_neg (by decide), if_pos ⟨rfl, rfl⟩]

/-- A text goes to the first argument, if it has no quote and no space that ends it. -/
theorem splitShown_append {quoted : Bool} {w : List Char} (hquote : '\x22' ∉ w)
    (hspace : quoted = false → ' ' ∉ w) (s : List Char) :
    splitShown quoted (w ++ s) = w.foldr consPiece (splitShown quoted s) := by
  induction w with
  | nil => rfl
  | cons c w ih =>
    rw [List.mem_cons, not_or] at hquote
    have hkeep : ¬ (c = ' ' ∧ quoted = false) := by
      rintro ⟨rfl, hq⟩
      exact hspace hq List.mem_cons_self
    have hrest := ih hquote.2 fun hq => List.not_mem_of_not_mem_cons (hspace hq)
    rw [List.cons_append, splitShown, if_neg (Ne.symm hquote.1), if_neg hkeep, hrest,
      List.foldr_cons]

theorem foldr_consPiece (w : List Char) (ws : List (List Char)) :
    w.foldr consPiece ([] :: ws) = w :: ws := by
  induction w with
  | nil => rfl
  | cons c w ih => rw [List.foldr_cons, ih, consPiece]

/-- An argument as it is shown goes to the first argument without its quotes. -/
theorem splitShown_displayArg {a : String} (h : '\x22' ∉ a.toList) (s : List Char) :
    splitShown false ((displayArg a).toList ++ s) =
      a.toList.foldr consPiece (splitShown false s) := by
  unfold displayArg
  split
  · have hshape : ("\x22" ++ a ++ "\x22").toList ++ s =
        '\x22' :: (a.toList ++ '\x22' :: s) := by simp
    have hinside : '\x22' ∉ a.toList ∧ (true = false → ' ' ∉ a.toList) :=
      ⟨h, fun hq => absurd hq (by decide)⟩
    rw [hshape, splitShown_quote, Bool.not_false, splitShown_append hinside.1 hinside.2,
      splitShown_quote, Bool.not_true]
  · rename_i hspace
    exact splitShown_append h (fun _ => by simpa [needsQuotes] using hspace) s

/-- Arguments as they are shown, with spaces between them, are split at these spaces. -/
theorem splitShown_intercalate {args : List String} (h : Legible args) :
    splitShown false ([' '].intercalate (args.map fun a => (displayArg a).toList)) =
      args.map String.toList := by
  obtain ⟨hne, hquote⟩ := h
  induction args with
  | nil => exact absurd rfl hne
  | cons a args ih =>
    obtain ⟨ha, hargs⟩ := List.forall_mem_cons.1 hquote
    cases args with
    | nil =>
      have hlast := splitShown_displayArg ha []
      rw [List.append_nil] at hlast
      rw [List.map_singleton, List.intercalate_singleton, hlast]
      exact foldr_consPiece a.toList []
    | cons b args =>
      have hrest := ih (List.cons_ne_nil b args) hargs
      rw [List.map_cons] at hrest
      rw [List.map_cons, List.map_cons, Text.intercalate_mark_cons, splitShown_displayArg ha,
        splitShown_space, hrest, foldr_consPiece]
      rfl

/-- **A display is read back.** -/
theorem shownArgs_display {args : List String} (h : Legible args) :
    shownArgs (argv args).display = args := by
  have hspace : " ".toList = [' '] := rfl
  have hjoined : (argv args).display.toList =
      [' '].intercalate (args.map fun a => (displayArg a).toList) := by
    rw [display, Text.toList_joinWith, hspace, List.map_map]
    rfl
  rw [shownArgs, hjoined, splitShown_intercalate h, List.map_map]
  exact (List.map_congr_left fun a _ => String.ofList_toList).trans (List.map_id args)

theorem splitShown_ne_nil (quoted : Bool) (s : List Char) : splitShown quoted s ≠ [] := by
  induction s generalizing quoted with
  | nil => exact List.cons_ne_nil _ _
  | cons c s ih =>
    rw [splitShown]
    split
    · exact ih _
    split
    · exact List.cons_ne_nil _ _
    · cases splitShown quoted s <;> exact List.cons_ne_nil _ _

theorem quote_not_mem_splitShown (quoted : Bool) (s : List Char) :
    ∀ w ∈ splitShown quoted s, '\x22' ∉ w := by
  induction s generalizing quoted with
  | nil => simp [splitShown]
  | cons c s ih =>
    rw [splitShown]
    split
    · exact ih _
    rename_i hc
    split
    · exact List.forall_mem_cons.2 ⟨List.not_mem_nil, ih _⟩
    · have hrest := ih quoted
      obtain ⟨w, ws, hws⟩ := List.exists_cons_of_ne_nil (splitShown_ne_nil quoted s)
      rw [hws, List.forall_mem_cons] at hrest
      rw [hws, consPiece, List.forall_mem_cons, List.mem_cons, not_or]
      exact ⟨⟨Ne.symm hc, hrest.1⟩, hrest.2⟩

/-- What is read off a text is legible. -/
theorem legible_shownArgs (text : String) : Legible (shownArgs text) where
  nonempty := by
    rw [shownArgs, ne_eq, List.map_eq_nil_iff]
    exact splitShown_ne_nil false text.toList
  noQuote := by
    rw [shownArgs, List.forall_mem_map]
    intro w hw
    rw [String.toList_ofList]
    exact quote_not_mem_splitShown false text.toList w hw

/-- **A display identifies its arguments.**  It is read back exactly if there is an argument and
none has a quote, so two such lists with one display are one list. -/
theorem display_identifies_arguments :
    (∀ args : List String, shownArgs (argv args).display = args ↔ Legible args) ∧
      ∀ args args' : List String, Legible args → Legible args' →
        (argv args).display = (argv args').display → args = args' := by
  refine ⟨fun args => ⟨fun h => h ▸ legible_shownArgs _, shownArgs_display⟩, ?_⟩
  intro args args' h h' hdisplay
  rw [← shownArgs_display h, hdisplay, shownArgs_display h']

/-- Arguments that are empty, at both ends and alone between spaces, and with blanks in them. -/
theorem display_identifies_arguments_empty :
    let args := ["", " ", "a\tb\n", "", "c d", ""]
    Legible args ∧ shownArgs (argv args).display = args ∧
      ∀ args', Legible args' → (argv args').display = (argv args).display → args' = args := by
  intro args
  have hargs : Legible args := by decide
  exact ⟨hargs, (display_identifies_arguments.1 args).2 hargs, fun args' hargs' =>
    display_identifies_arguments.2 args' args hargs' hargs⟩

/-- Quotes of arguments look like quotes of the display. -/
example : (argv ["a b"]).display = (argv ["\x22a", "b\x22"]).display := by decide

end CommandLine
end Walkthrough
