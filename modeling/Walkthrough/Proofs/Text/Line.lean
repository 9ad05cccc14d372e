/-
# Laws of parts and lines

Cutting a text at a mark and joining parts with the mark undo each other: a text is its
parts joined (`intercalate_splitAt`), and parts without the mark, at least one, are the
parts of the text they join to (`splitAt_intercalate`).  A mark between two texts keeps
their parts apart (`splitAt_append`).

Lines are the parts between newlines, and their laws are these laws.
-/

import Mathlib.Data.List.Basic
import Walkthrough.Text.Line

namespace Walkthrough
namespace Text

/-! ## Parts -/

variable {mark : Char}

theorem splitAt_cons_mark (mark : Char) (s : List Char) :
    splitAt mark (mark :: s) = [] :: splitAt mark s := by
  rw [splitAt, if_pos rfl]

theorem splitAt_ne_nil (mark : Char) (s : List Char) : splitAt mark s ≠ [] := by
  cases s with
  | nil => exact List.cons_ne_nil _ _
  | cons c s =>
    rw [splitAt]
    split
    · exact List.cons_ne_nil _ _
    · split <;> exact List.cons_ne_nil _ _

/-- A character of a part goes to the first part. -/
theorem splitAt_cons {c : Char} (hc : c ≠ mark) {s l : List Char} {ls : List (List Char)}
    (h : splitAt mark s = l :: ls) : splitAt mark (c :: s) = (c :: l) :: ls := by
  rw [splitAt, if_neg hc, h]

/-- A text without the mark is one part. -/
theorem splitAt_of_not_mem {s : List Char} (h : mark ∉ s) : splitAt mark s = [s] := by
  induction s with
  | nil => rfl
  | cons c s ih =>
    rw [List.mem_cons, not_or] at h
    exact splitAt_cons (Ne.symm h.1) (ih h.2)

/-- **A mark keeps parts apart.** -/
theorem splitAt_append (mark : Char) (a b : List Char) :
    splitAt mark (a ++ mark :: b) = splitAt mark a ++ splitAt mark b := by
  induction a with
  | nil => exact splitAt_cons_mark mark b
  | cons c a ih =>
    by_cases hc : c = mark
    · subst hc
      rw [List.cons_append, splitAt_cons_mark, splitAt_cons_mark, ih, List.cons_append]
    · obtain ⟨l, ls, hls⟩ := List.exists_cons_of_ne_nil (splitAt_ne_nil mark a)
      rw [hls, List.cons_append] at ih
      rw [List.cons_append, splitAt_cons hc ih, splitAt_cons hc hls, List.cons_append]

theorem mark_not_mem_of_mem_splitAt {s l : List Char} (h : l ∈ splitAt mark s) : mark ∉ l := by
  induction s generalizing l with
  | nil =>
    obtain rfl : l = [] := by simpa [splitAt] using h
    exact List.not_mem_nil
  | cons c s ih =>
    by_cases hc : c = mark
    · subst hc
      rw [splitAt_cons_mark] at h
      rcases List.mem_cons.1 h with rfl | h
      · exact List.not_mem_nil
      · exact ih h
    · obtain ⟨k, ks, hks⟩ := List.exists_cons_of_ne_nil (splitAt_ne_nil mark s)
      rw [splitAt_cons hc hks] at h
      rcases List.mem_cons.1 h with rfl | h
      · rw [List.mem_cons, not_or]
        exact ⟨Ne.symm hc, ih (hks ▸ List.mem_cons_self)⟩
      · exact ih (hks ▸ List.mem_cons_of_mem k h)

theorem intercalate_mark_cons (mark : Char) (l l' : List Char) (ls : List (List Char)) :
    [mark].intercalate (l :: l' :: ls) = l ++ mark :: [mark].intercalate (l' :: ls) := by
  rw [List.intercalate_cons_cons, List.append_assoc, List.singleton_append]

/-- Parts without the mark are the parts of the text that they join to. -/
theorem splitAt_intercalate {ls : List (List Char)} (hne : ls ≠ []) (h : ∀ l ∈ ls, mark ∉ l) :
    splitAt mark ([mark].intercalate ls) = ls := by
  induction ls with
  | nil => exact absurd rfl hne
  | cons l ls ih =>
    have hl : splitAt mark l = [l] := splitAt_of_not_mem (h l List.mem_cons_self)
    cases ls with
    | nil => simpa using hl
    | cons l' ls =>
      have hrest := ih (List.cons_ne_nil _ _) fun k hk => h k (List.mem_cons_of_mem l hk)
      rw [intercalate_mark_cons, splitAt_append, hl, hrest, List.singleton_append]

/-- A text is its parts joined. -/
theorem intercalate_splitAt (mark : Char) (s : List Char) :
    [mark].intercalate (splitAt mark s) = s := by
  induction s with
  | nil => rfl
  | cons c s ih =>
    obtain ⟨l, ls, hls⟩ := List.exists_cons_of_ne_nil (splitAt_ne_nil mark s)
    rw [hls] at ih
    by_cases hc : c = mark
    · subst hc
      rw [splitAt_cons_mark, hls, List.intercalate_cons_cons]
      exact congrArg (c :: ·) ih
    · rw [splitAt_cons hc hls, ← ih]
      cases ls <;> simp [List.intercalate_cons_cons]

/-- A part is a part of the text. -/
theorem infix_of_mem_splitAt {s l : List Char} (h : l ∈ splitAt mark s) : l <:+: s := by
  have hjoined : ∀ ls : List (List Char), l ∈ ls → l <:+: [mark].intercalate ls := by
    intro ls hl
    induction ls with
    | nil => exact absurd hl List.not_mem_nil
    | cons k ls ih =>
      cases ls with
      | nil =>
        obtain rfl := List.mem_singleton.1 hl
        simp
      | cons k' ls =>
        rw [intercalate_mark_cons]
        rcases List.mem_cons.1 hl with rfl | hl
        · exact (List.prefix_append _ _).isInfix
        · exact (ih hl).trans (List.IsSuffix.isInfix ⟨k ++ [mark], by simp⟩)
  rw [← intercalate_splitAt mark s]
  exact hjoined _ h

/-- Strings with a separator between neighbours, on characters. -/
theorem toList_joinWith (sep : String) (words : List String) :
    (joinWith sep words).toList = sep.toList.intercalate (words.map String.toList) := by
  induction words with
  | nil => rfl
  | cons word words ih =>
    cases words with
    | nil => simp [joinWith]
    | cons word' words =>
      rw [joinWith, String.toList_append, String.toList_append, ih, List.map_cons, List.map_cons,
        List.map_cons, List.intercalate_cons_cons]
      exact fun h => List.cons_ne_nil _ _ h

/-! ## Lines -/

/-- Lines with a newline between neighbours. -/
def joinLines (ls : List (List Char)) : List Char :=
  ['\n'].intercalate ls

theorem splitLines_cons_newline (s : List Char) : splitLines ('\n' :: s) = [] :: splitLines s :=
  splitAt_cons_mark '\n' s

/-- A text without newlines is one line. -/
theorem splitLines_of_not_mem {s : List Char} (h : '\n' ∉ s) : splitLines s = [s] :=
  splitAt_of_not_mem h

/-- A newline keeps lines apart. -/
theorem splitLines_append (a b : List Char) :
    splitLines (a ++ '\n' :: b) = splitLines a ++ splitLines b :=
  splitAt_append '\n' a b

theorem newline_not_mem_of_mem_splitLines {s l : List Char} (h : l ∈ splitLines s) : '\n' ∉ l :=
  mark_not_mem_of_mem_splitAt h

/-- Lines without newlines are the lines of the text that they join to. -/
theorem splitLines_joinLines {ls : List (List Char)} (hne : ls ≠ [])
    (h : ∀ l ∈ ls, '\n' ∉ l) : splitLines (joinLines ls) = ls :=
  splitAt_intercalate hne h

/-- A text is its lines joined. -/
theorem joinLines_splitLines (s : List Char) : joinLines (splitLines s) = s :=
  intercalate_splitAt '\n' s

end Text
end Walkthrough
