/-
# What it is to cut a text at a word

`Cuts p s ps` says that `ps` are the texts between the cuts of `s` at `p`, where every cut is
at the leftmost occurrence of `p` in what is left.  It does not say how they are found.

A text has exactly one such list (`cuts_iff_eq_pieces`), so `pieces`, which goes through the
text once and never back, misses no cut and moves none, also where occurrences of the word
overlap.
-/

import Walkthrough.Proofs.Text.Replace

namespace Walkthrough
namespace Text

variable {p s a : List Char} {ps : List (List Char)}

/-- No occurrence of `p` in `s` starts before the end of `a`. -/
def NotBefore (p a s : List Char) : Prop :=
  ∀ x y, s = x ++ p ++ y → a.length ≤ x.length

/-- `ps` are the texts between the cuts of a text at `p`, each cut at the leftmost occurrence of
`p` in the rest of the text. -/
inductive Cuts (p : List Char) : List Char → List (List Char) → Prop where
  | last {s : List Char} : ¬ p <:+: s → Cuts p s [s]
  | cut {a s : List Char} {ps : List (List Char)} :
      NotBefore p a (a ++ p ++ s) → Cuts p s ps → Cuts p (a ++ p ++ s) (a :: ps)

/-- Before the leftmost occurrence there is none. -/
theorem NotBefore.absent (hp : p ≠ []) (h : NotBefore p a (a ++ p ++ s)) : ¬ p <:+: a := by
  rintro ⟨x, y, hxy⟩
  have hsplit : a ++ p ++ s = x ++ p ++ (y ++ p ++ s) := by simp [← hxy]
  have hbefore := h x (y ++ p ++ s) hsplit
  have hlength := congrArg List.length hxy
  have hpos := List.length_pos_of_ne_nil hp
  simp only [List.length_append] at hlength
  omega

/-- A text in front of the leftmost occurrence does not start with the word. -/
theorem NotBefore.not_start {c : Char} (h : NotBefore p (c :: a) s) : ¬ p <+: s := by
  rintro ⟨y, hy⟩
  have hbefore := h [] y hy.symm
  simp at hbefore

theorem NotBefore.tail {c : Char} (h : NotBefore p (c :: a) (c :: s)) : NotBefore p a s := by
  intro x y hxy
  have hbefore := h (c :: x) y (by rw [hxy, List.cons_append, List.cons_append])
  simpa using hbefore

theorem NotBefore.cons {c : Char} (h : NotBefore p a s) (hstart : ¬ p <+: c :: s) :
    NotBefore p (c :: a) (c :: s) := by
  intro x y hxy
  cases x with
  | nil => exact absurd ⟨y, hxy.symm⟩ hstart
  | cons d x =>
    have hbefore := h x y (List.cons.inj hxy).2
    simpa using hbefore

/-! ## Cuts are the pieces -/

/-- The pieces joined with the word are the text. -/
theorem Cuts.intercalate_eq (h : Cuts p s ps) : p.intercalate ps = s := by
  induction h with
  | last _ => exact List.intercalate_singleton
  | @cut a s ps _ hrest ih =>
    obtain ⟨q, qs, rfl⟩ : ∃ q qs, ps = q :: qs := by
      cases hrest <;> exact ⟨_, _, rfl⟩
    rw [List.intercalate_cons_cons, ih]

/-- No piece holds the word. -/
theorem Cuts.absent (hp : p ≠ []) (h : Cuts p s ps) : ∀ q ∈ ps, ¬ p <:+: q := by
  induction h with
  | last hnone => exact List.forall_mem_singleton.2 hnone
  | cut hbefore _ ih => exact List.forall_mem_cons.2 ⟨hbefore.absent hp, ih⟩

/-- A text that does not start with the word is cut where its rest is. -/
theorem Cuts.cons {c : Char} (h : Cuts p s ps) (hstart : ¬ p <+: c :: s) :
    Cuts p (c :: s) (consPiece c ps) := by
  cases h with
  | last hnone =>
    refine .last fun hin => ?_
    exact (List.infix_cons_iff.1 hin).elim hstart hnone
  | cut hbefore hrest => exact .cut (hbefore.cons hstart) hrest

/-- The pieces of a text are its cuts. -/
theorem cuts_pieces (hp : p ≠ []) (s : List Char) : Cuts p s (pieces p s) := by
  induction s using cut_induction hp with
  | nil =>
    rw [pieces_nil hp]
    exact .last fun hin => hp (List.infix_nil.1 hin)
  | cut s ih =>
    rw [pieces_append_self hp]
    exact .cut (a := []) (fun _ _ _ => Nat.zero_le _) ih
  | keep c s hstart ih =>
    rw [pieces_cons hstart]
    exact ih.cons hstart

theorem pieces_of_absent (hp : p ≠ []) (h : ¬ p <:+: s) : pieces p s = [s] := by
  induction s with
  | nil => exact pieces_nil hp
  | cons c s ih =>
    rw [List.infix_cons_iff, not_or] at h
    rw [pieces_cons h.1, ih h.2, consPiece]

/-- The first piece is in front of the leftmost occurrence. -/
theorem pieces_of_notBefore (hp : p ≠ []) (h : NotBefore p a (a ++ p ++ s)) :
    pieces p (a ++ p ++ s) = a :: pieces p s := by
  induction a with
  | nil => exact pieces_append_self hp s
  | cons c a ih =>
    rw [List.cons_append, List.cons_append] at h ⊢
    rw [pieces_cons h.not_start, ih h.tail, consPiece]

/-- **A text has exactly one list of cuts**: its pieces. -/
theorem cuts_iff_eq_pieces (hp : p ≠ []) : Cuts p s ps ↔ ps = pieces p s := by
  refine ⟨fun h => ?_, fun h => h ▸ cuts_pieces hp s⟩
  induction h with
  | last hnone => exact (pieces_of_absent hp hnone).symm
  | cut hbefore _ ih => rw [pieces_of_notBefore hp hbefore, ih]

end Text
end Walkthrough
