/-
# One pass over a text

A pass goes through a text once, from left to right.  Where a word stands that is to be
filled, its text is written, and the pass goes on behind the word; any other character is
copied.  What is written is never looked at again.

Replacing one word after another does look at it.  A replacement that is done first can be
left to the pass (`substitute_cons`) if the words are told apart by a mark that each of them
has at its start and nowhere else, and what the replacement writes is `Neutral` to the words
that are still to come: no word starts in it, and none runs into it.  Nor does such a
replacement make or break a word (`infix_replaceAll_iff`).
-/

import Walkthrough.Proofs.Text.Replace

namespace Walkthrough
namespace Text

/-- A word and the text that is written for it. -/
abbrev Filling := List Char × List Char

/-- The rest of a pass, of which the first `skip` characters belong to the last word. -/
def substituteAfter (fillings : List Filling) : (skip : Nat) → List Char → List Char
  | _, [] => []
  | skip + 1, _ :: s => substituteAfter fillings skip s
  | 0, c :: s =>
    match fillings.find? fun f => f.1.isPrefixOf (c :: s) with
    | some (p, r) => r ++ substituteAfter fillings (p.length - 1) s
    | none => c :: substituteAfter fillings 0 s

/-- One pass over a text, from left to right. -/
def substitute (fillings : List Filling) (s : List Char) : List Char :=
  substituteAfter fillings 0 s

/-- A word that has the mark at its start and nowhere else. -/
def Marked (mark : Char) (p : List Char) : Prop :=
  ∃ q, p = mark :: q ∧ mark ∉ q

/-- Words to fill that are marked, and of which no word starts another. -/
structure ToldApart (mark : Char) (fillings : List Filling) : Prop where
  marked : ∀ f ∈ fillings, Marked mark f.1
  unique : ∀ a ∈ fillings, ∀ b ∈ fillings, a.1 <+: b.1 → a = b

/-- A text in which no marked word starts, and into which the word `p` does not run. -/
structure Neutral (mark : Char) (p r : List Char) : Prop where
  noMark : mark ∉ r
  head : ∃ c t, r = c :: t ∧ c ∉ p

variable {mark : Char} {p r s : List Char} {fillings : List Filling}

theorem Marked.ne_nil (h : Marked mark p) : p ≠ [] := by
  obtain ⟨q, rfl, -⟩ := h
  exact List.cons_ne_nil mark q

/-- A text without the mark does not start with a marked word. -/
theorem Marked.not_starts (h : Marked mark p) {c : Char} (hc : mark ≠ c) : ¬ p <+: c :: s := by
  obtain ⟨q, rfl, -⟩ := h
  exact fun hstart => hc (List.cons_prefix_cons.1 hstart).1

theorem ToldApart.tail {f : Filling} (h : ToldApart mark (f :: fillings)) :
    ToldApart mark fillings where
  marked := fun a ha => h.marked a (List.mem_cons_of_mem f ha)
  unique := fun a ha b hb =>
    h.unique a (List.mem_cons_of_mem f ha) b (List.mem_cons_of_mem f hb)

/-- The word that a text starts with is the one that is found. -/
theorem ToldApart.find?_eq (h : ToldApart mark fillings) {f : Filling} (hmem : f ∈ fillings)
    (hstart : f.1 <+: s) : (fillings.find? fun a => a.1.isPrefixOf s) = some f := by
  have hsome : (fillings.find? fun a => a.1.isPrefixOf s).isSome :=
    List.find?_isSome.2 ⟨f, hmem, List.isPrefixOf_iff_prefix.2 hstart⟩
  obtain ⟨a, ha⟩ := Option.isSome_iff_exists.1 hsome
  have hmema := List.mem_of_find?_eq_some ha
  have hfound := List.find?_some ha
  have hstarta : a.1 <+: s := List.isPrefixOf_iff_prefix.1 hfound
  -- one of two words at the start of a text starts the other
  rcases List.prefix_or_prefix_of_prefix hstarta hstart with hpre | hpre
  · rw [ha, h.unique a hmema f hmem hpre]
  · rw [ha, h.unique f hmem a hmema hpre]

/-! ## The equations of a pass -/

@[simp] theorem substitute_nil (fillings : List Filling) : substitute fillings [] = [] := by
  rw [substitute, substituteAfter]

theorem substituteAfter_append (fillings : List Filling) (x s : List Char) :
    substituteAfter fillings x.length (x ++ s) = substituteAfter fillings 0 s := by
  induction x with
  | nil => rfl
  | cons c x ih => exact ih

/-- Where a word stands its text is written. -/
theorem substitute_word (h : ToldApart mark fillings) {f : Filling} (hmem : f ∈ fillings)
    (s : List Char) : substitute fillings (f.1 ++ s) = f.2 ++ substitute fillings s := by
  obtain ⟨p, r⟩ := f
  obtain ⟨q, rfl, -⟩ := h.marked _ hmem
  have hfind := h.find?_eq hmem (List.prefix_append (mark :: q) s)
  rw [List.cons_append] at hfind ⊢
  rw [substitute, substituteAfter, hfind]
  exact congrArg (r ++ ·) (substituteAfter_append fillings q s)

/-- Where no word stands the character is copied. -/
theorem substitute_copy {c : Char} (h : ∀ f ∈ fillings, ¬ f.1 <+: c :: s) :
    substitute fillings (c :: s) = c :: substitute fillings s := by
  have hfind : (fillings.find? fun f => f.1.isPrefixOf (c :: s)) = none :=
    List.find?_eq_none.2 fun f hfilling hstart =>
      h f hfilling (List.isPrefixOf_iff_prefix.1 hstart)
  rw [substitute, substituteAfter, hfind, substitute]

/-- A text without the mark is copied. -/
theorem substitute_append (h : ToldApart mark fillings) (hr : fillings ≠ [] → mark ∉ r)
    (s : List Char) : substitute fillings (r ++ s) = r ++ substitute fillings s := by
  induction r with
  | nil => rfl
  | cons c r ih =>
    have hcopy : ∀ f ∈ fillings, ¬ f.1 <+: c :: (r ++ s) := fun f hfilling =>
      (h.marked f hfilling).not_starts
        (List.ne_of_not_mem_cons (hr (List.ne_nil_of_mem hfilling)))
    rw [List.cons_append, substitute_copy hcopy,
      ih fun hne => List.not_mem_of_not_mem_cons (hr hne), List.cons_append]

/-- Without fillings a text is copied. -/
theorem substitute_of_no_fillings (s : List Char) : substitute [] s = s := by
  induction s with
  | nil => exact substitute_nil []
  | cons c s ih => rw [substitute_copy (List.forall_mem_nil _), ih]

/-- Induction along a pass: behind a word, or by one character. -/
@[elab_as_elim]
theorem pass_induction (h : ToldApart mark fillings) {motive : List Char → Prop} (nil : motive [])
    (word : ∀ f ∈ fillings, ∀ s, motive s → motive (f.1 ++ s))
    (copy : ∀ c s, (∀ f ∈ fillings, ¬ f.1 <+: c :: s) → motive s → motive (c :: s))
    (s : List Char) : motive s := by
  induction hn : s.length using Nat.strongRecOn generalizing s with
  | _ n ih =>
    cases s with
    | nil => exact nil
    | cons c s =>
      by_cases hword : ∃ f ∈ fillings, f.1 <+: c :: s
      · obtain ⟨f, hfilling, t, ht⟩ := hword
        have hshorter : t.length < n := by
          have hlength := congrArg List.length ht
          have hpos := List.length_pos_of_ne_nil (h.marked f hfilling).ne_nil
          rw [List.length_append] at hlength
          omega
        exact ht ▸ word f hfilling t (ih _ hshorter t rfl)
      · have hcopy : ∀ f ∈ fillings, ¬ f.1 <+: c :: s := fun f hfilling hstart =>
          hword ⟨f, hfilling, hstart⟩
        exact copy c s hcopy (ih _ (hn ▸ Nat.lt_succ_self _) s rfl)

/-! ## A replacement before a pass -/

/-- A text without the mark stays in front of what is replaced behind it. -/
theorem replaceAll_append_of_not_mem {q : List Char} (hq : mark ∉ q) (p r s : List Char) :
    replaceAll (mark :: p) r (q ++ s) = q ++ replaceAll (mark :: p) r s := by
  have hself : ¬ mark :: p <:+: q := fun hin => hq (hin.subset List.mem_cons_self)
  rw [replaceAll_append r (apart_of_head_not_mem hq s), replaceAll_eq_self r hself]

/-- Another marked word stays in front of what is replaced behind it. -/
theorem replaceAll_append_word {w : List Char} (hp : Marked mark p) (hw : Marked mark w)
    (hpw : ¬ p <+: w) (hwp : ¬ w <+: p) (r s : List Char) :
    replaceAll p r (w ++ s) = w ++ replaceAll p r s := by
  have hstart : ¬ p <+: w ++ s := fun hstart =>
    (List.prefix_or_prefix_of_prefix hstart (List.prefix_append w s)).elim hpw hwp
  obtain ⟨q, rfl, hq⟩ := hw
  obtain ⟨u, rfl, -⟩ := hp
  rw [List.cons_append] at hstart ⊢
  rw [replaceAll_cons r hstart, replaceAll_append_of_not_mem hq, List.cons_append]

/-- **Nothing runs into what is written**: what a text starts with after a replacement it
started with before, if what is written starts with another character. -/
theorem prefix_of_prefix_replaceAll {u : List Char} {c : Char} {t : List Char} (hc : c ∉ u)
    (h : u <+: replaceAll p (c :: t) s) : u <+: s := by
  by_cases hp : p = []
  · rwa [hp, replaceAll_nil_left] at h
  induction u generalizing s with
  | nil => exact List.nil_prefix
  | cons d u ih =>
    cases s with
    | nil => rwa [replaceAll_nil] at h
    | cons x s =>
      by_cases hstart : p <+: x :: s
      · obtain ⟨y, hy⟩ := hstart
        rw [← hy, replaceAll_append_self hp, List.cons_append] at h
        exact absurd (List.cons_prefix_cons.1 h).1.symm (List.ne_of_not_mem_cons hc)
      · rw [replaceAll_cons _ hstart] at h
        obtain ⟨rfl, hrest⟩ := List.cons_prefix_cons.1 h
        exact List.cons_prefix_cons.2 ⟨rfl, ih (List.not_mem_of_not_mem_cons hc) hrest⟩

/-- Behind a character a neutral text makes no word. -/
theorem Neutral.starts_of_starts {w : List Char} (h : Neutral mark w r) {c : Char}
    (hstart : w <+: c :: replaceAll p r s) : w <+: c :: s := by
  obtain ⟨d, t, rfl, hd⟩ := h.head
  cases w with
  | nil => exact List.nil_prefix
  | cons x w =>
    obtain ⟨rfl, hrest⟩ := List.cons_prefix_cons.1 hstart
    exact List.cons_prefix_cons.2
      ⟨rfl, prefix_of_prefix_replaceAll (List.not_mem_of_not_mem_cons hd) hrest⟩

/-- **A replacement is left to the pass** if what it writes is neutral to the words behind. -/
theorem substitute_cons (h : ToldApart mark ((p, r) :: fillings))
    (hr : ∀ f ∈ fillings, Neutral mark f.1 r) (s : List Char) :
    substitute ((p, r) :: fillings) s = substitute fillings (replaceAll p r s) := by
  have hp : Marked mark p := h.marked (p, r) List.mem_cons_self
  have hnoMark : fillings ≠ [] → mark ∉ r := fun hne => by
    obtain ⟨f, hfilling⟩ := List.exists_mem_of_ne_nil fillings hne
    exact (hr f hfilling).noMark
  induction s using pass_induction h with
  | nil => rw [replaceAll_nil, substitute_nil, substitute_nil]
  | word f hfilling s ih =>
    rw [substitute_word h hfilling, ih]
    by_cases heq : f = (p, r)
    · subst heq
      rw [replaceAll_append_self hp.ne_nil, substitute_append h.tail hnoMark]
    · have hmem : f ∈ fillings := (List.mem_cons.1 hfilling).resolve_left heq
      have hpw : ¬ p <+: f.1 := fun hpre =>
        heq (h.unique (p, r) List.mem_cons_self f hfilling hpre).symm
      have hwp : ¬ f.1 <+: p := fun hpre =>
        heq (h.unique f hfilling (p, r) List.mem_cons_self hpre)
      rw [replaceAll_append_word hp (h.marked f hfilling) hpw hwp, substitute_word h.tail hmem]
  | copy c s hcopy ih =>
    have hstart : ¬ p <+: c :: s := hcopy (p, r) List.mem_cons_self
    have hcopy' : ∀ f ∈ fillings, ¬ f.1 <+: c :: replaceAll p r s := fun f hfilling hword =>
      hcopy f (List.mem_cons_of_mem _ hfilling) ((hr f hfilling).starts_of_starts hword)
    rw [substitute_copy hcopy, ih, replaceAll_cons r hstart, substitute_copy hcopy']

/-! ## Words behind a replacement -/

/-- A text without the mark in front adds no word. -/
theorem Marked.infix_append_iff {q : List Char} (hp : Marked mark p) (hq : mark ∉ q) :
    p <:+: q ++ s ↔ p <:+: s := by
  obtain ⟨u, rfl, -⟩ := hp
  have hself : ¬ mark :: u <:+: q := fun hin => hq (hin.subset List.mem_cons_self)
  rw [Text.infix_append_iff (apart_of_head_not_mem hq s), or_iff_right hself]

/-- Another marked word in front adds no word. -/
theorem Marked.infix_append_word_iff {w : List Char} (hp : Marked mark p) (hw : Marked mark w)
    (hpw : ¬ p <+: w) (hwp : ¬ w <+: p) : p <:+: w ++ s ↔ p <:+: s := by
  have hstart : ¬ p <+: w ++ s := fun hstart =>
    (List.prefix_or_prefix_of_prefix hstart (List.prefix_append w s)).elim hpw hwp
  obtain ⟨q, rfl, hq⟩ := hw
  rw [List.cons_append] at hstart ⊢
  rw [List.infix_cons_iff, or_iff_right hstart, hp.infix_append_iff hq]

/-- **A replacement makes and breaks no other word** if what it writes is neutral to it. -/
theorem infix_replaceAll_iff {w : List Char} (hp : Marked mark p) (hw : Marked mark w)
    (hpw : ¬ p <+: w) (hwp : ¬ w <+: p) (hr : Neutral mark w r) :
    w <:+: replaceAll p r s ↔ w <:+: s := by
  induction s using cut_induction hp.ne_nil with
  | nil => rw [replaceAll_nil]
  | cut s ih =>
    rw [replaceAll_append_self hp.ne_nil, hw.infix_append_iff hr.noMark, ih,
      hw.infix_append_word_iff hp hwp hpw]
  | keep c s hstart ih =>
    rw [replaceAll_cons r hstart, List.infix_cons_iff, List.infix_cons_iff, ih]
    refine or_congr_left ⟨hr.starts_of_starts, fun hword => ?_⟩
    -- the word holds no mark behind its first character, so nothing in it is replaced
    obtain ⟨q, rfl, hq⟩ := hw
    obtain ⟨u, rfl, -⟩ := hp
    obtain ⟨rfl, y, rfl⟩ := List.cons_prefix_cons.1 hword
    rw [replaceAll_append_of_not_mem hq]
    exact List.cons_prefix_cons.2 ⟨rfl, List.prefix_append q _⟩

end Text
end Walkthrough
