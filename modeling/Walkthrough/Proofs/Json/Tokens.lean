/-
# Reading between the tokens

The readers between the tokens skip white space as far as it goes and then look at one
character.  What they skip is a gap of the grammar (`gap_of_first`, `gap_of_comma`), and a
gap is what they skip (`Gap.skip`), so the next item, the next key and the colon are found
exactly where the grammar has them.
-/

import Walkthrough.Proofs.Json.Naturals

namespace Walkthrough
namespace Json

variable {ε α β : Type}

/-! ## White space -/

theorem isSpace_iff {x : Char} : isSpace x = true ↔ x ∈ [' ', '\t', '\n', '\r'] := by
  simp [isSpace, or_assoc]

theorem blank_iff {w : List Char} : Blank w ↔ ∀ x ∈ w, isSpace x = true :=
  forall₂_congr fun _ _ => isSpace_iff.symm

/-- White space is skipped as far as it goes. -/
theorem rest_skipSpace_iff {c : Cursor} {s : List Char} :
    (skipSpace c).rest = s ↔
      (∃ w, Blank w ∧ c.rest = w ++ s) ∧ ∀ x ∈ s.head?, isSpace x = false := by
  constructor
  · rintro rfl
    obtain ⟨hblank, hspan, hends⟩ := (span_iff (l := c.rest)).1 ⟨rfl, rfl⟩
    exact ⟨⟨_, blank_iff.2 hblank, hspan⟩, hends⟩
  · rintro ⟨⟨w, hblank, hspan⟩, hends⟩
    exact (span_iff.2 ⟨blank_iff.1 hblank, hspan, hends⟩).2

theorem rest_skipSpace_cons_iff {c : Cursor} {x : Char} {s : List Char} (hx : isSpace x = false) :
    (skipSpace c).rest = x :: s ↔ ∃ w, Blank w ∧ c.rest = w ++ x :: s := by
  rw [rest_skipSpace_iff, and_iff_left]
  rintro y hy
  rwa [← Option.some.inj hy]

/-- A text that starts with an element: neither white space nor the end of an array. -/
def Starts (s : List Char) : Prop :=
  ∃ x rest, s = x :: rest ∧ isSpace x = false ∧ x ≠ ']'

/-- There is nothing to skip at the start of an element. -/
theorem Starts.skipSpace {c : Cursor} (h : Starts c.rest) : (skipSpace c).rest = c.rest := by
  obtain ⟨x, rest, hrest, hspace, -⟩ := h
  rw [hrest]
  exact (rest_skipSpace_cons_iff hspace).2 ⟨[], List.forall_mem_nil _, hrest⟩

/-- White space in front of a text that starts with something else is what is skipped. -/
theorem spans_led_iff {E : α → List Char → Prop} {c : Cursor} {a : α} {s : List Char}
    (hstarts : ∀ t, E a t → ∀ s, Starts (t ++ s)) :
    Spans (Led E) a c.rest s ↔ Spans E a (skipSpace c).rest s := by
  constructor
  · rintro ⟨_, ⟨w, t, hw, ht, rfl⟩, hspan⟩
    obtain ⟨x, rest, hcons, hspace, -⟩ := hstarts t ht s
    rw [List.append_assoc, hcons] at hspan
    rw [(rest_skipSpace_cons_iff hspace).2 ⟨w, hw, hspan⟩]
    exact ⟨t, ht, hcons.symm⟩
  · rintro ⟨t, ht, hspan⟩
    obtain ⟨⟨w, hw, hrest⟩, -⟩ := (rest_skipSpace_iff (c := c)).1 rfl
    exact ⟨w ++ t, ⟨w, t, hw, ht, rfl⟩, by rw [hrest, hspan, List.append_assoc]⟩

/-- At the start of an element there is no white space in front of it. -/
theorem spans_led_iff_of_starts {E : α → List Char → Prop} {a : α} {s s' : List Char}
    (hstarts : ∀ t, E a t → ∀ s, Starts (t ++ s)) (h : Starts s) :
    Spans (Led E) a s s' ↔ Spans E a s s' := by
  have hskip : (skipSpace (Cursor.ofText s)).rest = s := Starts.skipSpace (c := Cursor.ofText s) h
  have hiff := spans_led_iff (c := Cursor.ofText s) (s := s') hstarts
  rwa [hskip] at hiff

theorem starts_of_spans {E : α → List Char → Prop} {a : α} {s s' : List Char}
    (hstarts : ∀ t, E a t → ∀ s, Starts (t ++ s)) (h : Spans E a s s') : Starts s := by
  obtain ⟨t, ht, rfl⟩ := h
  exact hstarts t ht s'

/-! ## Punctuation -/

/-- What the readers of lists skip at the start is a gap there. -/
theorem gap_of_first {c : Cursor} : ∃ w, Gap true w ∧ c.rest = w ++ (skipSpace c).rest := by
  obtain ⟨⟨w, hw, hrest⟩, -⟩ := (rest_skipSpace_iff (c := c)).1 rfl
  exact ⟨w, .first hw, hrest⟩

/-- What the readers of lists skip around a comma is a gap behind an element. -/
theorem gap_of_comma {c : Cursor} {rest : List Char} (hskip : (skipSpace c).rest = ',' :: rest) :
    ∃ w, Gap false w ∧ c.rest = w ++ (skipSpace ((skipSpace c).past ',' rest)).rest := by
  obtain ⟨⟨w, hw, hrest⟩, -⟩ := (rest_skipSpace_iff (c := c)).1 rfl
  obtain ⟨⟨w', hw', hrest'⟩, -⟩ :=
    (rest_skipSpace_iff (c := (skipSpace c).past ',' rest)).1 rfl
  refine ⟨_, .next hw hw', ?_⟩
  rw [List.append_assoc, List.cons_append, ← hrest']
  exact hrest.trans (by rw [hskip]; rfl)

/-- A gap is skipped, the comma in it taken. -/
theorem Gap.skip {first : Bool} {c : Cursor} {w rest : List Char} {x : Char} (h : Gap first w)
    (hx : isSpace x = false) (hrest : c.rest = w ++ x :: rest) :
    first = true ∧ (skipSpace c).rest = x :: rest ∨
      first = false ∧ ∃ u, (skipSpace c).rest = ',' :: u ∧
        (skipSpace ((skipSpace c).past ',' u)).rest = x :: rest := by
  cases h with
  | first hw => exact .inl ⟨rfl, (rest_skipSpace_cons_iff hx).2 ⟨w, hw, hrest⟩⟩
  | @next w w' hw hw' =>
    have hskip : (skipSpace c).rest = ',' :: (w' ++ x :: rest) :=
      (rest_skipSpace_cons_iff (by decide)).2 ⟨w, hw, by simp [hrest]⟩
    exact .inr ⟨rfl, _, hskip, (rest_skipSpace_cons_iff hx).2 ⟨w', hw', rfl⟩⟩

/-- Behind a gap stands the next item. -/
theorem yields_nextItem_true {first : Bool} {c : Cursor} {s : List Char} :
    Yields (nextItem first c) true s ↔ (∃ w, Gap first w ∧ c.rest = w ++ s) ∧ Starts s := by
  constructor
  · intro h
    simp only [nextItem] at h
    split at h
    case h_1 => exact (yields_error.1 h).elim
    case h_2 => exact Bool.noConfusion (yields_ok.1 h).1
    case h_3 x rest hmark hskip =>
      split at h
      case isTrue hfirst =>
        obtain ⟨-, rfl⟩ := yields_ok.1 h
        have hspace := (rest_skipSpace_iff.1 hskip).2 x rfl
        exact ⟨hfirst ▸ gap_of_first, x, rest, hskip, hspace, hmark⟩
      split at h
      case isFalse => exact (yields_error.1 h).elim
      case isTrue hfirst hcomma =>
        subst hcomma
        split at h
        case h_1 => exact (yields_error.1 h).elim
        case h_2 => exact (yields_error.1 h).elim
        case h_3 y rest' hmark' hskip' =>
          obtain ⟨-, rfl⟩ := yields_ok.1 h
          have hspace := (rest_skipSpace_iff.1 hskip').2 y rfl
          exact ⟨Bool.eq_false_iff.2 hfirst ▸ gap_of_comma hskip, y, rest', hskip', hspace, hmark'⟩
  · rintro ⟨⟨w, hgap, hrest⟩, x, rest, rfl, hspace, hmark⟩
    rcases hgap.skip hspace hrest with ⟨rfl, hskip⟩ | ⟨rfl, u, hskip, hskip'⟩
    · simp [nextItem, hskip]
    · simp [nextItem, hskip, hskip']

/-- Behind white space stands the closing bracket. -/
theorem yields_nextItem_false {first : Bool} {c : Cursor} {s : List Char} :
    Yields (nextItem first c) false s ↔
      ∃ rest, s = ']' :: rest ∧ ∃ w, Blank w ∧ c.rest = w ++ s := by
  constructor
  · intro h
    simp only [nextItem] at h
    split at h
    case h_1 => exact (yields_error.1 h).elim
    case h_2 rest hskip =>
      obtain ⟨-, rfl⟩ := yields_ok.1 h
      exact ⟨rest, hskip, (rest_skipSpace_iff.1 rfl).1⟩
    case h_3 =>
      split at h
      case isTrue => exact Bool.noConfusion (yields_ok.1 h).1
      split at h
      case isFalse => exact (yields_error.1 h).elim
      split at h
      case h_1 => exact (yields_error.1 h).elim
      case h_2 => exact (yields_error.1 h).elim
      case h_3 => exact Bool.noConfusion (yields_ok.1 h).1
  · rintro ⟨rest, rfl, hrest⟩
    have hskip := (rest_skipSpace_cons_iff (by decide)).2 hrest
    simp [nextItem, hskip]

theorem yields_readKey {c : Cursor} {k? : Option String} {s : List Char} :
    Yields (readKey c) k? s ↔ ∃ k, k? = some k ∧ Spans StringText k c.rest s := by
  constructor
  · intro h
    rw [readKey] at h
    split at h
    case h_1 => exact (yields_error.1 h).elim
    case h_2 x rest hrest =>
      split at h
      case isTrue hx =>
        obtain ⟨k, c₁, hk, h⟩ := yields_bind.1 h
        obtain ⟨rfl, rfl⟩ := yields_ok.1 h
        obtain ⟨t, ht, hrest'⟩ := yields_readString.1 ⟨c₁, hk, rfl⟩
        replace hrest' : rest = t ++ c₁.rest := hrest'
        exact ⟨k, rfl, '\x22' :: t, ⟨t, ht, rfl⟩, by rw [hrest, hx, hrest']; rfl⟩
      case isFalse =>
        split at h <;> exact (yields_error.1 h).elim
  · rintro ⟨k, rfl, _, ⟨t, ht, rfl⟩, hrest⟩
    rw [readKey, hrest]
    obtain ⟨c₁, hc₁, hrest₁⟩ :=
      (yields_readString (c := c.past '\x22' (t ++ s))).2 ⟨t, ht, rfl⟩
    exact yields_bind.2 ⟨k, c₁, hc₁, yields_ok.2 ⟨rfl, hrest₁⟩⟩

/-- Behind a gap stands the next key. -/
theorem yields_nextKey_some {first : Bool} {c : Cursor} {k : String} {s : List Char} :
    Yields (nextKey first c) (some k) s ↔
      ∃ u, (∃ w, Gap first w ∧ c.rest = w ++ u) ∧ Spans StringText k u s := by
  constructor
  · intro h
    simp only [nextKey] at h
    split at h
    case h_1 => exact (yields_error.1 h).elim
    case h_2 x rest hskip =>
      split at h
      case isTrue => simp at h
      split at h
      case isTrue hfirst =>
        obtain ⟨_, ⟨⟩, hspan⟩ := yields_readKey.1 h
        exact ⟨_, hfirst ▸ gap_of_first, hspan⟩
      split at h
      case isFalse => exact (yields_error.1 h).elim
      case isTrue hfirst hcomma =>
        subst hcomma
        obtain ⟨_, ⟨⟩, hspan⟩ := yields_readKey.1 h
        exact ⟨_, Bool.eq_false_iff.2 hfirst ▸ gap_of_comma hskip, hspan⟩
  · rintro ⟨u, ⟨w, hgap, hrest⟩, hspan⟩
    obtain ⟨rest, rfl⟩ : ∃ rest, u = '\x22' :: rest := by
      obtain ⟨_, ⟨t, -, rfl⟩, rfl⟩ := hspan
      exact ⟨t ++ s, rfl⟩
    rcases hgap.skip (by decide) hrest with ⟨rfl, hskip⟩ | ⟨rfl, u, hskip, hskip'⟩
    · simp only [nextKey, hskip]
      exact yields_readKey.2 ⟨k, rfl, by rwa [hskip]⟩
    · simp only [nextKey, hskip]
      exact yields_readKey.2 ⟨k, rfl, by rwa [hskip']⟩

/-- Behind white space stands the closing brace. -/
theorem yields_nextKey_none {first : Bool} {c : Cursor} {s : List Char} :
    Yields (nextKey first c) none s ↔
      ∃ rest, s = '\x7d' :: rest ∧ ∃ w, Blank w ∧ c.rest = w ++ s := by
  constructor
  · intro h
    simp only [nextKey] at h
    split at h
    case h_1 => exact (yields_error.1 h).elim
    case h_2 x rest hskip =>
      split at h
      case isTrue hx =>
        obtain ⟨-, rfl⟩ := yields_ok.1 h
        exact ⟨rest, by rw [hskip, hx], (rest_skipSpace_iff.1 rfl).1⟩
      split at h
      case isTrue =>
        obtain ⟨_, ⟨⟩, -⟩ := yields_readKey.1 h
      split at h
      case isTrue =>
        obtain ⟨_, ⟨⟩, -⟩ := yields_readKey.1 h
      case isFalse => exact (yields_error.1 h).elim
  · rintro ⟨rest, rfl, hrest⟩
    have hskip := (rest_skipSpace_cons_iff (by decide)).2 hrest
    simp [nextKey, hskip]

theorem yields_readColon {c : Cursor} {s : List Char} :
    Yields (readColon c) () s ↔ ∃ w, Blank w ∧ c.rest = w ++ ':' :: s := by
  rw [← rest_skipSpace_cons_iff (by decide)]
  simp only [readColon]
  split
  case h_1 hrest => simp [hrest]
  case h_2 x rest hrest =>
    split
    case isTrue hx => simp [hrest, hx, Cursor.past]
    case isFalse hx => simp [hrest, hx]

/-! ## Around the tokens -/

/-- No number goes on at white space. -/
theorem Blank.ends {w s : List Char} (hw : Blank w) (hs : Ends s) : Ends (w ++ s) := by
  cases w with
  | nil => exact hs
  | cons y w =>
    refine ends_cons.2 ?_
    have hmem := hw y List.mem_cons_self
    simp only [List.mem_cons, List.not_mem_nil, or_false] at hmem
    rcases hmem with rfl | rfl | rfl | rfl <;> decide

/-- No number goes on at a comma. -/
theorem ends_of_gap {s u : List Char} (h : ∃ w, Gap false w ∧ s = w ++ u) : Ends s := by
  obtain ⟨_, hgap, rfl⟩ := h
  cases hgap with
  | next hw hw' =>
    rw [List.append_assoc]
    exact hw.ends (ends_cons.2 (by decide))

end Json
end Walkthrough
