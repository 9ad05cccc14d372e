/-
# Laws of cutting and filling

`pieces` and `replaceAll` are known from three equations each: for an empty text, for a text
that starts with the word, which is cut there and again behind it, and for any other text,
which keeps its first character.  Everything else here follows from them by induction on the
length of a text.

Filling a text `a ++ b` is filling `a` and filling `b` wherever no occurrence of the word
has a part in both (`replaceAll_append`).  A character that the word does not contain keeps
its two sides apart, so a text can be filled line by line (`replaceAll_append_cons`).

How often a word is cut out does not depend on what is filled in, so characters are counted
as they go and come (`exists_cuts`), and lengths with them.
-/

import Mathlib.Data.List.Basic
import Walkthrough.Text.Replace

namespace Walkthrough
namespace Text

/-! ## Occurrences -/

theorem occursIn_iff_isInfix {p s : List Char} : occursIn p s = true ↔ p <:+: s := by
  induction s with
  | nil => rw [occursIn, List.isPrefixOf_iff_prefix, List.prefix_nil, List.infix_nil]
  | cons c s ih =>
    rw [occursIn, Bool.or_eq_true, List.isPrefixOf_iff_prefix, ih, List.infix_cons_iff]

/-- No occurrence of `p` in `a ++ b` has a part in `a` and a part in `b`. -/
def Apart (p a b : List Char) : Prop :=
  ∀ x y, a ++ b = x ++ p ++ y → x.length + p.length ≤ a.length ∨ a.length ≤ x.length

theorem Apart.of_append_left {p a' a b : List Char} (h : Apart p (a' ++ a) b) : Apart p a b := by
  intro x y hxy
  have hlonger : a' ++ a ++ b = (a' ++ x) ++ p ++ y := by simp [hxy]
  have hends := h (a' ++ x) y hlonger
  simp only [List.length_append] at hends
  omega

/-- A character that the word does not contain keeps what is before it apart. -/
theorem apart_cons_of_not_mem {p : List Char} {c : Char} (hc : c ∉ p) (a b : List Char) :
    Apart p a (c :: b) := by
  intro x y hxy
  by_contra hends
  refine hc ?_
  -- the occurrence runs over the place of the character
  have hx : x.length ≤ a.length := by omega
  have hp : a.length - x.length < p.length := by omega
  have hat := congrArg (·[a.length]?) hxy
  simp only [List.getElem?_append_right (Nat.le_refl _), Nat.sub_self, List.getElem?_cons_zero,
    List.append_assoc, List.getElem?_append_right hx, List.getElem?_append_left hp] at hat
  exact List.mem_of_getElem? hat.symm

/-- A text that does not hold the first character of the word keeps what is behind it
apart. -/
theorem apart_of_head_not_mem {k : Char} {q a : List Char} (hk : k ∉ a) (b : List Char) :
    Apart (k :: q) a b := by
  intro x y hxy
  by_contra hends
  refine hk ?_
  have hx : x.length < a.length := by omega
  have hat := congrArg (·[x.length]?) hxy
  simp only [List.append_assoc, List.getElem?_append_left hx,
    List.getElem?_append_right (Nat.le_refl _), Nat.sub_self, List.cons_append,
    List.getElem?_cons_zero] at hat
  exact List.mem_of_getElem? hat

/-- Where the parts are apart, a word occurs in one of them or not at all. -/
theorem infix_append_iff {p a b : List Char} (h : Apart p a b) :
    p <:+: a ++ b ↔ p <:+: a ∨ p <:+: b := by
  constructor
  · rintro ⟨x, y, hxy⟩
    rcases h x y hxy.symm with hends | hstarts
    · left
      have hprefix : x ++ p <+: a := by
        refine List.prefix_of_prefix_length_le ⟨y, hxy⟩ (List.prefix_append a b) ?_
        rwa [List.length_append]
      exact (List.suffix_append x p).isInfix.trans hprefix.isInfix
    · right
      rw [List.append_assoc] at hxy
      rcases List.append_eq_append_iff.1 hxy with ⟨as, rfl, htail⟩ | ⟨bs, rfl, htail⟩
      · -- `x` is no longer than `a`, so it is `a`
        rw [List.length_append] at hstarts
        obtain rfl : as = [] := List.eq_nil_of_length_eq_zero (by omega)
        exact ⟨[], y, by simpa using htail⟩
      · exact ⟨bs, y, by rw [htail, List.append_assoc]⟩
  · rintro (hin | hin)
    · exact hin.trans (List.prefix_append a b).isInfix
    · exact hin.trans (List.suffix_append a b).isInfix

/-! ## The three equations -/

/-- `r` put in front of what has been joined. -/
theorem intercalate_nil_cons (r : List Char) {ps : List (List Char)} (h : ps ≠ []) :
    r.intercalate ([] :: ps) = r ++ r.intercalate ps := by
  cases ps with
  | nil => exact absurd rfl h
  | cons q qs => rw [List.intercalate_cons_cons, List.nil_append]

theorem intercalate_consPiece (r : List Char) (c : Char) (ps : List (List Char)) :
    r.intercalate (consPiece c ps) = c :: r.intercalate ps := by
  cases ps with
  | nil => simp [consPiece]
  | cons q qs =>
    cases qs with
    | nil => simp [consPiece]
    | cons q' qs => simp [consPiece, List.intercalate_cons_cons]

theorem piecesAfter_ne_nil (p : List Char) (skip : Nat) (s : List Char) :
    piecesAfter p skip s ≠ [] := by
  induction s generalizing skip with
  | nil => simp [piecesAfter]
  | cons c s ih =>
    cases skip with
    | succ skip => exact ih skip
    | zero =>
      rw [piecesAfter]
      split
      · exact List.cons_ne_nil _ _
      · cases piecesAfter p 0 s <;> exact List.cons_ne_nil _ _

/-- The characters of the last cut are passed over. -/
theorem piecesAfter_append (p x s : List Char) :
    piecesAfter p x.length (x ++ s) = piecesAfter p 0 s := by
  induction x with
  | nil => rfl
  | cons c x ih => exact ih

theorem pieces_of_ne_nil {p : List Char} (hp : p ≠ []) (s : List Char) :
    pieces p s = piecesAfter p 0 s := by
  rw [pieces, if_neg (by simpa using hp)]

variable {p : List Char}

theorem pieces_nil (hp : p ≠ []) : pieces p [] = [[]] := by
  rw [pieces_of_ne_nil hp, piecesAfter]

/-- A text that starts with the word is cut there. -/
theorem pieces_append_self (hp : p ≠ []) (s : List Char) : pieces p (p ++ s) = [] :: pieces p s := by
  rw [pieces_of_ne_nil hp, pieces_of_ne_nil hp]
  cases p with
  | nil => exact absurd rfl hp
  | cons c q =>
    have hstart : (c :: q).isPrefixOf (c :: (q ++ s)) = true :=
      List.isPrefixOf_iff_prefix.2 (List.prefix_append (c :: q) s)
    have hrest : piecesAfter (c :: q) ((c :: q).length - 1) (q ++ s) = _ :=
      piecesAfter_append (c :: q) q s
    rw [List.cons_append, piecesAfter, if_pos hstart, hrest]

/-- A text that does not start with the word keeps its first character. -/
theorem pieces_cons {c : Char} {s : List Char} (h : ¬ p <+: c :: s) :
    pieces p (c :: s) = consPiece c (pieces p s) := by
  have hp : p ≠ [] := fun hp => h (hp ▸ List.nil_prefix)
  have hstart : ¬ p.isPrefixOf (c :: s) = true := fun hs => h (List.isPrefixOf_iff_prefix.1 hs)
  rw [pieces_of_ne_nil hp, pieces_of_ne_nil hp, piecesAfter, if_neg hstart]

theorem pieces_ne_nil (p s : List Char) : pieces p s ≠ [] := by
  unfold pieces
  split
  · exact List.cons_ne_nil _ _
  · exact piecesAfter_ne_nil p 0 s

@[simp] theorem replaceAll_nil (p r : List Char) : replaceAll p r [] = [] := by
  unfold replaceAll pieces
  split <;> simp [piecesAfter]

/-- An empty word occurs nowhere. -/
@[simp] theorem replaceAll_nil_left (r s : List Char) : replaceAll [] r s = s := by
  simp [replaceAll, pieces]

/-- A text that starts with the word is filled there. -/
theorem replaceAll_append_self (hp : p ≠ []) (r s : List Char) :
    replaceAll p r (p ++ s) = r ++ replaceAll p r s := by
  rw [replaceAll, pieces_append_self hp, intercalate_nil_cons r (pieces_ne_nil p s), replaceAll]

/-- A text that does not start with the word keeps its first character. -/
theorem replaceAll_cons (r : List Char) {c : Char} {s : List Char} (h : ¬ p <+: c :: s) :
    replaceAll p r (c :: s) = c :: replaceAll p r s := by
  rw [replaceAll, pieces_cons h, intercalate_consPiece, replaceAll]

/-! ## Consequences -/

/-- A text in which the word does not occur stays as it is. -/
theorem replaceAll_eq_self (r : List Char) {s : List Char} (h : ¬ p <:+: s) :
    replaceAll p r s = s := by
  induction s with
  | nil => exact replaceAll_nil p r
  | cons c s ih =>
    rw [List.infix_cons_iff, not_or] at h
    rw [replaceAll_cons r h.1, ih h.2]

/-- Induction along the cuts of a text: behind a cut, or by one character. -/
@[elab_as_elim]
theorem cut_induction (hp : p ≠ []) {motive : List Char → Prop} (nil : motive [])
    (cut : ∀ s, motive s → motive (p ++ s))
    (keep : ∀ c s, ¬ p <+: c :: s → motive s → motive (c :: s)) (s : List Char) : motive s := by
  induction hn : s.length using Nat.strongRecOn generalizing s with
  | _ n ih =>
    cases s with
    | nil => exact nil
    | cons c s =>
      by_cases hstart : p <+: c :: s
      · obtain ⟨t, ht⟩ := hstart
        have hshorter : t.length < n := by
          have hlen := congrArg List.length ht
          have hpos := List.length_pos_of_ne_nil hp
          simp only [List.length_append] at hlen
          omega
        exact ht ▸ cut t (ih _ hshorter t rfl)
      · exact keep c s hstart (ih _ (hn ▸ Nat.lt_succ_self _) s rfl)

/-- **Texts are filled one by one** where no occurrence of the word runs from one into the
next. -/
theorem replaceAll_append (r : List Char) {a b : List Char} (h : Apart p a b) :
    replaceAll p r (a ++ b) = replaceAll p r a ++ replaceAll p r b := by
  by_cases hp : p = []
  · simp [hp]
  induction a using cut_induction hp with
  | nil => simp
  | cut a ih =>
    rw [List.append_assoc, replaceAll_append_self hp, replaceAll_append_self hp,
      ih h.of_append_left, List.append_assoc]
  | keep c a hstart ih =>
    -- an occurrence at the start of the whole would end within `c :: a`
    have hstart' : ¬ p <+: c :: (a ++ b) := by
      rintro ⟨y, hy⟩
      have hends : p.length ≤ (c :: a).length := by simpa using h [] y (by simp [hy])
      exact hstart (List.prefix_of_prefix_length_le ⟨y, hy⟩ (List.prefix_append (c :: a) b) hends)
    have hrest : Apart p a b := Apart.of_append_left (show Apart p ([c] ++ a) b from h)
    rw [List.cons_append, replaceAll_cons r hstart', replaceAll_cons r hstart, ih hrest,
      List.cons_append]

/-- A character that the word does not contain stays, and both sides are filled. -/
theorem replaceAll_append_cons (r : List Char) {c : Char} (hc : c ∉ p) (a b : List Char) :
    replaceAll p r (a ++ c :: b) = replaceAll p r a ++ c :: replaceAll p r b := by
  by_cases hp : p = []
  · simp [hp]
  have hstart : ¬ p <+: c :: b := by
    rintro ⟨y, hy⟩
    cases p with
    | nil => exact hp rfl
    | cons d q =>
      obtain ⟨rfl, -⟩ := List.cons.inj hy
      exact hc List.mem_cons_self
  rw [replaceAll_append r (apart_cons_of_not_mem hc a b), replaceAll_cons r hstart]

/-- Filling cuts with a text that is not empty leaves no text empty. -/
theorem replaceAll_eq_nil_iff {r : List Char} (hr : r ≠ []) {s : List Char} :
    replaceAll p r s = [] ↔ s = [] := by
  refine ⟨fun h => ?_, fun h => by rw [h, replaceAll_nil]⟩
  by_cases hp : p = []
  · rwa [hp, replaceAll_nil_left] at h
  cases s with
  | nil => rfl
  | cons c s =>
    by_cases hstart : p <+: c :: s
    · obtain ⟨y, hy⟩ := hstart
      rw [← hy, replaceAll_append_self hp] at h
      exact absurd (List.append_eq_nil_iff.1 h).1 hr
    · rw [replaceAll_cons r hstart] at h
      exact absurd h (List.cons_ne_nil _ _)

/-- The pieces of a text, joined with the word, are the text. -/
theorem replaceAll_self (p s : List Char) : replaceAll p p s = s := by
  by_cases hp : p = []
  · simp [hp]
  induction s using cut_induction hp with
  | nil => simp
  | cut s ih => rw [replaceAll_append_self hp, ih]
  | keep c s hstart ih => rw [replaceAll_cons p hstart, ih]

/-- Every cut takes the characters of the word out and puts those of the filling in. -/
theorem exists_cuts (hp : p ≠ []) (s : List Char) :
    ∃ k, (0 < k ↔ p <:+: s) ∧ ∀ r (q : Char → Bool),
      (replaceAll p r s).countP q + k * p.countP q = s.countP q + k * r.countP q := by
  induction s using cut_induction hp with
  | nil => exact ⟨0, by simpa using hp, by simp⟩
  | cut s ih =>
    obtain ⟨k, -, hcount⟩ := ih
    refine ⟨k + 1, ⟨fun _ => (List.prefix_append p s).isInfix, fun _ => k.succ_pos⟩, fun r q => ?_⟩
    have hrest := hcount r q
    rw [replaceAll_append_self hp, List.countP_append, List.countP_append, Nat.succ_mul,
      Nat.succ_mul]
    omega
  | keep c s hstart ih =>
    obtain ⟨k, hk, hcount⟩ := ih
    refine ⟨k, by rw [hk, List.infix_cons_iff, or_iff_right hstart], fun r q => ?_⟩
    have hrest := hcount r q
    rw [replaceAll_cons r hstart, List.countP_cons, List.countP_cons]
    omega

/-- A shorter filling makes a text shorter by as much, at least once. -/
theorem length_replaceAll_add_le {r s : List Char} (hr : r.length ≤ p.length) (hp : p ≠ [])
    (hin : p <:+: s) : (replaceAll p r s).length + p.length ≤ s.length + r.length := by
  obtain ⟨k, hk, hcount⟩ := exists_cuts hp s
  have hlength : (replaceAll p r s).length + k * p.length = s.length + k * r.length := by
    simpa only [List.countP_true] using hcount r fun _ => true
  obtain ⟨j, rfl⟩ := Nat.exists_eq_add_of_le' (hk.2 hin)
  have hmul := Nat.mul_le_mul_left j hr
  rw [Nat.succ_mul, Nat.succ_mul] at hlength
  omega

/-- A text with few of the characters of the word has few cuts: filling makes it only so much
shorter, and adds only so many of the characters. -/
theorem length_le_of_count_le {c : Char} (hc : c ∈ p) {s : List Char} {n : Nat}
    (hs : s.count c ≤ n) (r : List Char) :
    s.length ≤ (replaceAll p r s).length + n * p.length ∧
      (replaceAll p r s).count c ≤ n + n * r.count c := by
  obtain ⟨k, -, hcount⟩ := exists_cuts (List.ne_nil_of_mem hc) s
  have hk : k ≤ n := by
    have hgone := hcount [] (· == c)
    have hmul : k ≤ k * p.count c := Nat.le_mul_of_pos_right k (List.count_pos_iff.2 hc)
    simp only [← List.count_eq_countP, List.count_nil, Nat.mul_zero, Nat.add_zero] at hgone
    omega
  have hlength := hcount r fun _ => true
  have hchars := hcount r (· == c)
  simp only [List.countP_true] at hlength
  simp only [← List.count_eq_countP] at hchars
  have hp := Nat.mul_le_mul_right p.length hk
  have hr := Nat.mul_le_mul_right (r.count c) hk
  omega

/-- Filling adds no character that the filling does not have. -/
theorem count_replaceAll_le (hp : p ≠ []) {c : Char} {r : List Char} (hr : c ∉ r)
    (s : List Char) : (replaceAll p r s).count c ≤ s.count c := by
  obtain ⟨k, -, hcount⟩ := exists_cuts hp s
  have hchars := hcount r (· == c)
  simp only [← List.count_eq_countP, List.count_eq_zero_of_not_mem hr] at hchars
  omega

/-- A text in which the word occurs is cut a last time. -/
theorem exists_last_cut {s : List Char} (hp : p ≠ []) (h : p <:+: s) :
    ∃ a b, s = a ++ p ++ b ∧ ∀ r, replaceAll p r s = replaceAll p r a ++ r ++ b := by
  induction s using cut_induction hp with
  | nil => exact absurd (List.infix_nil.1 h) hp
  | cut s ih =>
    by_cases hin : p <:+: s
    · obtain ⟨a, b, rfl, hab⟩ := ih hin
      refine ⟨p ++ a, b, by simp, fun r => ?_⟩
      rw [replaceAll_append_self hp, replaceAll_append_self hp, hab]
      simp
    · refine ⟨[], s, by simp, fun r => ?_⟩
      rw [replaceAll_append_self hp, replaceAll_eq_self r hin, replaceAll_nil, List.nil_append]
  | keep c s hstart ih =>
    obtain ⟨a, b, rfl, hab⟩ := ih ((List.infix_cons_iff.1 h).resolve_left hstart)
    refine ⟨c :: a, b, rfl, fun r => ?_⟩
    have hstart' : ¬ p <+: c :: a := fun hpre =>
      hstart (hpre.trans ⟨p ++ b, by simp⟩)
    rw [replaceAll_cons r hstart, replaceAll_cons r hstart', hab]
    rfl

/-- Where the word occurs the filling is in the text. -/
theorem length_le_replaceAll {s : List Char} (hp : p ≠ []) (h : p <:+: s) (r : List Char) :
    r.length ≤ (replaceAll p r s).length := by
  obtain ⟨a, b, -, hab⟩ := exists_last_cut hp h
  rw [hab, List.length_append, List.length_append]
  omega

end Text
end Walkthrough
