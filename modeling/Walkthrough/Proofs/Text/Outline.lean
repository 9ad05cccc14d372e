/-
# Texts with gaps

An outline is a text with gaps, and filling it writes one word into every gap.  Two texts
that differ only in a word are one outline filled with two words.

The text between two gaps is a run.  A replacement that does not touch the gaps goes through
an outline run by run (`replaceAll_fill`); one that takes out exactly the filled gaps, each
with the slash behind it, leaves a text that no longer depends on the word
(`replaceAll_fill_nil`).  Both need that a slash follows every gap (`Slashed`), and that what is
replaced does not go across the gaps (`Clear`).
-/

import Mathlib.Data.List.Infix
import Walkthrough.Proofs.Text.Replace

namespace Walkthrough
namespace Text

/-- A text with gaps. -/
abbrev Outline := List (Option Char)

namespace Outline

/-- A text without gaps. -/
def plain (s : List Char) : Outline :=
  s.map some

/-- The text of an outline whose gaps are filled with a word. -/
def fill (w : List Char) (o : Outline) : List Char :=
  o.flatMap fun c => (c.map fun c => [c]).getD w

/-- A text with a gap in place of every cut at a word. -/
def cut (p s : List Char) : Outline :=
  [none].intercalate ((pieces p s).map plain)

/-- The texts between gaps, at least one. -/
def runs : Outline → List (List Char)
  | [] => [[]]
  | none :: o => [] :: runs o
  | some c :: o => consPiece c (runs o)

/-- Every run rewritten. -/
def mapRuns (f : List Char → List Char) (o : Outline) : Outline :=
  [none].intercalate ((runs o).map fun run => plain (f run))

/-- The text of an outline without its gaps and the characters behind them. -/
def close : Outline → List Char
  | [] => []
  | some c :: o => c :: close o
  | none :: o => (close o).tail

/-- Every gap is followed by a slash. -/
inductive Slashed : Outline → Prop where
  | last (s : List Char) : Slashed (plain s)
  | gap (s : List Char) {o : Outline} : Slashed o → Slashed (plain s ++ none :: some '/' :: o)

/-- Where `p` occurs in the filled text it ends before a filled gap, or starts at least so many
characters behind the start of that gap. -/
def Clear (reach : Nat) (p w : List Char) (o : Outline) : Prop :=
  ∀ a b x y, o = a ++ none :: b → fill w o = x ++ p ++ y →
    x.length + p.length ≤ (fill w a).length ∨ (fill w a).length + reach ≤ x.length

/-- No occurrence of `p` in the filled text touches a filled gap or the character behind it. -/
abbrev Spares (p w : List Char) (o : Outline) : Prop :=
  Clear (w.length + 1) p w o

/-- No occurrence of `p` in the filled text goes across the start of a filled gap. -/
abbrev StartsClear (p w : List Char) (o : Outline) : Prop :=
  Clear 0 p w o

/-- Clearness is checked gap by gap and place by place. -/
theorem clear_iff {reach : Nat} {p w : List Char} {o : Outline} :
    Clear reach p w o ↔ ∀ i < o.length, o[i]? = some none → ∀ j ≤ (fill w o).length,
      p <+: (fill w o).drop j →
        j + p.length ≤ (fill w (o.take i)).length ∨ (fill w (o.take i)).length + reach ≤ j := by
  constructor
  · rintro h i - hgap j hj ⟨y, hy⟩
    have hcut : o = o.take i ++ none :: o.drop (i + 1) := by
      obtain ⟨hi, hnone⟩ := List.getElem?_eq_some_iff.1 hgap
      rw [← hnone, List.getElem_cons_drop, List.take_append_drop]
    have hends := h (o.take i) _ ((fill w o).take j) y hcut
      (by rw [List.append_assoc, hy, List.take_append_drop])
    rwa [List.length_take, Nat.min_eq_left hj] at hends
  · rintro h a b x y rfl hxy
    have hends := h a.length (by simp) (by simp) x.length (by simp [hxy])
      ⟨y, by rw [hxy, List.append_assoc, List.drop_left]⟩
    rwa [List.take_left] at hends

instance (reach : Nat) (p w : List Char) (o : Outline) : Decidable (Clear reach p w o) :=
  decidable_of_iff _ clear_iff.symm

/-! ## Filling -/

@[simp] theorem fill_nil (w : List Char) : fill w [] = [] := rfl

@[simp] theorem fill_append (w : List Char) (o o' : Outline) :
    fill w (o ++ o') = fill w o ++ fill w o' :=
  List.flatMap_append

@[simp] theorem fill_cons_none (w : List Char) (o : Outline) :
    fill w (none :: o) = w ++ fill w o := rfl

@[simp] theorem fill_cons_some (w : List Char) (c : Char) (o : Outline) :
    fill w (some c :: o) = c :: fill w o := rfl

@[simp] theorem fill_plain (w s : List Char) : fill w (plain s) = s := by
  induction s with
  | nil => rfl
  | cons c s ih => exact congrArg (c :: ·) ih

theorem fill_intercalate (w : List Char) (sep : Outline) (os : List Outline) :
    fill w (sep.intercalate os) = (fill w sep).intercalate (os.map (fill w)) := by
  induction os with
  | nil => rfl
  | cons o os ih =>
    cases os with
    | nil => simp
    | cons o' os => simp [List.intercalate_cons_cons] at ih ⊢; exact ih

/-- A text that is cut and filled again has its cuts replaced. -/
theorem fill_cut (w p s : List Char) : fill w (cut p s) = replaceAll p w s := by
  have hplain : (fill w ∘ plain) = id := funext (fill_plain w)
  rw [cut, fill_intercalate, List.map_map, hplain, List.map_id, fill_cons_none, fill_nil,
    List.append_nil, replaceAll]

/-! ## Runs -/

theorem runs_ne_nil (o : Outline) : runs o ≠ [] := by
  cases o with
  | nil => exact List.cons_ne_nil _ _
  | cons c o =>
    cases c with
    | none => exact List.cons_ne_nil _ _
    | some c =>
      rw [runs]
      cases runs o <;> exact List.cons_ne_nil _ _

@[simp] theorem runs_plain (s : List Char) : runs (plain s) = [s] := by
  induction s with
  | nil => rfl
  | cons c s ih => rw [plain, List.map_cons, runs, ← plain, ih, consPiece]

@[simp] theorem runs_plain_append (s : List Char) (o : Outline) :
    runs (plain s ++ none :: o) = s :: runs o := by
  induction s with
  | nil => rfl
  | cons c s ih =>
    rw [plain, List.map_cons, List.cons_append, runs, ← plain, ih, consPiece]

theorem runs_cons {c : Char} {o : Outline} {r : List Char} {rs : List (List Char)}
    (h : runs o = r :: rs) : runs (some c :: o) = (c :: r) :: rs := by
  rw [runs, h, consPiece]

/-- A filled outline starts with its first run. -/
theorem head_run_prefix {o : Outline} {r : List Char} {rs : List (List Char)}
    (h : runs o = r :: rs) (w : List Char) : r <+: fill w o := by
  induction o generalizing r rs with
  | nil =>
    obtain ⟨rfl, -⟩ := List.cons.inj h
    exact List.nil_prefix
  | cons c o ih =>
    cases c with
    | none =>
      obtain ⟨rfl, -⟩ := List.cons.inj h
      exact List.nil_prefix
    | some c =>
      obtain ⟨r', rs', hrs⟩ := List.exists_cons_of_ne_nil (runs_ne_nil o)
      rw [runs_cons hrs] at h
      obtain ⟨rfl, -⟩ := List.cons.inj h
      rw [fill_cons_some, List.cons_prefix_cons]
      exact ⟨rfl, ih hrs⟩

@[simp] theorem mapRuns_plain (f : List Char → List Char) (s : List Char) :
    mapRuns f (plain s) = plain (f s) := by
  simp [mapRuns]

@[simp] theorem mapRuns_plain_append (f : List Char → List Char) (s : List Char) (o : Outline) :
    mapRuns f (plain s ++ none :: o) = plain (f s) ++ none :: mapRuns f o := by
  obtain ⟨r, rs, hrs⟩ := List.exists_cons_of_ne_nil (runs_ne_nil o)
  simp [mapRuns, hrs, List.intercalate_cons_cons]

/-- A character that the rewriting keeps in front of the first run stays there. -/
theorem mapRuns_cons {f : List Char → List Char} {c : Char} {o : Outline}
    (h : ∀ r rs, runs o = r :: rs → f (c :: r) = c :: f r) :
    mapRuns f (some c :: o) = some c :: mapRuns f o := by
  obtain ⟨r, rs, hrs⟩ := List.exists_cons_of_ne_nil (runs_ne_nil o)
  rw [mapRuns, mapRuns, runs_cons hrs, hrs]
  cases rs <;> simp [h r _ hrs, plain, List.intercalate_cons_cons]

theorem mapRuns_id (o : Outline) : mapRuns id o = o := by
  induction o with
  | nil => rfl
  | cons c o ih =>
    cases c with
    | none =>
      have hgap := mapRuns_plain_append id [] o
      rw [ih] at hgap
      exact hgap
    | some c => rw [mapRuns_cons (f := id) fun _ _ _ => rfl, ih]

/-! ## A replacement between the gaps -/

variable {p w : List Char}

/-- What is behind a gap and its slash is clear too. -/
theorem Clear.of_gap {reach : Nat} {s : List Char} {o : Outline}
    (h : Clear reach p w (plain s ++ none :: some '/' :: o)) : Clear reach p w o := by
  intro a b x y ho hxy
  have hfilled : fill w (plain s ++ none :: some '/' :: o) = (s ++ (w ++ '/' :: x)) ++ p ++ y := by
    simp [hxy]
  have hends := h (plain s ++ none :: some '/' :: a) b _ y (by simp [ho]) hfilled
  simp only [fill_append, fill_plain, fill_cons_none, fill_cons_some, List.length_append,
    List.length_cons] at hends
  omega

/-- **A replacement that spares the gaps goes through an outline run by run.** -/
theorem replaceAll_fill (r : List Char) {o : Outline} (ho : Slashed o) (h : Spares p w o) :
    replaceAll p r (fill w o) = fill w (mapRuns (replaceAll p r) o) ∧
      Slashed (mapRuns (replaceAll p r) o) := by
  by_cases hp : p = []
  · have hid : replaceAll p r = id := funext fun s => by rw [hp, replaceAll_nil_left, id]
    rw [hid, mapRuns_id]
    exact ⟨rfl, ho⟩
  induction ho with
  | last s =>
    rw [mapRuns_plain, fill_plain, fill_plain]
    exact ⟨rfl, .last _⟩
  | @gap s o _ ih =>
    obtain ⟨hrest, hslashed⟩ := ih h.of_gap
    have hpos := List.length_pos_of_ne_nil hp
    -- an occurrence ends before the gap or starts behind its slash
    have hends (x y : List Char) (hxy : s ++ (w ++ '/' :: fill w o) = x ++ p ++ y) :
        x.length + p.length ≤ s.length ∨ s.length + w.length < x.length := by
      have hclear := h (plain s) (some '/' :: o) x y rfl (by simpa using hxy)
      rw [fill_plain] at hclear
      omega
    have hbehind (x y : List Char) (hxy : w ++ '/' :: fill w o = x ++ p ++ y) :
        w.length < x.length := by
      have := hends (s ++ x) y (by simp [hxy])
      simp only [List.length_append] at this
      omega
    have hbefore : Apart p s ((w ++ ['/']) ++ fill w o) := by
      intro x y hxy
      have := hends x y (by simpa using hxy)
      omega
    have hgap : Apart p (w ++ ['/']) (fill w o) := by
      intro x y hxy
      have := hbehind x y (by simpa using hxy)
      simp only [List.length_append, List.length_singleton]
      omega
    have hwhole : ¬ p <:+: w ++ ['/'] := by
      rintro ⟨x, y, hxy⟩
      have hlong := hbehind x (y ++ fill w o) (by rw [← List.append_assoc, hxy]; simp)
      have hlen := congrArg List.length hxy
      simp only [List.length_append, List.length_singleton] at hlen
      omega
    -- nor does one start at the slash
    have hslash : ∀ run rs, runs o = run :: rs →
        replaceAll p r ('/' :: run) = '/' :: replaceAll p r run := by
      intro run rs hrs
      refine replaceAll_cons r fun hstart => ?_
      obtain ⟨y, hy⟩ : p <+: '/' :: fill w o :=
        hstart.trans (List.cons_prefix_cons.2 ⟨rfl, head_run_prefix hrs w⟩)
      have := hbehind w y (by simp [hy])
      omega
    rw [mapRuns_plain_append, mapRuns_cons hslash]
    refine ⟨?_, .gap _ hslashed⟩
    have hfilled : fill w (plain s ++ none :: some '/' :: o) = s ++ ((w ++ ['/']) ++ fill w o) := by
      simp
    rw [hfilled, replaceAll_append r hbefore, replaceAll_append r hgap,
      replaceAll_eq_self r hwhole, hrest]
    simp

/-! ## Taking the gaps out -/

@[simp] theorem close_plain (s : List Char) : close (plain s) = s := by
  induction s with
  | nil => rfl
  | cons c s ih => exact congrArg (c :: ·) ih

@[simp] theorem close_plain_append (s : List Char) (o : Outline) :
    close (plain s ++ none :: o) = s ++ (close o).tail := by
  induction s with
  | nil => rfl
  | cons c s ih => exact congrArg (c :: ·) ih

/-- **The filled gaps are what is taken out**: if the word with a slash behind it occurs in no
run and goes across the start of no filled gap, then taking it out leaves a text without the
word. -/
theorem replaceAll_fill_nil {o : Outline} (ho : Slashed o) (hstarts : StartsClear (w ++ ['/']) w o)
    (hruns : ∀ run ∈ runs o, ¬ w ++ ['/'] <:+: run) :
    replaceAll (w ++ ['/']) [] (fill w o) = close o := by
  have hne : w ++ ['/'] ≠ [] := by simp
  induction ho with
  | last s =>
    rw [fill_plain, close_plain]
    exact replaceAll_eq_self [] (hruns s (by simp))
  | @gap s o _ ih =>
    have hs : ¬ w ++ ['/'] <:+: s := hruns s (by simp)
    obtain ⟨r, rs, hrs⟩ := List.exists_cons_of_ne_nil (runs_ne_nil o)
    rw [runs_plain_append, runs_cons hrs] at hruns
    have hrest : ∀ run ∈ runs o, ¬ w ++ ['/'] <:+: run := by
      rw [hrs]
      intro run hrun
      rcases List.mem_cons.1 hrun with rfl | hrun
      · exact fun hin => hruns ('/' :: run) (by simp) (hin.trans (List.suffix_cons '/' run).isInfix)
      · exact hruns run (by simp [hrun])
    have hfilled : fill w (plain s ++ none :: some '/' :: o) = s ++ ((w ++ ['/']) ++ fill w o) := by
      simp
    have hapart : Apart (w ++ ['/']) s ((w ++ ['/']) ++ fill w o) := by
      intro x y hxy
      simpa using hstarts (plain s) (some '/' :: o) x y rfl (hfilled.trans hxy)
    rw [hfilled, replaceAll_append [] hapart, replaceAll_append_self hne, ih hstarts.of_gap hrest,
      close_plain_append, replaceAll_eq_self [] hs]
    rfl

/-! ## Occurrences -/

/-- Induction from one gap to the next. -/
@[elab_as_elim]
theorem gap_induction {motive : Outline → Prop} (last : ∀ s, motive (plain s))
    (gap : ∀ s o, motive o → motive (plain s ++ none :: o)) (o : Outline) : motive o := by
  have hbehind : ∀ (o : Outline) (s : List Char), motive (plain s ++ o) := by
    intro o
    induction o with
    | nil =>
      intro s
      rw [List.append_nil]
      exact last s
    | cons c o ih =>
      intro s
      cases c with
      | none => exact gap s o (ih [])
      | some c =>
        have hmove : plain s ++ some c :: o = plain (s ++ [c]) ++ o := by simp [plain]
        rw [hmove]
        exact ih (s ++ [c])
  exact hbehind o []

/-- Rewriting the runs keeps the gaps. -/
theorem none_mem_mapRuns_iff {f : List Char → List Char} {o : Outline} :
    none ∈ mapRuns f o ↔ none ∈ o := by
  induction o using gap_induction with
  | last s =>
    rw [mapRuns_plain]
    simp [plain]
  | gap s o _ => simp

/-- A word that shares no first character with the fillings occurs in a filled outline
exactly if it occurs in a run. -/
theorem infix_fill_iff {h k : Char} {t q : List Char} (hh : h ∉ k :: q) (hk : k ∉ h :: t)
    (o : Outline) : k :: q <:+: fill (h :: t) o ↔ ∃ run ∈ runs o, k :: q <:+: run := by
  induction o using gap_induction with
  | last s => simp
  | gap s o ih =>
    have hword : ¬ k :: q <:+: h :: t := fun hin => hk (hin.subset List.mem_cons_self)
    have hbefore : Apart (k :: q) s ((h :: t) ++ fill (h :: t) o) := apart_cons_of_not_mem hh s _
    rw [fill_append, fill_plain, fill_cons_none, infix_append_iff hbefore,
      infix_append_iff (apart_of_head_not_mem hk _), ih, runs_plain_append]
    simp [hword]

end Outline
end Text
end Walkthrough
