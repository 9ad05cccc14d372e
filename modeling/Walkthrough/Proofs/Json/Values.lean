/-
# Reading values

The loops over the items of an array and the members of an object are shown for any reader
of elements (`yields_items`, `yields_members`): if it reads a grammar, the loop reads the
lists of that grammar.  The reader of values is a loop of itself one level further down, so
`yields_readValue_iff` is by induction on the depth, and a whole text is read as a value
exactly if it writes the value (`parse_iff_textOf`).

Where a number ends depends on what follows it.  A value without numbers (`Value.Wordy`)
needs no such condition, and no step of a script holds a number; of the numbers only natural
ones with room are covered (`Value.Readable`).
-/

import Walkthrough.Proofs.Json.Tokens

namespace Walkthrough
namespace Json

variable {ε α β : Type}

/-! ## Texts of lists -/

/-- A member is a key, a colon behind white space, and a value. -/
theorem spans_memberText_iff {E : β → List Char → Prop} {k : String} {v : β} {s s' : List Char} :
    Spans (MemberText E) (k, v) s s' ↔ ∃ u, Spans StringText k s u ∧
      ∃ u', (∃ w, Blank w ∧ u = w ++ ':' :: u') ∧ Spans (Led E) v u' s' := by
  constructor
  · rintro ⟨_, h, rfl⟩
    cases h with
    | @intro _ _ t w w' u ht hw hw' hu =>
      exact ⟨w ++ ':' :: (w' ++ (u ++ s')), ⟨t, ht, by simp⟩, w' ++ (u ++ s'), ⟨w, hw, rfl⟩,
        w' ++ u, ⟨w', u, hw', hu, rfl⟩, by simp⟩
  · rintro ⟨_, ⟨t, ht, rfl⟩, _, ⟨w, hw, rfl⟩, _, ⟨w', u, hw', hu, rfl⟩, rfl⟩
    exact ⟨_, .intro ht hw hw' hu, by simp⟩

theorem spans_listed_nil {mark : Char} {E : α → List Char → Prop} {first : Bool}
    {s s' : List Char} :
    Spans (Listed mark E first) [] s s' ↔ ∃ w, Blank w ∧ s = w ++ mark :: s' := by
  constructor
  · rintro ⟨_, h, rfl⟩
    cases h with
    | nil hw => exact ⟨_, hw, by simp⟩
  · rintro ⟨w, hw, rfl⟩
    exact ⟨_, .nil hw, by simp⟩

theorem spans_listed_cons {mark : Char} {E : α → List Char → Prop} {first : Bool} {a : α}
    {as : List α} {s s' : List Char} :
    Spans (Listed mark E first) (a :: as) s s' ↔ ∃ u, (∃ w, Gap first w ∧ s = w ++ u) ∧
      ∃ u', Spans E a u u' ∧ Spans (Listed mark E false) as u' s' := by
  constructor
  · rintro ⟨_, h, rfl⟩
    cases h with
    | @cons _ _ _ w t u hw ht hu =>
      exact ⟨t ++ (u ++ s'), ⟨w, hw, by simp⟩, u ++ s', ⟨t, ht, rfl⟩, u, hu, rfl⟩
  · rintro ⟨_, ⟨w, hw, rfl⟩, _, ⟨t, ht, rfl⟩, u, hu, rfl⟩
    exact ⟨_, .cons hw ht hu, by simp⟩

/-- Between braces a member is a key behind a gap, a colon and a value. -/
theorem spans_members_cons {E : β → List Char → Prop} {first : Bool} {c : Cursor} {k : String}
    {v : β} {ms : List (String × β)} {s : List Char} :
    Spans (Listed '\x7d' (MemberText E) first) ((k, v) :: ms) c.rest s ↔
      ∃ u₁, Yields (nextKey first c) (some k) u₁ ∧ ∃ u₂, (∃ w, Blank w ∧ u₁ = w ++ ':' :: u₂) ∧
        ∃ u, Spans (Led E) v u₂ u ∧ Spans (Listed '\x7d' (MemberText E) false) ms u s := by
  simp only [spans_listed_cons, spans_memberText_iff, yields_nextKey_some]
  constructor
  · rintro ⟨u₀, hgap, u, ⟨u₁, hk, u₂, hcolon, hvalue⟩, htail⟩
    exact ⟨u₁, ⟨u₀, hgap, hk⟩, u₂, hcolon, u, hvalue, htail⟩
  · rintro ⟨u₁, ⟨u₀, hgap, hk⟩, u₂, hcolon, u, hvalue, htail⟩
    exact ⟨u₀, hgap, u, ⟨u₁, hk, u₂, hcolon, hvalue⟩, htail⟩

/-- Between brackets an item stands behind a gap. -/
theorem spans_items_cons {E : α → List Char → Prop} {first : Bool} {c : Cursor} {a : α}
    {as : List α} {s : List Char} (hstarts : ∀ t, E a t → ∀ s, Starts (t ++ s)) :
    Spans (Listed ']' E first) (a :: as) c.rest s ↔
      ∃ u₁, Yields (nextItem first c) true u₁ ∧
        ∃ u, Spans (Led E) a u₁ u ∧ Spans (Listed ']' E false) as u s := by
  simp only [spans_listed_cons, yields_nextItem_true]
  constructor
  · rintro ⟨u₁, hgap, u, hitem, htail⟩
    have hstart := starts_of_spans hstarts hitem
    exact ⟨u₁, ⟨hgap, hstart⟩, u, (spans_led_iff_of_starts hstarts hstart).2 hitem, htail⟩
  · rintro ⟨u₁, ⟨hgap, hstart⟩, u, hitem, htail⟩
    exact ⟨u₁, hgap, u, (spans_led_iff_of_starts hstarts hstart).1 hitem, htail⟩

theorem spans_items_nil {E : α → List Char → Prop} {first : Bool} {c : Cursor} {s : List Char} :
    Spans (Listed ']' E first) [] c.rest s ↔ Yields (nextItem first c) false (']' :: s) := by
  simp [spans_listed_nil, yields_nextItem_false]

theorem spans_members_nil {E : β → List Char → Prop} {first : Bool} {c : Cursor}
    {s : List Char} :
    Spans (Listed '\x7d' (MemberText E) first) [] c.rest s ↔
      Yields (nextKey first c) none ('\x7d' :: s) := by
  simp [spans_listed_nil, yields_nextKey_none]

theorem Spans.length_le {E : α → List Char → Prop} {a : α} {s s' : List Char}
    (h : Spans E a s s') : s'.length ≤ s.length := by
  obtain ⟨t, -, rfl⟩ := h
  simp

/-- An item takes a character, so for what is behind it a turn less is enough. -/
theorem length_lt_of_item {E : α → List Char → Prop} {first : Bool} {c : Cursor} {a : α}
    {turns : Nat} {u u' : List Char} (hlen : c.rest.length < turns + 1)
    (hstarts : ∀ t, E a t → ∀ s, Starts (t ++ s)) (hmore : Yields (nextItem first c) true u)
    (hitem : Spans (Led E) a u u') : u'.length < turns := by
  obtain ⟨⟨w, -, hrest⟩, hstart⟩ := yields_nextItem_true.1 hmore
  obtain ⟨t, ht, rfl⟩ := (spans_led_iff_of_starts hstarts hstart).1 hitem
  obtain ⟨x, t', hcons, -⟩ := hstarts t ht []
  rw [List.append_nil] at hcons
  simp only [hrest, hcons, List.length_append, List.length_cons] at hlen
  omega

/-- A member takes a character, so for what is behind it a turn less is enough. -/
theorem length_lt_of_member {E : β → List Char → Prop} {first : Bool} {c : Cursor} {k : String}
    {v : β} {turns : Nat} {u₁ u₂ u : List Char} (hlen : c.rest.length < turns + 1)
    (hkey : Yields (nextKey first c) (some k) u₁) (hcolon : ∃ w, Blank w ∧ u₁ = w ++ ':' :: u₂)
    (hvalue : Spans E v u₂ u) : u.length < turns := by
  obtain ⟨u₀, ⟨w, -, hrest⟩, hk⟩ := yields_nextKey_some.1 hkey
  obtain ⟨w', -, rfl⟩ := hcolon
  have hle := hk.length_le
  have hle' := hvalue.length_le
  simp only [hrest, List.length_append, List.length_cons] at hlen hle
  omega

/-- No number goes on behind an element of a list. -/
theorem ends_of_listed {mark : Char} {E : α → List Char → Prop} {as : List α} {s s' : List Char}
    (hmark : mark.isDigit = false ∧ mark ∉ ['.', 'e', 'E'])
    (h : Spans (Listed mark E false) as s s') : Ends s := by
  cases as with
  | nil =>
    obtain ⟨w, hw, rfl⟩ := spans_listed_nil.1 h
    exact hw.ends (ends_cons.2 hmark)
  | cons a as =>
    obtain ⟨u, hgap, -⟩ := spans_listed_cons.1 h
    exact ends_of_gap hgap

/-! ## Loops -/

/-- A loop over the items of an array finds exactly the arrays of what its reader finds; an
item may need that no number goes on behind it. -/
theorem yields_items {E : α → List Char → Prop} {P : α → Prop}
    {next : Bool → Cursor → Except ε (Bool × Cursor)} {item : Cursor → Except ε (α × Cursor)}
    {loop : Nat → Bool → Cursor → Except ε (List α × Cursor)}
    (hloop : ∀ turns first c, loop (turns + 1) first c = (do
      let (more, c) ← next first c
      if more then do
        let (a, c) ← item c
        let (as, c) ← loop turns false c
        .ok (a :: as, c)
      else .ok ([], c.past ']' (c.rest.drop 1))))
    (hnext : ∀ {first c more s}, Yields (next first c) more s ↔ Yields (nextItem first c) more s)
    (hsound : ∀ {c a s}, P a → Yields (item c) a s → Spans (Led E) a c.rest s)
    (hcomplete : ∀ {c a s}, P a → Ends s → Spans (Led E) a c.rest s → Yields (item c) a s)
    (hstarts : ∀ a t, E a t → ∀ s, Starts (t ++ s)) :
    ∀ {turns first c as s}, c.rest.length < turns → (∀ a ∈ as, P a) →
      (Yields (loop turns first c) as s ↔ Spans (Listed ']' E first) as c.rest s) := by
  intro turns
  induction turns with
  | zero => exact fun h => absurd h (Nat.not_lt_zero _)
  | succ turns ih =>
    intro first c as s hlen hP
    rw [hloop, yields_bind]
    cases as with
    | nil =>
      rw [spans_items_nil]
      constructor
      · rintro ⟨more, c₁, hmore, h⟩
        cases more with
        | true =>
          obtain ⟨a, c₂, -, h⟩ := yields_bind.1 h
          obtain ⟨as, c₃, -, h⟩ := yields_bind.1 h
          simp at h
        | false =>
          have hmore := hnext.1 ⟨c₁, hmore, rfl⟩
          obtain ⟨rest, hrest, -⟩ := yields_nextItem_false.1 hmore
          obtain ⟨-, rfl⟩ := yields_ok.1 h
          rwa [hrest] at hmore ⊢
      · intro hmore
        obtain ⟨c₁, hc₁, hrest₁⟩ := hnext.2 hmore
        exact ⟨false, c₁, hc₁, by simp [hrest₁, Cursor.past]⟩
    | cons a as =>
      rw [spans_items_cons (hstarts a)]
      obtain ⟨ha, has⟩ := List.forall_mem_cons.1 hP
      constructor
      · rintro ⟨more, c₁, hmore, h⟩
        cases more with
        | false => simp at h
        | true =>
          obtain ⟨b, c₂, hb, h⟩ := yields_bind.1 h
          obtain ⟨bs, c₃, hbs, h⟩ := yields_bind.1 h
          obtain ⟨⟨⟩, rfl⟩ := yields_ok.1 h
          have hmore := hnext.1 ⟨c₁, hmore, rfl⟩
          have hspan := hsound ha ⟨c₂, hb, rfl⟩
          have hshorter := length_lt_of_item hlen (hstarts a) hmore hspan
          exact ⟨_, hmore, _, hspan, (ih hshorter has).1 ⟨c₃, hbs, rfl⟩⟩
      · rintro ⟨u₁, hmore, u, hspan, htail⟩
        have hshorter := length_lt_of_item hlen (hstarts a) hmore hspan
        obtain ⟨c₁, hc₁, rfl⟩ := hnext.2 hmore
        obtain ⟨c₂, hc₂, rfl⟩ := hcomplete ha (ends_of_listed (by decide) htail) hspan
        obtain ⟨c₃, hc₃, hrest₃⟩ := (ih hshorter has).2 htail
        exact ⟨true, c₁, hc₁, yields_bind.2 ⟨a, c₂, hc₂, yields_bind.2 ⟨as, c₃, hc₃,
          yields_ok.2 ⟨rfl, hrest₃⟩⟩⟩⟩

/-- The loop over the members of an object finds exactly the objects of what its reader
finds. -/
theorem yields_members {E : Value → List Char → Prop} {P : Value → Prop} {item : Reader Value}
    (hsound : ∀ {c v s}, P v → Yields (item c) v s → Spans (Led E) v c.rest s)
    (hcomplete : ∀ {c v s}, P v → Ends s → Spans (Led E) v c.rest s → Yields (item c) v s) :
    ∀ {turns first c ms s}, c.rest.length < turns → (∀ m ∈ ms, P m.2) →
      (Yields (readMembers item turns first c) ms s ↔
        Spans (Listed '\x7d' (MemberText E) first) ms c.rest s) := by
  intro turns
  induction turns with
  | zero => exact fun h => absurd h (Nat.not_lt_zero _)
  | succ turns ih =>
    intro first c ms s hlen hP
    rw [readMembers, yields_bind]
    cases ms with
    | nil =>
      rw [spans_members_nil]
      constructor
      · rintro ⟨key, c₁, hkey, h⟩
        cases key with
        | some k =>
          obtain ⟨⟨⟩, c₂, -, h⟩ := yields_bind.1 h
          obtain ⟨v, c₃, -, h⟩ := yields_bind.1 h
          obtain ⟨ms, c₄, -, h⟩ := yields_bind.1 h
          simp at h
        | none =>
          have hkey : Yields (nextKey first c) none c₁.rest := ⟨c₁, hkey, rfl⟩
          obtain ⟨rest, hrest, -⟩ := yields_nextKey_none.1 hkey
          obtain ⟨-, rfl⟩ := yields_ok.1 h
          rwa [hrest] at hkey ⊢
      · rintro ⟨c₁, hc₁, hrest₁⟩
        exact ⟨none, c₁, hc₁, by simp [hrest₁, Cursor.past]⟩
    | cons m ms =>
      obtain ⟨k, v⟩ := m
      rw [spans_members_cons]
      obtain ⟨hv, hms⟩ := List.forall_mem_cons.1 hP
      constructor
      · rintro ⟨key, c₁, hkey, h⟩
        cases key with
        | none => simp at h
        | some k' =>
          obtain ⟨⟨⟩, c₂, hcolon, h⟩ := yields_bind.1 h
          obtain ⟨v', c₃, hvalue, h⟩ := yields_bind.1 h
          obtain ⟨ms', c₄, hmembers, h⟩ := yields_bind.1 h
          obtain ⟨⟨⟩, rfl⟩ := yields_ok.1 h
          have hkey : Yields (nextKey first c) (some k) c₁.rest := ⟨c₁, hkey, rfl⟩
          have hcolon := yields_readColon.1 ⟨c₂, hcolon, rfl⟩
          have hvalue := hsound hv ⟨c₃, hvalue, rfl⟩
          have hshorter := length_lt_of_member hlen hkey hcolon hvalue
          exact ⟨_, hkey, _, hcolon, _, hvalue, (ih hshorter hms).1 ⟨c₄, hmembers, rfl⟩⟩
      · rintro ⟨u₁, hkey, u₂, hcolon, u, hvalue, htail⟩
        have hshorter := length_lt_of_member hlen hkey hcolon hvalue
        obtain ⟨c₁, hc₁, rfl⟩ := hkey
        obtain ⟨c₂, hc₂, rfl⟩ := yields_readColon.2 hcolon
        obtain ⟨c₃, hc₃, rfl⟩ := hcomplete hv (ends_of_listed (by decide) htail) hvalue
        obtain ⟨c₄, hc₄, hrest₄⟩ := (ih hshorter hms).2 htail
        exact ⟨some k, c₁, hc₁, yields_bind.2 ⟨(), c₂, hc₂, yields_bind.2 ⟨v, c₃, hc₃,
          yields_bind.2 ⟨ms, c₄, hc₄, yields_ok.2 ⟨rfl, hrest₄⟩⟩⟩⟩⟩

/-! ## Scalars -/

/-- The value holds no number, and at most `depth` arrays and objects one inside the other. -/
def Value.Wordy : (depth : Nat) → Value → Prop
  | _, .null => True
  | _, .bool _ => True
  | _, .string _ => True
  | _, .number _ => False
  | 0, .array _ => False
  | 0, .object _ => False
  | depth + 1, .array vs => ∀ v ∈ vs, v.Wordy depth
  | depth + 1, .object ms => ∀ m ∈ ms, m.2.Wordy depth

theorem yields_readWord {ws : List Char} {c : Cursor} {s : List Char} :
    Yields (readWord ws c) () s ↔ c.rest = ws ++ s := by
  induction ws generalizing c with
  | nil => simp [readWord]
  | cons w ws ih =>
    rw [readWord]
    split
    case h_1 hrest => simp [hrest]
    case h_2 x rest hrest =>
      split
      case isTrue hx => rw [ih, hrest, hx]; simp [Cursor.past]
      case isFalse hx => simp [hrest, hx]

/-- The text of a value starts an element. -/
theorem Spells.starts {v : Value} {t : List Char} (h : Spells v t) (s : List Char) :
    Starts (t ++ s) := by
  cases h with
  | null => exact ⟨'n', _, rfl, by decide, by decide⟩
  | yes => exact ⟨'t', _, rfl, by decide, by decide⟩
  | no => exact ⟨'f', _, rfl, by decide, by decide⟩
  | natural h =>
    obtain ⟨hne, hdigits, -⟩ := h
    obtain ⟨x, t, rfl⟩ := List.exists_cons_of_ne_nil hne
    have hx : x.isDigit = true := hdigits x List.mem_cons_self
    refine ⟨x, t ++ s, rfl, ?_, ?_⟩
    · rw [Bool.eq_false_iff, ne_eq, isSpace_iff]
      intro hmem
      simp only [List.mem_cons, List.not_mem_nil, or_false] at hmem
      rcases hmem with rfl | rfl | rfl | rfl <;> exact absurd hx (by decide)
    · rintro rfl
      exact absurd hx (by decide)
  | string h =>
    obtain ⟨t, -, rfl⟩ := h
    exact ⟨'\x22', _, rfl, by decide, by decide⟩
  | array => exact ⟨'[', _, rfl, by decide, by decide⟩
  | object => exact ⟨'\x7b', _, rfl, by decide, by decide⟩

theorem yields_map {x : Except ε (α × Cursor)} {g : α → β} {b : β} {s : List Char} :
    Yields (x.map fun r => (g r.1, r.2)) b s ↔ ∃ a, g a = b ∧ Yields x a s := by
  cases x with
  | error e => simp [Except.map]
  | ok r =>
    obtain ⟨a, c⟩ := r
    simp [Except.map, ← and_assoc]

/-- The value can be read: its numbers are natural ones with room, and at most `depth` arrays
and objects stand one inside the other. -/
def Value.Readable : (depth : Nat) → Value → Prop
  | _, .null => True
  | _, .bool _ => True
  | _, .string _ => True
  | _, .number (.natural n) => n ≤ maxSignificand
  | _, .number _ => False
  | 0, .array _ => False
  | 0, .object _ => False
  | depth + 1, .array vs => ∀ v ∈ vs, v.Readable depth
  | depth + 1, .object ms => ∀ m ∈ ms, m.2.Readable depth

theorem Value.Wordy.readable {depth : Nat} {v : Value} (h : v.Wordy depth) : v.Readable depth := by
  fun_induction Value.Wordy depth v with
  | case1 depth => cases depth <;> exact h
  | case2 depth b => cases depth <;> exact h
  | case3 depth s => cases depth <;> exact h
  | case4 => exact h.elim
  | case5 => exact h.elim
  | case6 => exact h.elim
  | case7 depth vs ih => exact fun v hmem => ih v (h v hmem)
  | case8 depth ms ih => exact fun m hmem => ih m (h m hmem)

theorem Value.Wordy.ne_number {depth : Nat} {v : Value} (h : v.Wordy depth) (n : Numeral) :
    v ≠ .number n := by
  rintro rfl
  cases depth <;> exact h

theorem Value.readable_number_iff {depth : Nat} {n : Numeral} :
    (Value.number n).Readable depth ↔ ∃ m, n = .natural m ∧ m ≤ maxSignificand := by
  cases n <;> cases depth <;> simp [Value.Readable]

/-- What is read behind no bracket and no brace is a word, a string or a number, and nothing
goes on with a number. -/
theorem spells_of_yields_readScalar {c : Cursor} {v : Value} {s : List Char} {depth : Nat}
    (hv : v.Readable depth) (h : Yields (readScalar c) v s) :
    Spans Spells v c.rest s ∧ ∀ n, v = .number n → Ends s := by
  rw [readScalar] at h
  split at h
  case h_1 => exact (yields_error.1 h).elim
  case h_2 x rest hrest =>
    rw [hrest]
    split at h
    case isTrue hx =>
      obtain ⟨⟨⟩, rfl, hword⟩ := (yields_map (g := fun _ => Value.null)).1 h
      exact ⟨⟨_, .null, by rw [hx]; exact congrArg _ (yields_readWord.1 hword)⟩, nofun⟩
    split at h
    case isTrue hx =>
      obtain ⟨⟨⟩, rfl, hword⟩ := (yields_map (g := fun _ => Value.bool true)).1 h
      exact ⟨⟨_, .yes, by rw [hx]; exact congrArg _ (yields_readWord.1 hword)⟩, nofun⟩
    split at h
    case isTrue hx =>
      obtain ⟨⟨⟩, rfl, hword⟩ := (yields_map (g := fun _ => Value.bool false)).1 h
      exact ⟨⟨_, .no, by rw [hx]; exact congrArg _ (yields_readWord.1 hword)⟩, nofun⟩
    split at h
    case isTrue hx =>
      obtain ⟨k, rfl, hstring⟩ := (yields_map (g := Value.string)).1 h
      obtain ⟨t, ht, hspan⟩ := yields_readString.1 hstring
      exact ⟨⟨'\x22' :: t, .string ⟨t, ht, rfl⟩, by rw [hx]; exact congrArg _ hspan⟩, nofun⟩
    split at h
    case isTrue =>
      obtain ⟨n, rfl, hnumber⟩ := (yields_map (g := Value.number)).1 h
      obtain ⟨m, rfl, -⟩ := Value.readable_number_iff.1 hv
      obtain ⟨⟨t, ht, hspan⟩, -, hends⟩ := yields_readNumber.1 hnumber
      exact ⟨⟨t, .natural ht, hrest.symm.trans hspan⟩, fun _ _ => hends⟩
    case isFalse => exact (yields_error.1 h).elim

/-- Where neither a bracket nor a brace opens, a word, a string or a number is read. -/
theorem yields_readScalar {c : Cursor} {v : Value} {s : List Char} {depth : Nat}
    (hv : v.Readable depth) (hopen : ∀ rest, c.rest ≠ '[' :: rest ∧ c.rest ≠ '\x7b' :: rest) :
    Yields (readScalar c) v s ↔ Spans Spells v c.rest s ∧ ∀ n, v = .number n → Ends s := by
  refine ⟨spells_of_yields_readScalar hv, ?_⟩
  rintro ⟨⟨t, ht, hrest⟩, hends⟩
  cases ht with
  | null =>
    simp only [readScalar, hrest, List.cons_append, if_true]
    exact (yields_map (g := fun _ => Value.null)).2 ⟨(), rfl, yields_readWord.2 rfl⟩
  | yes =>
    simp only [readScalar, hrest, List.cons_append, Char.reduceEq, if_true, if_false]
    exact (yields_map (g := fun _ => Value.bool true)).2 ⟨(), rfl, yields_readWord.2 rfl⟩
  | no =>
    simp only [readScalar, hrest, List.cons_append, Char.reduceEq, if_true, if_false]
    exact (yields_map (g := fun _ => Value.bool false)).2 ⟨(), rfl, yields_readWord.2 rfl⟩
  | natural h =>
    obtain ⟨m, ⟨⟩, hroom⟩ := Value.readable_number_iff.1 hv
    obtain ⟨x, t, rfl⟩ := List.exists_cons_of_ne_nil h.1
    have hx : x.isDigit = true := h.2.1 x List.mem_cons_self
    have hne (y : Char) (hy : y.isDigit = false) : x ≠ y := by
      rintro rfl
      exact Bool.false_ne_true (hy.symm.trans hx)
    have hdigit : x = '-' ∨ isDigit x = true := .inr ((isDigit_eq x).trans hx)
    simp only [readScalar, hrest, List.cons_append, hne 'n' (by decide), hne 't' (by decide),
      hne 'f' (by decide), hne '\x22' (by decide), if_false, if_pos hdigit]
    exact (yields_map (g := Value.number)).2
      ⟨_, rfl, yields_readNumber.2 ⟨⟨_, h, hrest⟩, hroom, hends _ rfl⟩⟩
  | string h =>
    obtain ⟨t, ht, rfl⟩ := h
    simp only [readScalar, hrest, List.cons_append, Char.reduceEq, if_true, if_false]
    exact (yields_map (g := Value.string)).2 ⟨_, rfl, yields_readString.2 ⟨t, ht, rfl⟩⟩
  | array => exact absurd hrest (hopen _).1
  | object => exact absurd hrest (hopen _).2

/-! ## Arrays and objects -/

/-- What opens with a bracket is an array. -/
theorem spans_bracket_iff {v : Value} {s s' : List Char} :
    Spans Spells v ('[' :: s) s' ↔
      ∃ vs, v = .array vs ∧ Spans (Listed ']' Spells true) vs s s' := by
  constructor
  · rintro ⟨t, h, hspan⟩
    cases h with
    | array h => exact ⟨_, rfl, _, h, (List.cons.inj hspan).2⟩
    | natural h =>
      obtain ⟨-, -, hx, -⟩ := h.exists_cons hspan
      exact absurd hx (by decide)
    | string h =>
      obtain ⟨t, -, rfl⟩ := h
      simp at hspan
    | _ => simp at hspan
  · rintro ⟨vs, rfl, t, h, rfl⟩
    exact ⟨'[' :: t, .array h, rfl⟩

/-- What opens with a brace is an object. -/
theorem spans_brace_iff {v : Value} {s s' : List Char} :
    Spans Spells v ('\x7b' :: s) s' ↔
      ∃ ms, v = .object ms ∧ Spans (Listed '\x7d' (MemberText Spells) true) ms s s' := by
  constructor
  · rintro ⟨t, h, hspan⟩
    cases h with
    | object h => exact ⟨_, rfl, _, h, (List.cons.inj hspan).2⟩
    | natural h =>
      obtain ⟨-, -, hx, -⟩ := h.exists_cons hspan
      exact absurd hx (by decide)
    | string h =>
      obtain ⟨t, -, rfl⟩ := h
      simp at hspan
    | _ => simp at hspan
  · rintro ⟨ms, rfl, t, h, rfl⟩
    exact ⟨'\x7b' :: t, .object h, rfl⟩

/-- **The reader of values finds exactly the texts of the values**, a number where nothing
goes on with it. -/
theorem yields_readValue_iff {depth : Nat} : ∀ {c : Cursor} {v : Value} {s : List Char},
    v.Readable depth → (Yields (readValue depth c) v s ↔
      Spans (Led Spells) v c.rest s ∧ ∀ n, v = .number n → Ends s) := by
  induction depth with
  | zero =>
    intro c v s hv
    rw [spans_led_iff fun _ => Spells.starts, readValue]
    dsimp only
    split
    case h_1 rest hrest =>
      rw [hrest, spans_bracket_iff]
      refine iff_of_false yields_error.1 ?_
      rintro ⟨⟨vs, rfl, -⟩, -⟩
      exact hv
    case h_2 rest hrest =>
      rw [hrest, spans_brace_iff]
      refine iff_of_false yields_error.1 ?_
      rintro ⟨⟨ms, rfl, -⟩, -⟩
      exact hv
    case h_3 hbracket hbrace => exact yields_readScalar hv fun rest => ⟨hbracket rest, hbrace rest⟩
  | succ depth ih =>
    intro c v s hv
    rw [spans_led_iff fun _ => Spells.starts, readValue]
    dsimp only
    split
    case h_1 rest hrest =>
      have hitems {vs : List Value} (hvs : ∀ v ∈ vs, v.Readable depth) :
          Yields (readItems (readValue depth) (rest.length + 1) true
            ((skipSpace c).past '[' rest)) vs s ↔ Spans (Listed ']' Spells true) vs rest s :=
        yields_items (fun _ _ _ => rfl) Iff.rfl (fun hv h => ((ih hv).1 h).1)
          (fun hv hends h => (ih hv).2 ⟨h, fun _ _ => hends⟩) (fun _ _ => Spells.starts)
          (Nat.lt_succ_self _) hvs
      rw [hrest, spans_bracket_iff, yields_bind]
      constructor
      · rintro ⟨vs, c₁, hvs, h⟩
        obtain ⟨rfl, rfl⟩ := yields_ok.1 h
        exact ⟨⟨vs, rfl, (hitems hv).1 ⟨c₁, hvs, rfl⟩⟩, nofun⟩
      · rintro ⟨⟨vs, rfl, h⟩, -⟩
        obtain ⟨c₁, hc₁, hrest₁⟩ := (hitems hv).2 h
        exact ⟨vs, c₁, hc₁, yields_ok.2 ⟨rfl, hrest₁⟩⟩
    case h_2 rest hrest =>
      have hmembers {ms : List (String × Value)} (hms : ∀ m ∈ ms, m.2.Readable depth) :
          Yields (readMembers (readValue depth) (rest.length + 1) true
            ((skipSpace c).past '\x7b' rest)) ms s ↔
            Spans (Listed '\x7d' (MemberText Spells) true) ms rest s :=
        yields_members (fun hv h => ((ih hv).1 h).1)
          (fun hv hends h => (ih hv).2 ⟨h, fun _ _ => hends⟩) (Nat.lt_succ_self _) hms
      rw [hrest, spans_brace_iff, yields_bind]
      constructor
      · rintro ⟨ms, c₁, hms, h⟩
        obtain ⟨rfl, rfl⟩ := yields_ok.1 h
        exact ⟨⟨ms, rfl, (hmembers hv).1 ⟨c₁, hms, rfl⟩⟩, nofun⟩
      · rintro ⟨⟨ms, rfl, h⟩, -⟩
        obtain ⟨c₁, hc₁, hrest₁⟩ := (hmembers hv).2 h
        exact ⟨ms, c₁, hc₁, yields_ok.2 ⟨rfl, hrest₁⟩⟩
    case h_3 hbracket hbrace => exact yields_readScalar hv fun rest => ⟨hbracket rest, hbrace rest⟩

/-- Where a value ends does not depend on what follows it, if it is no number. -/
theorem yields_readValue {depth : Nat} {c : Cursor} {v : Value} {s : List Char}
    (hv : v.Wordy depth) : Yields (readValue depth c) v s ↔ Spans (Led Spells) v c.rest s := by
  rw [yields_readValue_iff hv.readable, and_iff_left fun n hn => absurd hn (hv.ne_number n)]

/-! ## Whole texts -/

/-- Nothing but white space may be left. -/
theorem expectEnd_eq_ok_iff {c : Cursor} : expectEnd c = .ok () ↔ Blank c.rest := by
  have hiff : Blank c.rest ↔ (skipSpace c).rest = [] := by
    rw [rest_skipSpace_iff]
    simp
  rw [hiff]
  simp only [expectEnd]
  split
  case h_1 hrest => simp [hrest]
  case h_2 x rest hrest => simp [hrest]

/-- **A whole text is read as a value exactly if it writes the value.** -/
theorem parse_iff_textOf {text : List Char} {v : Value} (hv : v.Readable maxDepth) :
    parse text = .ok v ↔ TextOf v text := by
  have hiff : parse text = .ok v ↔
      ∃ s, Yields (readValue maxDepth (Cursor.ofText text)) v s ∧ Blank s := by
    rw [parse]
    cases hread : readValue maxDepth (Cursor.ofText text) with
    | error f => simp [bind, Except.bind]
    | ok r =>
      obtain ⟨v₁, c⟩ := r
      cases hend : expectEnd c with
      | error f =>
        have hblank : ¬ Blank c.rest := by simp [← expectEnd_eq_ok_iff, hend]
        simp [bind, Except.bind, hend, hblank, and_assoc]
      | ok u =>
        have hblank : Blank c.rest := expectEnd_eq_ok_iff.1 hend
        simp [bind, Except.bind, hend, hblank, and_assoc]
  rw [hiff]
  constructor
  · rintro ⟨s, h, hblank⟩
    obtain ⟨⟨t, ht, hspan⟩, -⟩ := (yields_readValue_iff hv).1 h
    exact ⟨t, s, ht, hblank, hspan⟩
  · rintro ⟨t, w, ht, hblank, hspan⟩
    have hends : Ends w := List.append_nil w ▸ hblank.ends nofun
    exact ⟨w, (yields_readValue_iff hv).2 ⟨⟨t, ht, hspan⟩, fun _ _ => hends⟩, hblank⟩

end Json
end Walkthrough
