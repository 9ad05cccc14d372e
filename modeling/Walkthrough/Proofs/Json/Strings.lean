/-
# Reading strings

A reader is described by what it yields: `Yields x a s` says that its answer is the result
`a` with the text `s` left, and `Spans E a s s'` that a text of `a` leads from `s` to `s'`.
A reader reads the grammar `E` if the two are the same for it, which says at once that it
accepts nothing else and that it accepts everything.

Here this is shown of the readers inside a string, from the four digits of a code unit
(`yields_readHex`) to the characters (`yields_readCharacters`).  The arithmetic of surrogate
pairs is in `Spelling.of_halves` and `spelling_unit_iff`.
-/

import Walkthrough.Json.Reader
import Walkthrough.Proofs.Json.Grammar
import Walkthrough.Proofs.Text.Utf8

namespace Walkthrough
namespace Json

open Text (char_range toNat_ofNat_of_valid)

variable {ε α β : Type}

/-! ## What a reader yields -/

/-- The answer of a reader is the result, with the text `s` left. -/
def Yields (x : Except ε (α × Cursor)) (a : α) (s : List Char) : Prop :=
  ∃ c, x = .ok (a, c) ∧ c.rest = s

/-- The text `s` starts with a text of `a`, and `s'` is left of it. -/
def Spans (E : α → List Char → Prop) (a : α) (s s' : List Char) : Prop :=
  ∃ t, E a t ∧ s = t ++ s'

@[simp] theorem yields_ok {a b : α} {c : Cursor} {s : List Char} :
    Yields (.ok (a, c) : Except ε (α × Cursor)) b s ↔ a = b ∧ c.rest = s := by
  simp [Yields, and_assoc]

@[simp] theorem yields_error {e : ε} {a : α} {s : List Char} :
    Yields (.error e) a s ↔ False := by
  simp [Yields]

/-- Two readers in a row: the second starts where the first has stopped. -/
theorem yields_bind {x : Except ε (α × Cursor)} {k : α × Cursor → Except ε (β × Cursor)}
    {b : β} {s : List Char} :
    Yields (x >>= k) b s ↔ ∃ a c, x = .ok (a, c) ∧ Yields (k (a, c)) b s := by
  cases x with
  | error e => simp [bind, Except.bind]
  | ok r =>
    obtain ⟨a, c⟩ := r
    constructor
    · exact fun h => ⟨a, c, rfl, h⟩
    · rintro ⟨_, _, ⟨⟩, h⟩
      exact h

/-- The longest front of a text whose characters satisfy `p`, and what is behind it. -/
theorem span_iff {p : Char → Bool} {l t s : List Char} :
    (l.takeWhile p = t ∧ l.dropWhile p = s) ↔
      (∀ y ∈ t, p y = true) ∧ l = t ++ s ∧ ∀ y ∈ s.head?, p y = false := by
  constructor
  · rintro ⟨rfl, rfl⟩
    refine ⟨List.all_eq_true.1 List.all_takeWhile, List.takeWhile_append_dropWhile.symm, ?_⟩
    intro y hy
    have hhead := List.head?_dropWhile_not p l
    rw [hy] at hhead
    exact hhead
  · rintro ⟨hall, rfl, hends⟩
    rw [List.takeWhile_append_of_pos hall, List.dropWhile_append_of_pos hall]
    cases s with
    | nil => simp
    | cons y s => simp [hends y rfl]

/-! ## Code units -/

theorem hexValue?_eq_some {x : Char} {n : Nat} : hexValue? x = some n ↔ (x, n) ∈ hexDigits := by
  constructor
  · intro h
    have hlt : x.toNat < 128 := by
      simp only [hexValue?, isDigit] at h
      grind
    have hall : ∀ m < 128, ∀ n ∈ hexValue? (Char.ofNat m), (Char.ofNat m, n) ∈ hexDigits := by
      decide
    have hmem := hall _ hlt n
    rw [Char.ofNat_toNat] at hmem
    exact hmem h
  · have hall : ∀ p ∈ hexDigits, hexValue? p.1 = some p.2 := by decide
    exact hall (x, n)

theorem utf8Size_of_mem_hexDigits {x : Char} {n : Nat} (h : (x, n) ∈ hexDigits) :
    x.utf8Size = 1 := by
  have hall : ∀ p ∈ hexDigits, p.1.utf8Size = 1 := by decide
  exact hall (x, n) h

theorem lt_of_mem_hexDigits {x : Char} {n : Nat} (h : (x, n) ∈ hexDigits) : n < 16 := by
  have hall : ∀ p ∈ hexDigits, p.2 < 16 := by decide
  exact hall (x, n) h

/-- Four hexadecimal digits are read. -/
theorem yields_readHex {c : Cursor} {n : Nat} {s' : List Char} :
    Yields (readHex c) n s' ↔ Spans CodeUnit n c.rest s' := by
  constructor
  · intro h
    simp only [readHex] at h
    split at h
    · exact (yields_error.1 h).elim
    · split at h
      case h_2 => exact (yields_error.1 h).elim
      case h_1 x₁ x₂ x₃ x₄ rest hrest =>
        split at h
        case h_2 => exact (yields_error.1 h).elim
        case h_1 h₁ h₂ h₃ h₄ =>
          obtain ⟨hn, rfl⟩ := yields_ok.1 h
          exact ⟨_, .intro _ _ _ _ (hexValue?_eq_some.1 h₁) (hexValue?_eq_some.1 h₂)
            (hexValue?_eq_some.1 h₃) (hexValue?_eq_some.1 h₄) hn.symm, hrest⟩
  · rintro ⟨t, ⟨_, _, _, _, h₁, h₂, h₃, h₄, hn⟩, hrest⟩
    have hsize (x₁ x₂ x₃ x₄ : Char) (h₁ : x₁.utf8Size = 1) (h₂ : x₂.utf8Size = 1)
        (h₃ : x₃.utf8Size = 1) (h₄ : x₄.utf8Size = 1) :
        ¬ Text.Utf8.size (([x₁, x₂, x₃, x₄] ++ s').take 4) < 4 := by
      simp [Text.Utf8.size, h₁, h₂, h₃, h₄]
    rw [readHex, hrest, if_neg (hsize _ _ _ _ (utf8Size_of_mem_hexDigits h₁)
      (utf8Size_of_mem_hexDigits h₂) (utf8Size_of_mem_hexDigits h₃) (utf8Size_of_mem_hexDigits h₄))]
    simp [hexValue?_eq_some.2 h₁, hexValue?_eq_some.2 h₂, hexValue?_eq_some.2 h₃,
      hexValue?_eq_some.2 h₄, hn]

theorem CodeUnit.lt {n : Nat} {t : List Char} (h : CodeUnit n t) : n < 0x10000 := by
  obtain ⟨_, _, _, _, h₁, h₂, h₃, h₄, rfl⟩ := h
  have := lt_of_mem_hexDigits h₁
  have := lt_of_mem_hexDigits h₂
  have := lt_of_mem_hexDigits h₃
  have := lt_of_mem_hexDigits h₄
  omega

/-! ## Escapes -/

theorem yields_readPairMark {mark : Char} {c : Cursor} {s' : List Char} :
    Yields (readPairMark mark c) () s' ↔ c.rest = mark :: s' := by
  simp only [readPairMark]
  split
  case h_1 hrest => simp [hrest]
  case h_2 x rest hrest =>
    split
    case isTrue heq => simp [hrest, heq, Cursor.past]
    case isFalse hne => simp [hrest, hne]

/-- Two halves of a pair are an escape of the character they make. -/
theorem Spelling.of_halves {high low : Nat} {t u : List Char} (ht : CodeUnit high t)
    (hu : CodeUnit low u) (hhigh : 0xD800 ≤ high ∧ high ≤ 0xDBFF)
    (hlow : 0xDC00 ≤ low ∧ low ≤ 0xDFFF) :
    Spelling (Char.ofNat ((high - 0xD800) * 1024 + (low - 0xDC00) + 0x10000))
      ('\\' :: 'u' :: (t ++ '\\' :: 'u' :: u)) := by
  generalize hn : (high - 0xD800) * 1024 + (low - 0xDC00) + 0x10000 = n
  have hvalid : n.isValidChar := .inr ⟨by omega, by omega⟩
  have hhalves : 0xD800 + (n - 0x10000) / 0x400 = high ∧ 0xDC00 + (n - 0x10000) % 0x400 = low := by
    omega
  refine .pair ?_ ?_ ?_ <;> rw [toNat_ofNat_of_valid hvalid]
  · omega
  · rwa [hhalves.1]
  · rwa [hhalves.2]

/-- What stands behind `\\u` in an escape. -/
theorem spelling_unit_iff {y : Char} {t : List Char} :
    Spelling y ('\\' :: 'u' :: t) ↔ CodeUnit y.toNat t ∨
      ∃ high low hs ls, CodeUnit high hs ∧ CodeUnit low ls ∧
        (0xD800 ≤ high ∧ high ≤ 0xDBFF) ∧ (0xDC00 ≤ low ∧ low ≤ 0xDFFF) ∧
        y = Char.ofNat ((high - 0xD800) * 1024 + (low - 0xDC00) + 0x10000) ∧
        t = hs ++ '\\' :: 'u' :: ls := by
  constructor
  · intro h
    cases h with
    | letter h => exact absurd h (by simp [shortForms])
    | unit h => exact .inl h
    | @pair hs ls hplane hhs hls =>
      have hrange := char_range y
      refine .inr ⟨_, _, hs, ls, hhs, hls, ⟨by omega, by omega⟩, ⟨by omega, by omega⟩, ?_, rfl⟩
      have hback : (0xD800 + (y.toNat - 0x10000) / 0x400 - 0xD800) * 1024 +
          (0xDC00 + (y.toNat - 0x10000) % 0x400 - 0xDC00) + 0x10000 = y.toNat := by omega
      rw [hback, Char.ofNat_toNat]
  · rintro (h | ⟨high, low, hs, ls, hhs, hls, hhigh, hlow, hy, ht⟩)
    · exact .unit h
    · rw [hy, ht]
      exact .of_halves hhs hls hhigh hlow

/-- Behind `\u` one code unit is read, or a pair of them. -/
theorem yields_readUnicode {c : Cursor} {y : Char} {s' : List Char} :
    Yields (readUnicode c) y s' ↔
      Spans (fun y t => Spelling y ('\\' :: 'u' :: t)) y c.rest s' := by
  simp only [Spans, spelling_unit_iff]
  constructor
  · intro h
    obtain ⟨high, c₁, hhigh, h⟩ := yields_bind.1 h
    obtain ⟨hs, hhs, hrest⟩ := yields_readHex.1 ⟨c₁, hhigh, rfl⟩
    dsimp only at h
    split at h
    case isTrue => exact (yields_error.1 h).elim
    split at h
    case isTrue hlow hunit =>
      obtain ⟨rfl, rfl⟩ := yields_ok.1 h
      have hlt := hhs.lt
      refine ⟨hs, .inl ?_, hrest⟩
      rwa [toNat_ofNat_of_valid (by simp only [Nat.isValidChar]; omega)]
    case isFalse hlow hpair =>
      obtain ⟨⟨⟩, c₂, hslash, h⟩ := yields_bind.1 h
      obtain ⟨⟨⟩, c₃, hletter, h⟩ := yields_bind.1 h
      obtain ⟨low, c₄, hlow, h⟩ := yields_bind.1 h
      have hslash : c₁.rest = '\\' :: c₂.rest := yields_readPairMark.1 ⟨c₂, hslash, rfl⟩
      have hletter : c₂.rest = 'u' :: c₃.rest := yields_readPairMark.1 ⟨c₃, hletter, rfl⟩
      obtain ⟨ls, hls, hrest'⟩ := yields_readHex.1 ⟨c₄, hlow, rfl⟩
      dsimp only at h hrest'
      split at h
      case isTrue => exact (yields_error.1 h).elim
      obtain ⟨rfl, rfl⟩ := yields_ok.1 h
      exact ⟨_, .inr ⟨high, low, hs, ls, hhs, hls, by omega, by omega, rfl, rfl⟩,
        by simp [hrest, hslash, hletter, hrest']⟩
  · rintro ⟨t, h | ⟨high, low, hs, ls, hhs, hls, hhigh, hlow, hy, ht⟩, hrest⟩
    · obtain ⟨c₁, hc₁, hrest'⟩ := yields_readHex.2 ⟨t, h, hrest⟩
      have hrange := char_range y
      refine yields_bind.2 ⟨_, c₁, hc₁, ?_⟩
      dsimp only
      rw [if_neg (by omega), if_pos (by omega)]
      exact yields_ok.2 ⟨Char.ofNat_toNat y, hrest'⟩
    · have hrest : c.rest = hs ++ '\\' :: 'u' :: (ls ++ s') := by simp [hrest, ht]
      obtain ⟨c₁, hc₁, hrest₁⟩ := yields_readHex.2 ⟨hs, hhs, hrest⟩
      obtain ⟨c₂, hc₂, hrest₂⟩ := yields_readPairMark.2 hrest₁
      obtain ⟨c₃, hc₃, hrest₃⟩ := yields_readPairMark.2 hrest₂
      obtain ⟨c₄, hc₄, hrest₄⟩ := yields_readHex.2 ⟨ls, hls, hrest₃⟩
      refine yields_bind.2 ⟨_, c₁, hc₁, ?_⟩
      dsimp only
      rw [if_neg (by omega), if_neg (by omega)]
      refine yields_bind.2 ⟨_, c₂, hc₂, yields_bind.2 ⟨_, c₃, hc₃, yields_bind.2 ⟨_, c₄, hc₄, ?_⟩⟩⟩
      dsimp only
      rw [if_neg (by omega)]
      exact yields_ok.2 ⟨hy.symm, hrest₄⟩

theorem shortEscape?_eq_some {x y : Char} : shortEscape? x = some y ↔ (x, y) ∈ shortForms := by
  constructor
  · intro h
    simp only [shortEscape?] at h
    repeat' split at h
    all_goals cases h
    all_goals simp_all [shortForms]
  · have hall : ∀ p ∈ shortForms, shortEscape? p.1 = some p.2 := by decide
    exact hall (x, y)

/-- Behind a backslash the rest of an escape is read. -/
theorem yields_readEscape {c : Cursor} {y : Char} {s' : List Char} :
    Yields (readEscape c) y s' ↔ Spans (fun y t => Spelling y ('\\' :: t)) y c.rest s' := by
  constructor
  · intro h
    simp only [readEscape] at h
    split at h
    case h_1 => exact (yields_error.1 h).elim
    case h_2 x rest hrest =>
      split at h
      case isTrue hx =>
        obtain ⟨t, ht, hrest'⟩ := yields_readUnicode.1 h
        exact ⟨'u' :: t, ht, by rw [hrest, hx, List.cons_append, ← hrest']; rfl⟩
      case isFalse hx =>
        split at h
        case h_1 z hz =>
          obtain ⟨rfl, rfl⟩ := yields_ok.1 h
          exact ⟨[x], .letter (shortEscape?_eq_some.1 hz), hrest⟩
        case h_2 => exact (yields_error.1 h).elim
  · rintro ⟨t, h, hrest⟩
    cases h with
    | raw _ hne => exact absurd rfl hne
    | @letter x hx =>
      have hne : x ≠ 'u' := by
        rintro rfl
        exact absurd hx (by simp [shortForms])
      simp [readEscape, hrest, hne, shortEscape?_eq_some.2 hx, Cursor.past]
    | unit ht =>
      simp only [readEscape, hrest, List.cons_append, if_true]
      exact yields_readUnicode.2 ⟨_, .unit ht, rfl⟩
    | pair hplane ht hu =>
      simp only [readEscape, hrest, List.cons_append, if_true]
      exact yields_readUnicode.2 ⟨_, .pair hplane ht hu, rfl⟩

/-! ## Characters -/

/-- No way to write a character starts with a quote. -/
theorem Spelling.exists_cons {y : Char} {t : List Char} (h : Spelling y t) :
    ∃ x t', t = x :: t' ∧ x ≠ '\x22' := by
  cases h with
  | raw hquote => exact ⟨_, _, rfl, hquote⟩
  | letter => exact ⟨_, _, rfl, by decide⟩
  | unit => exact ⟨_, _, rfl, by decide⟩
  | pair => exact ⟨_, _, rfl, by decide⟩

/-- A way to write a character is the character or an escape. -/
theorem Spelling.cases_head {y x : Char} {t : List Char} (h : Spelling y (x :: t)) :
    x = '\\' ∨ x = y ∧ t = [] ∧ x ≠ '\\' ∧ 0x20 ≤ x.toNat := by
  cases h with
  | raw _ hslash hcontrol => exact .inr ⟨rfl, rfl, hslash, hcontrol⟩
  | letter => exact .inl rfl
  | unit => exact .inl rfl
  | pair => exact .inl rfl

theorem spans_characters_nil {s s' : List Char} :
    Spans Characters [] s s' ↔ s = '\x22' :: s' := by
  constructor
  · rintro ⟨_, ⟨⟩, rfl⟩
    rfl
  · rintro rfl
    exact ⟨_, .nil, rfl⟩

theorem spans_characters_cons {y : Char} {ys s s' : List Char} :
    Spans Characters (y :: ys) s s' ↔
      ∃ t u, Spelling y t ∧ s = t ++ u ∧ Spans Characters ys u s' := by
  constructor
  · rintro ⟨_, h, rfl⟩
    cases h with
    | cons ht hu => exact ⟨_, _, ht, List.append_assoc .., _, hu, rfl⟩
  · rintro ⟨t, _, ht, rfl, u, hu, rfl⟩
    exact ⟨_, .cons ht hu, (List.append_assoc ..).symm⟩

/-- **The loop over the characters of a string reads exactly the texts of its characters**,
where it has a step for each character of the text. -/
theorem yields_readCharacters {steps : Nat} : ∀ {c : Cursor} {cs s' : List Char},
    c.rest.length < steps →
      (Yields (readCharacters steps c) cs s' ↔ Spans Characters cs c.rest s') := by
  induction steps with
  | zero => exact fun h => absurd h (Nat.not_lt_zero _)
  | succ steps ih =>
    intro c cs s' hlen
    constructor
    · intro h
      rw [readCharacters] at h
      split at h
      case h_1 => exact (yields_error.1 h).elim
      case h_2 x rest hrest =>
      rw [hrest] at hlen ⊢
      split at h
      case isTrue hquote =>
        obtain ⟨rfl, rfl⟩ := yields_ok.1 h
        exact spans_characters_nil.2 (by rw [hquote]; rfl)
      case isFalse =>
      split at h
      case isTrue hslash =>
        obtain ⟨y, c₁, hy, h⟩ := yields_bind.1 h
        obtain ⟨ys, c₂, hys, h⟩ := yields_bind.1 h
        obtain ⟨rfl, rfl⟩ := yields_ok.1 h
        obtain ⟨t, ht, hrest₁⟩ := yields_readEscape.1 ⟨c₁, hy, rfl⟩
        replace hrest₁ : rest = t ++ c₁.rest := hrest₁
        have hshorter : c₁.rest.length < steps := by
          simp only [hrest₁, List.length_cons, List.length_append] at hlen
          omega
        refine spans_characters_cons.2 ⟨_, _, ht, ?_, (ih hshorter).1 ⟨c₂, hys, rfl⟩⟩
        rw [hslash, hrest₁, List.cons_append]
      case isFalse =>
      split at h
      case isTrue => exact (yields_error.1 h).elim
      case isFalse hquote hslash hcontrol =>
        obtain ⟨ys, c₂, hys, h⟩ := yields_bind.1 h
        obtain ⟨rfl, rfl⟩ := yields_ok.1 h
        have hshorter : (c.past x rest).rest.length < steps := Nat.lt_of_succ_lt_succ hlen
        exact spans_characters_cons.2 ⟨[x], rest,
          .raw hquote hslash (Nat.le_of_not_lt hcontrol), rfl, (ih hshorter).1 ⟨c₂, hys, rfl⟩⟩
    · intro h
      rw [readCharacters]
      cases cs with
      | nil =>
        rw [spans_characters_nil.1 h]
        exact yields_ok.2 ⟨rfl, rfl⟩
      | cons y ys =>
        obtain ⟨t, u, ht, hrest, hys⟩ := spans_characters_cons.1 h
        obtain ⟨x, t', rfl, hquote⟩ := ht.exists_cons
        rw [hrest] at hlen ⊢
        dsimp only [List.cons_append]
        rw [if_neg hquote]
        rcases ht.cases_head with rfl | ⟨rfl, rfl, hslash, hcontrol⟩
        · obtain ⟨c₁, hc₁, rfl⟩ :=
            (yields_readEscape (c := c.past '\\' (t' ++ u))).2 ⟨t', ht, rfl⟩
          have hshorter : c₁.rest.length < steps := by
            simp only [List.length_append, List.length_cons] at hlen
            omega
          obtain ⟨c₂, hc₂, hrest₂⟩ := (ih hshorter).2 hys
          rw [if_pos rfl]
          exact yields_bind.2 ⟨y, c₁, hc₁, yields_bind.2 ⟨ys, c₂, hc₂, yields_ok.2 ⟨rfl, hrest₂⟩⟩⟩
        · have hshorter : (c.past x u).rest.length < steps := Nat.lt_of_succ_lt_succ hlen
          obtain ⟨c₂, hc₂, hrest₂⟩ := (ih hshorter).2 hys
          rw [if_neg hslash, if_neg (Nat.not_lt.2 hcontrol)]
          exact yields_bind.2 ⟨ys, c₂, hc₂, yields_ok.2 ⟨rfl, hrest₂⟩⟩

/-- Behind the opening quote the rest of a string is read. -/
theorem yields_readString {c : Cursor} {s : String} {s' : List Char} :
    Yields (readString c) s s' ↔ Spans (fun s t => Characters s.toList t) s c.rest s' := by
  have hlen : c.rest.length < c.rest.length + 1 := Nat.lt_succ_self _
  constructor
  · intro h
    obtain ⟨cs, c₁, hcs, h⟩ := yields_bind.1 h
    obtain ⟨rfl, rfl⟩ := yields_ok.1 h
    obtain ⟨t, ht, hrest⟩ := (yields_readCharacters hlen).1 ⟨c₁, hcs, rfl⟩
    exact ⟨t, by simpa using ht, hrest⟩
  · intro h
    have hcs : Yields (readCharacters (c.rest.length + 1) c) s.toList s' :=
      (yields_readCharacters hlen).2 h
    obtain ⟨c₁, hc₁, hrest⟩ := hcs
    exact yields_bind.2 ⟨_, c₁, hc₁, yields_ok.2 ⟨String.ofList_toList, hrest⟩⟩

end Json
end Walkthrough
