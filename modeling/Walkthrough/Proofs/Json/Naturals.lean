/-
# Reading natural numbers

Digits are a natural number if no sign is in front, the number has room among the whole
ones (`foldl_pushWhole_iff`), and neither a point nor an exponent follows
(`yields_readFraction`).  With what follows it taken into account, `readNumber` yields a
natural number exactly for its text (`yields_readNumber`).
-/

import Walkthrough.Proofs.Json.Strings

namespace Walkthrough
namespace Json

/-- Nothing at the front goes on with a number. -/
def Ends (s : List Char) : Prop :=
  ∀ x ∈ s.head?, x.isDigit = false ∧ x ∉ ['.', 'e', 'E']

theorem ends_cons {x : Char} {s : List Char} :
    Ends (x :: s) ↔ x.isDigit = false ∧ x ∉ ['.', 'e', 'E'] := by
  simp [Ends]

theorem isDigit_eq (x : Char) : isDigit x = x.isDigit := by
  simp only [isDigit, Char.isDigit, ge_iff_le, UInt32.le_iff_toNat_le]
  rfl

/-! ## What is no natural number -/

theorem not_yields_realOf {b : Bool} {m n : Nat} {e : Int} {c : Cursor} {s : List Char} :
    ¬ Yields (realOf b m e c) (.natural n) s := by
  intro h
  rw [realOf] at h
  split at h
  · exact Numeral.noConfusion (yields_ok.1 h).1
  · exact yields_error.1 h

theorem not_yields_readExponent {b : Bool} {d : Digits} {n : Nat} {c : Cursor} {s : List Char} :
    ¬ Yields (readExponent b d c) (.natural n) s := by
  intro h
  unfold readExponent at h
  extract_lets signed c₁ at h
  split at h
  · exact yields_error.1 h
  split at h
  · split at h
    · exact not_yields_realOf h
    · split at h
      · exact yields_error.1 h
      · exact Numeral.noConfusion (yields_ok.1 h).1
  · exact yields_error.1 h

theorem not_yields_readPart {b : Bool} {d : Digits} {n : Nat} {c : Cursor} {s : List Char} :
    ¬ Yields (readPart b d c) (.natural n) s := by
  intro h
  simp only [readPart] at h
  split at h
  · split at h <;> exact yields_error.1 h
  · rw [readScale] at h
    split at h
    · exact not_yields_readExponent h
    · exact not_yields_readExponent h
    · exact not_yields_realOf h

theorem yields_wholeNumeral {b : Bool} {d : Digits} {n : Nat} {c : Cursor} {s : List Char} :
    Yields (wholeNumeral b d c) (.natural n) s ↔
      b = false ∧ d.full = false ∧ d.significand = n ∧ c.rest = s := by
  rw [wholeNumeral]
  split
  case isTrue hfull => simp [hfull, not_yields_realOf]
  case isFalse hfull =>
    cases b with
    | false => simp [hfull]
    | true =>
      simp only [Bool.not_true, Bool.false_eq_true, if_false]
      split <;> simp [not_yields_realOf]

/-- Whole digits are a natural number where no point and no exponent follows. -/
theorem yields_readFraction {b : Bool} {d : Digits} {n : Nat} {c : Cursor} {s : List Char} :
    Yields (readFraction b d c) (.natural n) s ↔
      b = false ∧ d.full = false ∧ d.significand = n ∧ c.rest = s ∧
        ∀ x ∈ s.head?, x ∉ ['.', 'e', 'E'] := by
  rw [readFraction]
  split
  case h_1 rest hrest =>
    refine iff_of_false not_yields_readPart ?_
    rintro ⟨-, -, -, rfl, hends⟩
    exact hends '.' (by rw [hrest]; rfl) (by decide)
  case h_2 rest hrest =>
    refine iff_of_false not_yields_readExponent ?_
    rintro ⟨-, -, -, rfl, hends⟩
    exact hends 'e' (by rw [hrest]; rfl) (by decide)
  case h_3 rest hrest =>
    refine iff_of_false not_yields_readExponent ?_
    rintro ⟨-, -, -, rfl, hends⟩
    exact hends 'E' (by rw [hrest]; rfl) (by decide)
  case h_4 hdot hlower hupper =>
    rw [yields_wholeNumeral]
    constructor
    · rintro ⟨hb, hfull, hn, rfl⟩
      refine ⟨hb, hfull, hn, rfl, ?_⟩
      intro x hx hmem
      obtain ⟨rest, hrest⟩ := List.head?_eq_some_iff.1 hx
      simp only [List.mem_cons, List.not_mem_nil, or_false] at hmem
      rcases hmem with rfl | rfl | rfl
      · exact hdot rest hrest
      · exact hlower rest hrest
      · exact hupper rest hrest
    · rintro ⟨hb, hfull, hn, hrest, -⟩
      exact ⟨hb, hfull, hn, hrest⟩

/-! ## Room for the digits -/

theorem le_ofDigitChars {ds : List Char} : ∀ {m : Nat}, m ≤ Nat.ofDigitChars 10 ds m := by
  induction ds with
  | nil => exact Nat.le_refl _
  | cons x ds ih =>
    intro m
    rw [Nat.ofDigitChars_cons]
    exact Nat.le_trans (by omega) ih

/-- Digits behind a dropped one are dropped. -/
theorem full_foldl_pushWhole {ds : List Char} : ∀ {d : Digits}, d.full = true →
    (ds.foldl Digits.pushWhole d).full = true := by
  induction ds with
  | nil => exact id
  | cons x ds ih =>
    intro d h
    exact ih (by simp [Digits.pushWhole, h])

/-- No digit is dropped exactly where the number has room. -/
theorem foldl_pushWhole_iff {ds : List Char} {n : Nat} : ∀ {d : Digits}, d.full = false →
    d.significand ≤ maxSignificand →
    ((ds.foldl Digits.pushWhole d).full = false ∧ (ds.foldl Digits.pushWhole d).significand = n ↔
      Nat.ofDigitChars 10 ds d.significand = n ∧ n ≤ maxSignificand) := by
  induction ds with
  | nil =>
    intro d hfull hroom
    constructor
    · rintro ⟨-, rfl⟩
      exact ⟨rfl, hroom⟩
    · rintro ⟨rfl, -⟩
      exact ⟨hfull, rfl⟩
  | cons x ds ih =>
    intro d hfull hroom
    rw [List.foldl_cons, Nat.ofDigitChars_cons, Nat.mul_comm 10]
    by_cases hdrop : maxSignificand < d.significand * 10 + digitValue x
    · have hpush : (d.pushWhole x).full = true := by simp [Digits.pushWhole, hdrop]
      refine iff_of_false ?_ ?_
      · rintro ⟨hkept, -⟩
        rw [full_foldl_pushWhole hpush] at hkept
        exact Bool.noConfusion hkept
      · rintro ⟨rfl, hle⟩
        exact absurd (Nat.le_trans le_ofDigitChars hle) (Nat.not_le.2 hdrop)
    · have hpush : d.pushWhole x = ⟨d.significand * 10 + digitValue x, d.exponent, false⟩ := by
        simp [Digits.pushWhole, hdrop, hfull]
      rw [hpush]
      exact ih rfl (Nat.le_of_not_lt hdrop)

/-! ## The text of a number -/

/-- The text of a number starts where the text it stands in front of does. -/
theorem NaturalText.exists_cons {n : Nat} {t s rest : List Char} {x : Char}
    (h : NaturalText n t) (hspan : x :: rest = t ++ s) :
    ∃ t', t = x :: t' ∧ x.isDigit = true ∧ rest = t' ++ s := by
  obtain ⟨hne, hdigits, -⟩ := h
  cases t with
  | nil => exact absurd rfl hne
  | cons y t' =>
    obtain ⟨rfl, hrest⟩ := List.cons.inj hspan
    exact ⟨t', rfl, hdigits x List.mem_cons_self, hrest⟩

/-- A zero in front is the whole number. -/
theorem spans_naturalText_zero {n : Nat} {rest s : List Char} :
    Spans NaturalText n ('0' :: rest) s ↔ n = 0 ∧ rest = s := by
  constructor
  · rintro ⟨t, ht, hspan⟩
    obtain ⟨t', rfl, -, rfl⟩ := ht.exists_cons hspan
    obtain ⟨-, -, hzero, hn⟩ := ht
    obtain rfl : t' = [] := (List.cons.inj (hzero rfl)).2
    exact ⟨hn.symm, rfl⟩
  · rintro ⟨rfl, rfl⟩
    exact ⟨['0'], ⟨by decide, List.forall_mem_singleton.2 rfl, fun _ => rfl, rfl⟩, rfl⟩

/-- Digits without a zero in front are taken as far as they go. -/
theorem spans_naturalText_iff {n : Nat} {x : Char} {rest s : List Char} (hx : x.isDigit = true)
    (hzero : x ≠ '0') :
    Spans NaturalText n (x :: rest) s ∧ Ends s ↔
      (Nat.ofDigitChars 10 ((x :: rest).takeWhile isDigit) 0 = n ∧
        (x :: rest).dropWhile isDigit = s ∧ ∀ y ∈ s.head?, y ∉ ['.', 'e', 'E']) := by
  constructor
  · rintro ⟨⟨t, ⟨-, hdigits, -, hn⟩, hspan⟩, hends⟩
    obtain ⟨ht, hs⟩ := (span_iff (p := isDigit)).2
      ⟨fun y hy => (isDigit_eq y).trans (hdigits y hy), hspan,
        fun y hy => (isDigit_eq y).trans (hends y hy).1⟩
    rw [ht]
    exact ⟨hn, hs, fun y hy => (hends y hy).2⟩
  · rintro ⟨hn, hs, hmarks⟩
    obtain ⟨hdigits, hspan, hends⟩ := span_iff.1 ⟨rfl, hs⟩
    refine ⟨⟨_, ⟨?_, fun y hy => (isDigit_eq y).symm.trans (hdigits y hy), ?_, hn⟩, hspan⟩,
      fun y hy => ⟨(isDigit_eq y).symm.trans (hends y hy), hmarks y hy⟩⟩
    · simp [isDigit_eq, hx]
    · simp [isDigit_eq, hx, hzero]

/-- A zero that no digit follows is a number. -/
theorem yields_readFraction_zero {b : Bool} {n : Nat} {c : Cursor} {s : List Char}
    (hends : ∀ y ∈ c.rest.head?, isDigit y = false) :
    Yields (readFraction b ⟨0, 0, false⟩ c) (.natural n) s ↔
      b = false ∧ (n = 0 ∧ c.rest = s) ∧ n ≤ maxSignificand ∧ Ends s := by
  rw [yields_readFraction]
  constructor
  · rintro ⟨hb, -, rfl, rfl, hmarks⟩
    exact ⟨hb, ⟨rfl, rfl⟩, Nat.zero_le _,
      fun y hy => ⟨(isDigit_eq y).symm.trans (hends y hy), hmarks y hy⟩⟩
  · rintro ⟨hb, ⟨rfl, rfl⟩, -, hends⟩
    exact ⟨hb, rfl, rfl, rfl, fun y hy => (hends y hy).2⟩

/-- Without a sign a natural number is read from its text. -/
theorem yields_readUnsigned {b : Bool} {n : Nat} {c : Cursor} {s : List Char} :
    Yields (readUnsigned b c) (.natural n) s ↔
      b = false ∧ Spans NaturalText n c.rest s ∧ n ≤ maxSignificand ∧ Ends s := by
  rw [readUnsigned]
  split
  case h_1 hrest =>
    refine iff_of_false yields_error.1 ?_
    rintro ⟨-, ⟨t, ⟨hne, -⟩, hspan⟩, -⟩
    exact hne (List.append_eq_nil_iff.1 (hspan.symm.trans hrest)).1
  case h_2 x rest hrest =>
    split
    case isTrue hzero =>
      rw [hrest, hzero, spans_naturalText_zero]
      split
      case h_1 y rest =>
        split
        case isTrue hdigit =>
          refine iff_of_false yields_error.1 ?_
          rintro ⟨-, ⟨-, rfl⟩, -, hends⟩
          rw [isDigit_eq, (hends y rfl).1] at hdigit
          exact Bool.noConfusion hdigit
        case isFalse hdigit =>
          refine yields_readFraction_zero fun z hz => ?_
          rw [← Option.some.inj hz]
          exact Bool.eq_false_iff.2 hdigit
      case h_2 => exact yields_readFraction_zero fun z hz => absurd hz (Option.not_mem_none z)
    case isFalse hzero =>
      split
      case isTrue hdigit =>
        have hfold := @foldl_pushWhole_iff ((x :: rest).takeWhile isDigit) n ⟨0, 0, false⟩ rfl
          (Nat.zero_le _)
        rw [isDigit_eq] at hdigit
        rw [yields_readFraction, hrest, and_left_comm (a := Spans _ _ _ _),
          spans_naturalText_iff hdigit hzero, ← and_assoc (a := Digits.full _ = false), hfold]
        simp only [skipWhile, hrest]
        constructor
        · rintro ⟨hb, ⟨hn, hroom⟩, hspan⟩
          exact ⟨hb, hroom, hn, hspan⟩
        · rintro ⟨hb, hroom, hn, hspan⟩
          exact ⟨hb, ⟨hn, hroom⟩, hspan⟩
      case isFalse hdigit =>
        refine iff_of_false yields_error.1 ?_
        rintro ⟨-, ⟨t, ht, hspan⟩, -⟩
        obtain ⟨-, -, hx, -⟩ := ht.exists_cons (hrest.symm.trans hspan)
        exact hdigit ((isDigit_eq x).trans hx)

/-- **A natural number is read exactly from its text**, if it has room and nothing behind it
goes on with it. -/
theorem yields_readNumber {n : Nat} {c : Cursor} {s : List Char} :
    Yields (readNumber c) (.natural n) s ↔
      Spans NaturalText n c.rest s ∧ n ≤ maxSignificand ∧ Ends s := by
  rw [readNumber]
  split
  case h_1 rest hrest =>
    refine iff_of_false ?_ ?_
    · intro h
      exact Bool.noConfusion (yields_readUnsigned.1 h).1
    · rintro ⟨⟨t, ht, hspan⟩, -⟩
      obtain ⟨-, -, hx, -⟩ := ht.exists_cons (hrest.symm.trans hspan)
      exact absurd hx (by decide)
  case h_2 => simp [yields_readUnsigned]
end Json
end Walkthrough
