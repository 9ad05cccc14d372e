/-
# The bytes of characters

The decoder reads byte by byte and holds the part of a character read so far.  A held part
stands for the bytes `x` behind it (`Stands`): the characters whose bytes start with `x` are
those whose code point has the held bits in front and goes on in the range.  So a byte in the
range leads to a longer part or completes the one character that goes on with it, and with a
byte outside the range no character starts any more (`feed_cases`).  The rows of the table of
first bytes are checked in `begin_cases`.
-/

import Mathlib.Data.List.Basic
import Walkthrough.Text.Utf8

namespace Walkthrough
namespace Text

/-! ## Code points -/

theorem toNat_ofNat_of_valid {n : Nat} (h : n.isValidChar) : (Char.ofNat n).toNat = n := by
  rw [Char.ofNat, dif_pos h]
  rfl

/-- No character lies among the surrogates. -/
theorem char_range (y : Char) : y.toNat < 0xD800 ∨ 0xDFFF < y.toNat ∧ y.toNat < 0x110000 :=
  y.valid

namespace Utf8

open String (utf8EncodeChar)

/-! ## The bytes of a character -/

/-- A number without its last `n` digits to the base 64. -/
def shift : (n v : Nat) → Nat
  | 0, v => v
  | n + 1, v => shift n v / 64

theorem exists_shift (n d : Nat) : ∃ v, shift n v = d := by
  induction n generalizing d with
  | zero => exact ⟨d, rfl⟩
  | succ n ih =>
    obtain ⟨v, hv⟩ := ih (d * 64)
    exact ⟨v, by rw [shift, hv, Nat.mul_div_cancel _ (by decide)]⟩

/-- The last `n` bytes of a character with the code point `v`. -/
def tailBytes : (n v : Nat) → List UInt8
  | 0, _ => []
  | n + 1, v => UInt8.ofNat (shift n v % 64 + 0x80) :: tailBytes n v

/-- How many bytes follow the first byte of a character. -/
def tailLength (v : Nat) : Nat :=
  if v < 0x80 then 0 else if v < 0x800 then 1 else if v < 0x10000 then 2 else 3

/-- The first byte of a character. -/
def leadByte (v : Nat) : Nat :=
  if v < 0x80 then v
  else if v < 0x800 then 0xC0 + v / 64
  else if v < 0x10000 then 0xE0 + v / 4096
  else 0xF0 + v / 262144

theorem encodeChar_eq (c : Char) : utf8EncodeChar c =
    UInt8.ofNat (leadByte c.toNat) :: tailBytes (tailLength c.toNat) c.toNat := by
  have hrange := char_range c
  have hval : c.val.toNat = c.toNat := rfl
  unfold utf8EncodeChar leadByte tailLength
  simp only [hval]
  generalize c.toNat = v at hrange
  by_cases h1 : v < 0x80
  · simp [if_pos (Nat.le_of_lt_succ h1), if_pos h1, tailBytes]
  by_cases h2 : v < 0x800
  · have hlead : v / 64 % 32 + 192 = 0xC0 + v / 64 := by omega
    rw [if_neg (by omega), if_pos (Nat.le_of_lt_succ h2), if_neg h1, if_pos h2, if_neg h1, if_pos h2]
    simp [tailBytes, shift, hlead]
  by_cases h3 : v < 0x10000
  · have hlead : v / 4096 % 16 + 224 = 0xE0 + v / 4096 := by omega
    rw [if_neg (by omega), if_neg (by omega), if_pos (Nat.le_of_lt_succ h3), if_neg h1, if_neg h2,
      if_pos h3, if_neg h1, if_neg h2, if_pos h3]
    simp [tailBytes, shift, hlead]
  · have hlead : v / 262144 % 8 + 240 = 0xF0 + v / 262144 := by omega
    rw [if_neg (by omega), if_neg (by omega), if_neg (by omega), if_neg h1, if_neg h2, if_neg h3,
      if_neg h1, if_neg h2, if_neg h3]
    simp [tailBytes, shift, hlead, Nat.div_div_eq_div_mul]

/-- The first byte of a character is no continuation byte. -/
theorem leadByte_range (c : Char) :
    leadByte c.toNat < 0x80 ∨ 0xBF < leadByte c.toNat ∧ leadByte c.toNat < 0x100 := by
  have hrange := char_range c
  unfold leadByte
  split_ifs <;> omega

/-- The character that a byte starts has it as its first byte. -/
theorem singleton_starts (b : UInt8) (c : Char) :
    [b] <+: utf8EncodeChar c ↔ leadByte c.toNat = b.toNat := by
  have hrange := leadByte_range c
  rw [encodeChar_eq, List.cons_prefix_cons, ← UInt8.toNat_inj, UInt8.toNat_ofNat',
    and_iff_left List.nil_prefix, Nat.mod_eq_of_lt (by omega)]
  exact eq_comm

/-! ## Held parts -/

/-- Whether the code point has the bits in front of its last `n + 1` digits to the base 64, and
the first of these digits makes a byte in the range. -/
def Fits (bits n lo hi v : Nat) : Prop :=
  shift (n + 1) v = bits ∧ lo ≤ shift n v % 64 + 0x80 ∧ shift n v % 64 + 0x80 ≤ hi

/-- A held part stands for the bytes read of a character: the characters whose bytes start with
them are those that fit the part, and every number that fits it is a character. -/
structure Stands (x : List UInt8) (bits n lo hi : Nat) : Prop where
  ne_nil : x ≠ []
  lo_le : 0x80 ≤ lo
  lo_le_hi : lo ≤ hi
  hi_le : hi ≤ 0xBF
  starts : ∀ c : Char, x <+: utf8EncodeChar c ↔ Fits bits n lo hi c.toNat
  encoded : ∀ c : Char, x <+: utf8EncodeChar c →
    utf8EncodeChar c = x ++ tailBytes (n + 1) c.toNat
  valid : ∀ v, Fits bits n lo hi v → v.isValidChar

variable {x : List UInt8} {bits n lo hi : Nat} {b : UInt8}

namespace Stands

/-- A character goes on with the first of its last bytes. -/
theorem next_starts (h : Stands x bits n lo hi) (c : Char) :
    x ++ [b] <+: utf8EncodeChar c ↔
      Fits bits n lo hi c.toNat ∧ shift n c.toNat % 64 + 0x80 = b.toNat := by
  rw [← h.starts]
  constructor
  · intro hpre
    have hx := (List.prefix_append x [b]).trans hpre
    rw [h.encoded c hx, List.prefix_append_right_inj, tailBytes, List.cons_prefix_cons] at hpre
    refine ⟨hx, ?_⟩
    rw [hpre.1, UInt8.toNat_ofNat']
    omega
  · rintro ⟨hx, hb⟩
    rw [h.encoded c hx, List.prefix_append_right_inj, tailBytes, List.cons_prefix_cons, hb,
      UInt8.ofNat_toNat]
    exact ⟨rfl, List.nil_prefix⟩

/-- With a byte outside the range no character starts. -/
theorem not_starts (h : Stands x bits n lo hi) (hb : ¬ (lo ≤ b.toNat ∧ b.toNat ≤ hi)) (c : Char) :
    ¬ x ++ [b] <+: utf8EncodeChar c := by
  rw [h.next_starts]
  rintro ⟨⟨-, hlo, hhi⟩, hnext⟩
  exact hb ⟨hnext ▸ hlo, hnext ▸ hhi⟩

/-- With a byte in the range the part gets longer. -/
theorem step (h : Stands x bits (n + 1) lo hi) (hlo : lo ≤ b.toNat) (hhi : b.toNat ≤ hi) :
    Stands (x ++ [b]) (bits * 64 + (b.toNat - 0x80)) n 0x80 0xBF := by
  have hle := h.lo_le
  have hge := h.hi_le
  -- one more digit to the base 64 is in front
  have hfits (v : Nat) : Fits (bits * 64 + (b.toNat - 0x80)) n 0x80 0xBF v ↔
      Fits bits (n + 1) lo hi v ∧ shift (n + 1) v % 64 + 0x80 = b.toNat := by
    simp only [Fits, shift]
    omega
  exact {
    ne_nil := by simp
    lo_le := Nat.le_refl _
    lo_le_hi := by decide
    hi_le := Nat.le_refl _
    starts := fun c => by rw [h.next_starts, hfits]
    encoded := fun c hpre => by
      have hnext := ((h.next_starts c).1 hpre).2
      rw [h.encoded c ((List.prefix_append x [b]).trans hpre), tailBytes, hnext,
        UInt8.ofNat_toNat, List.append_assoc, List.singleton_append]
    valid := fun v hv => h.valid v ((hfits v).1 hv).1 }

/-- The last byte completes a character, and no other goes on with it. -/
theorem last (h : Stands x bits 0 lo hi) (hlo : lo ≤ b.toNat) (hhi : b.toNat ≤ hi) :
    utf8EncodeChar (Char.ofNat (bits * 64 + (b.toNat - 0x80))) = x ++ [b] ∧
      ∀ d, x ++ [b] <+: utf8EncodeChar d → d = Char.ofNat (bits * 64 + (b.toNat - 0x80)) := by
  have hle := h.lo_le
  have hge := h.hi_le
  generalize hv : bits * 64 + (b.toNat - 0x80) = v
  have hlast (w : Nat) :
      Fits bits 0 lo hi w ∧ shift 0 w % 64 + 0x80 = b.toNat ↔ w = v := by
    simp only [Fits, shift]
    omega
  have hcode : (Char.ofNat v).toNat = v := toNat_ofNat_of_valid (h.valid v ((hlast v).2 rfl).1)
  have hnext (d : Char) : x ++ [b] <+: utf8EncodeChar d ↔ d.toNat = v := by
    rw [h.next_starts, hlast]
  constructor
  · have hstart := (List.prefix_append x [b]).trans ((hnext _).2 hcode)
    obtain ⟨-, hb⟩ := (h.next_starts _).1 ((hnext _).2 hcode)
    rw [h.encoded _ hstart, tailBytes, hb, UInt8.ofNat_toNat, tailBytes]
  · exact fun d hd => Char.toNat_inj.1 (((hnext d).1 hd).trans hcode.symm)

/-- A held part starts a character. -/
theorem exists_starts (h : Stands x bits n lo hi) : ∃ c : Char, x <+: utf8EncodeChar c := by
  have hle := h.lo_le
  have hge := h.hi_le
  have hmid := h.lo_le_hi
  obtain ⟨v, hv⟩ := exists_shift n (bits * 64 + (lo - 0x80))
  have hfits : Fits bits n lo hi v := by
    simp only [Fits, shift, hv]
    omega
  have hcode : (Char.ofNat v).toNat = v := toNat_ofNat_of_valid (h.valid v hfits)
  exact ⟨Char.ofNat v, (h.starts _).2 (hcode.symm ▸ hfits)⟩

end Stands

/-! ## The first byte -/

/-- The rows of the table of first bytes that are held: the byte, its bits, how many bytes
follow the next one, and the range of the next one. -/
inductive Row : (b bits n lo hi : Nat) → Prop where
  | two {b : Nat} : 0xC2 ≤ b → b < 0xE0 → Row b (b - 0xC0) 0 0x80 0xBF
  | afterE0 : Row 0xE0 0 1 0xA0 0xBF
  | three {b : Nat} : 0xE0 < b → b < 0xF0 → b ≠ 0xED → Row b (b - 0xE0) 1 0x80 0xBF
  | afterED : Row 0xED 0xD 1 0x80 0x9F
  | afterF0 : Row 0xF0 0 2 0x90 0xBF
  | four {b : Nat} : 0xF0 < b → b < 0xF4 → Row b (b - 0xF0) 2 0x80 0xBF
  | afterF4 : Row 0xF4 4 2 0x80 0x8F

theorem exists_row {b : Nat} (hlo : 0xC2 ≤ b) (hhi : b ≤ 0xF4) :
    ∃ bits n lo hi, Row b bits n lo hi := by
  by_cases h2 : b < 0xE0
  · exact ⟨_, _, _, _, .two hlo h2⟩
  by_cases hE0 : b = 0xE0
  · subst hE0
    exact ⟨_, _, _, _, .afterE0⟩
  by_cases hED : b = 0xED
  · subst hED
    exact ⟨_, _, _, _, .afterED⟩
  by_cases h3 : b < 0xF0
  · exact ⟨_, _, _, _, .three (by omega) h3 hED⟩
  by_cases hF0 : b = 0xF0
  · subst hF0
    exact ⟨_, _, _, _, .afterF0⟩
  by_cases h4 : b < 0xF4
  · exact ⟨_, _, _, _, .four (by omega) h4⟩
  · obtain rfl : b = 0xF4 := by omega
    exact ⟨_, _, _, _, .afterF4⟩

theorem Row.begin_eq {b : Nat} (h : Row b bits n lo hi) :
    begin b = ([], .part bits (n + 1) lo hi) := by
  cases h with
  | two hlo hhi =>
    rw [begin, if_neg (by omega), if_neg (by omega), if_pos hhi]
  | three hlo hhi hne =>
    rw [begin, if_neg (by omega), if_neg (by omega), if_neg (by omega), if_neg (by omega),
      if_neg hne, if_pos hhi]
  | four hlo hhi =>
    rw [begin, if_neg (by omega), if_neg (by omega), if_neg (by omega), if_neg (by omega),
      if_neg (by omega), if_neg (by omega), if_neg (by omega), if_pos hhi]
  | _ => rfl

/-- The numbers that fit a row are the characters with the first byte of the row. -/
theorem Row.fits_iff {b : Nat} (h : Row b bits n lo hi) (v : Nat) :
    (Fits bits n lo hi v ↔ v.isValidChar ∧ leadByte v = b) ∧
      (Fits bits n lo hi v → tailLength v = n + 1) := by
  unfold Fits leadByte tailLength Nat.isValidChar
  cases h <;> simp only [shift] <;> split_ifs <;> omega

theorem Row.range {b : Nat} (h : Row b bits n lo hi) : 0x80 ≤ lo ∧ lo ≤ hi ∧ hi ≤ 0xBF := by
  cases h <;> decide

/-- A byte of a row stands for the characters that it is the first byte of. -/
theorem Row.stands (h : Row b.toNat bits n lo hi) : Stands [b] bits n lo hi where
  ne_nil := List.cons_ne_nil _ _
  lo_le := h.range.1
  lo_le_hi := h.range.2.1
  hi_le := h.range.2.2
  starts c := by
    have hvalid : c.toNat.isValidChar := c.valid
    rw [singleton_starts, (h.fits_iff _).1, and_iff_right hvalid]
  encoded c hc := by
    have hvalid : c.toNat.isValidChar := c.valid
    have hfirst := (singleton_starts b c).1 hc
    have hlast := (h.fits_iff _).2 ((h.fits_iff _).1.2 ⟨hvalid, hfirst⟩)
    rw [encodeChar_eq, hfirst, UInt8.ofNat_toNat, hlast, List.singleton_append]
  valid v hv := ((h.fits_iff v).1.1 hv).1

/-- **The first byte of a character**: it is all of it, it starts none, or it is held. -/
theorem begin_cases (b : UInt8) :
    (∃ c, begin b.toNat = ([c], .nothing) ∧ utf8EncodeChar c = [b] ∧
        ∀ d, [b] <+: utf8EncodeChar d → d = c) ∨
      (begin b.toNat = ([replacement], .nothing) ∧ ∀ c, ¬ [b] <+: utf8EncodeChar c) ∨
      ∃ bits n lo hi, begin b.toNat = ([], .part bits (n + 1) lo hi) ∧ Stands [b] bits n lo hi := by
  have hnone (h : ∀ c : Char, leadByte c.toNat ≠ b.toNat) : ∀ c, ¬ [b] <+: utf8EncodeChar c :=
    fun c hc => h c ((singleton_starts b c).1 hc)
  by_cases hascii : b.toNat < 0x80
  · left
    have hcode : (Char.ofNat b.toNat).toNat = b.toNat := toNat_ofNat_of_valid (.inl (by omega))
    refine ⟨_, by rw [begin, if_pos hascii], ?_, fun d hd => Char.toNat_inj.1 ?_⟩
    · rw [encodeChar_eq, hcode, leadByte, tailLength, if_pos hascii, if_pos hascii,
        UInt8.ofNat_toNat, tailBytes]
    · have hlead := (singleton_starts b d).1 hd
      unfold leadByte at hlead
      split_ifs at hlead <;> omega
  by_cases htail : b.toNat < 0xC2
  · right; left
    refine ⟨by rw [begin, if_neg hascii, if_pos htail], hnone fun c => ?_⟩
    unfold leadByte
    split_ifs <;> omega
  by_cases hrow : b.toNat ≤ 0xF4
  · right; right
    obtain ⟨bits, n, lo, hi, h⟩ := exists_row (Nat.not_lt.1 htail) hrow
    exact ⟨bits, n, lo, hi, h.begin_eq, h.stands⟩
  · right; left
    refine ⟨?_, hnone fun c => ?_⟩
    · rw [begin, if_neg hascii, if_neg htail]
      repeat rw [if_neg (by omega)]
    · have hrange := char_range c
      unfold leadByte
      split_ifs <;> omega

/-! ## One byte -/

/-- What is held stands for the bytes read since the last character. -/
inductive Holds : List UInt8 → Held → Prop where
  | nothing : Holds [] .nothing
  | part {x : List UInt8} {bits n lo hi : Nat} :
      Stands x bits n lo hi → Holds x (.part bits (n + 1) lo hi)

variable {h : Held}

/-- **One byte**: it completes the only character that goes on with it, it is held, or no
character goes on with it, and then it is looked at again unless it is the first. -/
theorem feed_cases (hx : Holds x h) (b : UInt8) :
    (∃ c, feed h b.toNat = ([c], .nothing) ∧ utf8EncodeChar c = x ++ [b] ∧
        ∀ d, x ++ [b] <+: utf8EncodeChar d → d = c) ∨
      ((∀ c, ¬ x ++ [b] <+: utf8EncodeChar c) ∧
        feed h b.toNat = if x = [] then ([replacement], .nothing)
          else (replacement :: (begin b.toNat).1, (begin b.toNat).2)) ∨
      ∃ bits n lo hi, feed h b.toNat = ([], .part bits (n + 1) lo hi) ∧
        Stands (x ++ [b]) bits n lo hi := by
  cases hx with
  | nothing =>
    rw [if_pos rfl, and_comm (a := ∀ c, _)]
    exact begin_cases b
  | @part _ bits n lo hi hx =>
    by_cases hb : lo ≤ b.toNat ∧ b.toNat ≤ hi
    · cases n with
      | zero =>
        left
        exact ⟨_, by rw [feed, if_pos hb, if_pos (Nat.le_refl 1)], hx.last hb.1 hb.2⟩
      | succ n =>
        right; right
        exact ⟨_, n, _, _, by rw [feed, if_pos hb, if_neg (by omega)]; rfl, hx.step hb.1 hb.2⟩
    · right; left
      exact ⟨hx.not_starts hb, by rw [feed, if_neg hb, if_neg hx.ne_nil]⟩

end Utf8
end Text
end Walkthrough
