/-
# Decoding with recovery

A character is read as itself wherever it stands: behind other characters
(`decodeLossy_encode_append`), and behind any bytes at all, since its first byte never
continues what is held (`decodeLossy_append_encode`).

What is not a character is broken.  A broken part is the longest start of a character at its
place, or one byte where no character starts, with no whole character there (`Broken`).  Any
bytes are divided into characters and broken parts in exactly one way (`Divides.unique`), and
the decoder writes one `U+FFFD` for each broken part (`decodeFrom_divides`).
-/

import Walkthrough.Proofs.Text.Utf8

namespace Walkthrough
namespace Text
namespace Utf8

open String (utf8EncodeChar)

variable {x y z bs : List UInt8} {b : UInt8} {h : Held} {c d : Char} {s : List Char}

/-! ## Characters are read as themselves -/

/-- What is held is not all of a character. -/
theorem Holds.encodeChar_ne (hx : Holds x h) (c : Char) : utf8EncodeChar c ≠ x := by
  cases hx with
  | nothing => exact fun hc => by simp [encodeChar_eq] at hc
  | part hx =>
    intro hc
    have hrest := hx.encoded c (hc ▸ List.prefix_refl _)
    rw [hc, List.self_eq_append_right] at hrest
    exact List.cons_ne_nil _ _ hrest

/-- The bytes that are missing from a character complete it. -/
theorem decodeFrom_rest (hx : Holds x h) (hc : utf8EncodeChar c = x ++ y) :
    decodeFrom h (y ++ z) = c :: decodeFrom .nothing z := by
  induction y generalizing x h with
  | nil => exact absurd (hc.trans (List.append_nil x)) (hx.encodeChar_ne c)
  | cons b y ih =>
    have hnext : utf8EncodeChar c = x ++ [b] ++ y := by rw [hc, List.append_cons]
    have hpre : x ++ [b] <+: utf8EncodeChar c := ⟨y, hnext.symm⟩
    rw [List.cons_append, decodeFrom]
    rcases feed_cases hx b with ⟨d, hfeed, hd, honly⟩ | ⟨hnone, -⟩ | ⟨_, _, _, _, hfeed, hstands⟩
    · obtain rfl := honly c hpre
      have hy : y = [] := by rwa [hd, List.self_eq_append_right] at hnext
      rw [hfeed, hy, List.singleton_append, List.nil_append]
    · exact absurd hpre (hnone c)
    · rw [hfeed, List.nil_append]
      exact ih (.part hstands) hnext

theorem decodeLossy_encodeChar_append (c : Char) (z : List UInt8) :
    decodeLossy (utf8EncodeChar c ++ z) = c :: decodeLossy z :=
  decodeFrom_rest .nothing rfl

/-- **Characters in front of any bytes** are read as themselves. -/
theorem decodeLossy_encode_append (s : List Char) (z : List UInt8) :
    decodeLossy (encode s ++ z) = s ++ decodeLossy z := by
  induction s with
  | nil => rfl
  | cons c s ih =>
    have hsplit : encode (c :: s) = utf8EncodeChar c ++ encode s := List.flatMap_cons
    rw [hsplit, List.append_assoc, decodeLossy_encodeChar_append, ih, List.cons_append]

/-- A text is read as itself. -/
theorem decodeLossy_encode (s : List Char) : decodeLossy (encode s) = s := by
  have hs := decodeLossy_encode_append s []
  rwa [List.append_nil, show decodeLossy [] = [] from rfl, List.append_nil] at hs

/-- No character is the start of another. -/
theorem encodeChar_inj_of_starts (hcd : utf8EncodeChar c <+: utf8EncodeChar d) : c = d := by
  obtain ⟨z, hz⟩ := hcd
  have hc := decodeLossy_encodeChar_append c z
  have hd := decodeLossy_encodeChar_append d []
  rw [List.append_nil, ← hz, hc] at hd
  exact (List.cons.inj hd).1

/-! ## What is held is given up -/

/-- After a byte with which no character goes on, the held part is one `U+FFFD` and the byte is
looked at again. -/
theorem decodeFrom_restart (hx : Holds x h) (hne : x ≠ [])
    (hnone : ∀ c, ¬ x ++ [b] <+: utf8EncodeChar c) :
    decodeFrom h (b :: z) = replacement :: decodeFrom .nothing (b :: z) := by
  rcases feed_cases hx b with ⟨c, -, hc, -⟩ | ⟨-, hfeed⟩ | ⟨_, _, _, _, -, hstands⟩
  · exact absurd (hc ▸ List.prefix_refl _) (hnone c)
  · rw [if_neg hne] at hfeed
    rw [decodeFrom, hfeed, List.cons_append, decodeFrom, feed]
  · obtain ⟨c, hc⟩ := hstands.exists_starts
    exact absurd hc (hnone c)

/-- The first byte of a character does not continue what is held. -/
theorem Stands.not_starts_lead {bits n lo hi : Nat} (hx : Stands x bits n lo hi) (c d : Char) :
    ¬ x ++ [UInt8.ofNat (leadByte c.toNat)] <+: utf8EncodeChar d := by
  have hrange := leadByte_range c
  have hlo := hx.lo_le
  have hhi := hx.hi_le
  refine hx.not_starts ?_ d
  rw [UInt8.toNat_ofNat', Nat.mod_eq_of_lt (by omega)]
  omega

/-- Behind what is held, a text is read as itself. -/
theorem decodeFrom_encode (hx : Holds x h) (s : List Char) :
    decodeFrom h (encode s) = flush h ++ s := by
  cases s with
  | nil => exact (List.append_nil _).symm
  | cons c s =>
    have htext : decodeFrom .nothing (encode (c :: s)) = c :: s := decodeLossy_encode _
    cases hx with
    | nothing => exact htext
    | part hstands =>
      have hbytes : encode (c :: s) = UInt8.ofNat (leadByte c.toNat) ::
          (tailBytes (tailLength c.toNat) c.toNat ++ encode s) := by
        rw [encode, List.flatMap_cons, encodeChar_eq, List.cons_append, encode]
      rw [hbytes] at htext ⊢
      rw [decodeFrom_restart (.part hstands) hstands.ne_nil (hstands.not_starts_lead c), htext]
      rfl

/-- What is held stands for bytes, and so does what is held after a byte. -/
theorem Holds.feed (hx : Holds x h) (b : UInt8) : ∃ y, Holds y (feed h b.toNat).2 := by
  have hbegin : ∃ y, Holds y (begin b.toNat).2 := by
    rcases begin_cases b with ⟨c, hb, -⟩ | ⟨hb, -⟩ | ⟨_, _, _, _, hb, hstands⟩ <;> rw [hb]
    · exact ⟨[], .nothing⟩
    · exact ⟨[], .nothing⟩
    · exact ⟨[b], .part hstands⟩
  rcases feed_cases hx b with ⟨c, hfeed, -⟩ | ⟨-, hfeed⟩ | ⟨_, _, _, _, hfeed, hstands⟩
  · exact ⟨[], hfeed ▸ .nothing⟩
  · rw [hfeed]
    split_ifs
    · exact ⟨[], .nothing⟩
    · exact hbegin
  · exact ⟨x ++ [b], hfeed ▸ .part hstands⟩

theorem decodeFrom_append_encode (hx : Holds x h) (bs : List UInt8) (s : List Char) :
    decodeFrom h (bs ++ encode s) = decodeFrom h bs ++ s := by
  induction bs generalizing x h with
  | nil => exact decodeFrom_encode hx s
  | cons b bs ih =>
    obtain ⟨y, hy⟩ := hx.feed b
    rw [List.cons_append, decodeFrom, decodeFrom, ih hy, List.append_assoc]

/-- **Characters behind any bytes** are read as themselves. -/
theorem decodeLossy_append_encode (bs : List UInt8) (s : List Char) :
    decodeLossy (bs ++ encode s) = decodeLossy bs ++ s :=
  decodeFrom_append_encode .nothing bs s

/-! ## Broken parts -/

/-- The bytes `x` with `z` behind them are a maximal broken part: no character stands there, and
`x` is the longest start of a character there, or one byte. -/
structure Broken (x z : List UInt8) : Prop where
  ne_nil : x ≠ []
  no_character : ∀ c, ¬ utf8EncodeChar c <+: x ++ z
  starts : (∃ c, x <+: utf8EncodeChar c) ∨ x.length = 1
  longest : ∀ y c, y <+: x ++ z → y <+: utf8EncodeChar c → y.length ≤ x.length

/-- A part of the bytes: a character, or bytes that are none. -/
inductive Part where
  | character (c : Char)
  | broken (bytes : List UInt8)
deriving DecidableEq, Repr

/-- What is shown of a part. -/
def Part.shown : Part → Char
  | .character c => c
  | .broken _ => replacement

/-- The bytes are divided into characters and maximal broken parts. -/
inductive Divides : List UInt8 → List Part → Prop where
  | nil : Divides [] []
  | character {c : Char} {z : List UInt8} {ps : List Part} :
      Divides z ps → Divides (utf8EncodeChar c ++ z) (.character c :: ps)
  | broken {x z : List UInt8} {ps : List Part} :
      Broken x z → Divides z ps → Divides (x ++ z) (.broken x :: ps)

/-- Two maximal broken parts at the same place are the same. -/
theorem Broken.unique {x' z' : List UInt8} (h : Broken x z) (h' : Broken x' z')
    (heq : x ++ z = x' ++ z') : x = x' ∧ z = z' := by
  -- each is at most as long as the other
  have hle {x z x' z' : List UInt8} (h : Broken x z) (h' : Broken x' z')
      (heq : x ++ z = x' ++ z') : x.length ≤ x'.length := by
    rcases h.starts with ⟨c, hc⟩ | hone
    · exact h'.longest x c (heq ▸ List.prefix_append x z) hc
    · exact hone ▸ List.length_pos_iff.2 h'.ne_nil
  exact List.append_inj heq (Nat.le_antisymm (hle h h' heq) (hle h' h heq.symm))

/-- Bytes are divided in at most one way. -/
theorem Divides.unique {ps qs : List Part} (h : Divides bs ps) (h' : Divides bs qs) : ps = qs := by
  induction h generalizing qs with
  | nil =>
    generalize hbs : ([] : List UInt8) = bs at h'
    cases h' with
    | nil => rfl
    | @character c z _ _ => simp [encodeChar_eq] at hbs
    | broken hb _ => exact absurd (List.append_eq_nil_iff.1 hbs.symm).1 hb.ne_nil
  | @character c z ps hz ih =>
    generalize hbs : utf8EncodeChar c ++ z = bs at h'
    cases h' with
    | nil => simp [encodeChar_eq] at hbs
    | @character d z' qs hz' =>
      -- the shorter of the two characters is the start of the other
      have hcd : c = d := by
        rcases List.prefix_or_prefix_of_prefix (List.prefix_append _ z)
          (hbs ▸ List.prefix_append (utf8EncodeChar d) z') with hpre | hpre
        · exact encodeChar_inj_of_starts hpre
        · exact (encodeChar_inj_of_starts hpre).symm
      subst hcd
      obtain rfl := List.append_cancel_left hbs
      rw [ih hz']
    | broken hb _ => exact absurd (hbs ▸ List.prefix_append _ z) (hb.no_character c)
  | @broken x z ps hb hz ih =>
    generalize hbs : x ++ z = bs at h'
    cases h' with
    | nil => exact absurd (List.append_eq_nil_iff.1 hbs).1 hb.ne_nil
    | @character d z' qs _ =>
      exact absurd (hbs ▸ List.prefix_append _ z') (hb.no_character d)
    | @broken x' z' qs hb' hz' =>
      obtain ⟨rfl, rfl⟩ := hb.unique hb' hbs
      rw [ih hz']

/-- A part is broken when it is a start of a character or one byte, no character ends in it, and
with the next byte no character starts. -/
theorem Broken.of_next (hne : x ≠ []) (hinside : ∀ c, ¬ utf8EncodeChar c <+: x)
    (hstarts : (∃ c, x <+: utf8EncodeChar c) ∨ x.length = 1)
    (hnext : ∀ b ∈ z.head?, ∀ c, ¬ x ++ [b] <+: utf8EncodeChar c) : Broken x z := by
  -- a start of a character at this place does not reach over the part
  have hlongest (y : List UInt8) (c : Char) (hy : y <+: x ++ z) (hc : y <+: utf8EncodeChar c) :
      y.length ≤ x.length := by
    by_contra hlong
    cases z with
    | nil => exact hlong (List.append_nil x ▸ hy).length_le
    | cons b z =>
      have hxb : x ++ [b] <+: x ++ b :: z := ⟨z, List.append_cons x b z ▸ rfl⟩
      have hpre : x ++ [b] <+: y :=
        List.prefix_of_prefix_length_le hxb hy (by rw [List.length_append]; simp; omega)
      exact hnext b rfl c (hpre.trans hc)
  refine ⟨hne, fun c hc => hinside c ?_, hstarts, hlongest⟩
  exact List.prefix_of_prefix_length_le hc (List.prefix_append x z)
    (hlongest _ c hc (List.prefix_refl _))

/-- What is held is a broken part when the next byte does not continue it. -/
theorem Holds.broken (hx : Holds x h) (hne : x ≠ [])
    (hnext : ∀ b ∈ z.head?, ∀ c, ¬ x ++ [b] <+: utf8EncodeChar c) : Broken x z := by
  have hstarts : ∃ c, x <+: utf8EncodeChar c := by
    cases hx with
    | nothing => exact absurd rfl hne
    | part hx => exact hx.exists_starts
  refine Broken.of_next hne (fun c hc => ?_) (.inl hstarts) hnext
  obtain ⟨d, hd⟩ := hstarts
  obtain rfl := encodeChar_inj_of_starts (hc.trans hd)
  exact hx.encodeChar_ne c (hc.eq_of_length_le hd.length_le)

/-- A byte that starts no character is a broken part. -/
theorem broken_singleton (hnone : ∀ c, ¬ [b] <+: utf8EncodeChar c) : Broken [b] z := by
  refine Broken.of_next (List.cons_ne_nil _ _) (fun c hc => ?_) (.inr rfl) fun b' _ c hc => ?_
  · rcases List.prefix_cons_iff.1 hc with hnil | ⟨t, ht, -⟩
    · simp [encodeChar_eq] at hnil
    · exact hnone c ⟨t, ht.symm⟩
  · exact hnone c ((List.prefix_append [b] [b']).trans hc)

/-- **The decoder divides the bytes**: it shows each character as itself and each maximal broken
part as one `U+FFFD`. -/
theorem decodeFrom_divides (hx : Holds x h) (bs : List UInt8) :
    ∃ ps, Divides (x ++ bs) ps ∧ decodeFrom h bs = ps.map Part.shown := by
  induction bs generalizing x h with
  | nil =>
    cases hx with
    | nothing => exact ⟨[], .nil, rfl⟩
    | part hstands =>
      have hbroken := (Holds.part hstands).broken (z := []) hstands.ne_nil (by simp)
      exact ⟨[.broken x], .broken hbroken .nil, rfl⟩
  | cons b bs ih =>
    -- only a part that is given up leaves the byte to be looked at again
    have hstep {x : List UInt8} {h : Held} (hx : Holds x h) :
        (∃ ps, Divides (x ++ b :: bs) ps ∧ decodeFrom h (b :: bs) = ps.map Part.shown) ∨
          (x ≠ [] ∧ ∀ c, ¬ x ++ [b] <+: utf8EncodeChar c) := by
      rcases feed_cases hx b with ⟨c, hfeed, hc, -⟩ | ⟨hnone, hfeed⟩ | ⟨_, _, _, _, hfeed, hstands⟩
      · obtain ⟨ps, hdiv, hshown⟩ := ih .nothing
        refine .inl ⟨.character c :: ps, ?_, by rw [decodeFrom, hfeed, hshown]; rfl⟩
        rw [List.append_cons, ← hc]
        exact .character hdiv
      · by_cases hne : x = []
        · subst hne
          obtain ⟨ps, hdiv, hshown⟩ := ih .nothing
          refine .inl ⟨.broken [b] :: ps, .broken (broken_singleton hnone) hdiv, ?_⟩
          rw [decodeFrom, hfeed, if_pos rfl, hshown]
          rfl
        · exact .inr ⟨hne, hnone⟩
      · obtain ⟨ps, hdiv, hshown⟩ := ih (.part hstands)
        refine .inl ⟨ps, List.append_cons x b bs ▸ hdiv, ?_⟩
        rw [decodeFrom, hfeed, List.nil_append, hshown]
    rcases hstep hx with hdone | ⟨hne, hnone⟩
    · exact hdone
    · obtain ⟨ps, hdiv, hshown⟩ := (hstep .nothing).resolve_right fun hagain => hagain.1 rfl
      refine ⟨.broken x :: ps, .broken (hx.broken hne ?_) hdiv, ?_⟩
      · rintro _ ⟨⟩
        exact hnone
      · rw [decodeFrom_restart hx hne hnone, hshown]
        rfl

/-- A character that is cut short in front of another is one broken part, and so is each byte of
a surrogate. -/
example : decodeLossy [0xE2, 0x82, 0xC3, 0xA9, 0xED, 0xA0, 0x80] =
    ['\uFFFD', 'é', '\uFFFD', '\uFFFD', '\uFFFD'] := by
  decide

end Utf8
end Text
end Walkthrough
