/-
# The compact text is a text of its value

`Value.write` prints one of the many texts that the grammar has for a value: every
character of a string by the escape of its own or by itself (`spelling_escapeChar`), every
list with bare commas (`listed_of_written`), no white space anywhere (`spells_write`).  So
the value is read back from it (`parse_compact`).

Control characters are escaped in strings, and nothing else holds one, so the text is one
line (`noControl_write`).
-/

import Walkthrough.Proofs.Json.Values

namespace Walkthrough
namespace Json

/-! ## Strings -/

theorem mem_hexDigits_hexDigit {n : Nat} (h : n < 16) : (hexDigit n, n) ∈ hexDigits := by
  have hall : ∀ n < 16, (hexDigit n, n) ∈ hexDigits := by decide
  exact hall n h

/-- The escape of a character is a way to write it. -/
theorem spelling_escapeChar (c : Char) : Spelling c (escapeChar c) := by
  unfold escapeChar
  split
  case isTrue h => exact .letter (by subst h; decide)
  split
  case isTrue h => exact .letter (by subst h; decide)
  split
  case isTrue h => exact .letter (by subst h; decide)
  split
  case isTrue h => exact .letter (by subst h; decide)
  split
  case isTrue h => exact .letter (by subst h; decide)
  split
  case isTrue h => exact .letter (by subst h; decide)
  split
  case isTrue h => exact .letter (by subst h; decide)
  split
  case isTrue h =>
    -- a control character: two zeros and the two digits of its number
    refine .unit (.intro 0 0 (c.toNat / 16) (c.toNat % 16) (by decide) (by decide) ?_ ?_ ?_)
    · exact mem_hexDigits_hexDigit (by omega)
    · exact mem_hexDigits_hexDigit (by omega)
    · omega
  case isFalse hquote hslash _ _ _ _ _ hcontrol =>
    exact .raw hquote hslash (Nat.le_of_not_lt hcontrol)

theorem stringText_writeString (s : String) : StringText s (writeString s) := by
  refine ⟨s.toList.flatMap escapeChar ++ ['\x22'], ?_, rfl⟩
  induction s.toList with
  | nil => exact .nil
  | cons c cs ih =>
    rw [List.flatMap_cons, List.append_assoc]
    exact .cons (spelling_escapeChar c) ih

/-! ## Numbers -/

/-- The first digit of a number is no zero. -/
theorem head_toDigits_ne_zero {n : Nat} (h : 0 < n) : (Nat.toDigits 10 n).head? ≠ some '0' := by
  induction n using Nat.strongRecOn with
  | ind n ih =>
    by_cases hsmall : n < 10
    · have hall : ∀ n < 10, 0 < n → (Nat.toDigits 10 n).head? ≠ some '0' := by decide
      exact hall n hsmall h
    · have hsplit := Nat.toDigits_append_toDigits (b := 10) (n := n / 10) (d := n % 10)
        (by omega) (by omega) (by omega)
      rw [Nat.div_add_mod] at hsplit
      rw [← hsplit, List.head?_append, Option.or_of_isSome (by simp [Nat.toDigits_ne_nil])]
      exact ih (n / 10) (by omega) (by omega)

theorem naturalText_decimalDigits (n : Nat) : NaturalText n (decimalDigits n) := by
  refine ⟨Nat.toDigits_ne_nil, fun x hx => ?_, fun hzero => ?_, Nat.ofDigitChars_ten_toDigits⟩
  · exact Nat.isDigit_of_mem_toDigits (by decide) (by decide) hx
  · cases n with
    | zero => rfl
    | succ n => exact absurd hzero (head_toDigits_ne_zero (Nat.succ_pos n))

/-! ## Values -/

theorem blank_nil : Blank [] :=
  List.forall_mem_nil _

/-- Elements that are written with bare commas between them are a list. -/
theorem listed_of_written {α : Type} {mark : Char} {E : α → List Char → Prop} {w : α → List Char}
    {W : List α → List Char} (hone : ∀ a, W [a] = w a ++ [mark])
    (hmore : ∀ a b as, W (a :: b :: as) = w a ++ ',' :: W (b :: as)) {as : List α} :
    ∀ {first g a}, Gap first g → (∀ b ∈ a :: as, E b (w b)) →
      Listed mark E first (a :: as) (g ++ W (a :: as)) := by
  induction as with
  | nil =>
    intro first g a hgap hall
    rw [hone, ← List.append_assoc]
    exact .cons hgap (hall a List.mem_cons_self) (.nil blank_nil)
  | cons b as ih =>
    intro first g a hgap hall
    obtain ⟨ha, hrest⟩ := List.forall_mem_cons.1 hall
    rw [hmore, ← List.append_assoc]
    exact .cons hgap ha (ih (.next blank_nil blank_nil) hrest)

theorem spells_writeItems {vs : List Value} (h : ∀ v ∈ vs, Spells v v.write) :
    Spells (.array vs) (Value.array vs).write := by
  refine .array ?_
  cases vs with
  | nil => exact .nil blank_nil
  | cons v vs =>
    exact listed_of_written (fun _ => by simp [writeItems]) (fun _ _ _ => by simp [writeItems])
      (.first blank_nil) h

theorem spells_writeMembers {ms : List (String × Value)} (h : ∀ m ∈ ms, Spells m.2 m.2.write) :
    Spells (.object ms) (Value.object ms).write := by
  refine .object ?_
  cases ms with
  | nil => exact .nil blank_nil
  | cons m ms =>
    refine listed_of_written (w := fun m => writeString m.1 ++ ':' :: m.2.write)
      (fun _ => by simp [writeMembers]) (fun _ _ _ => by simp [writeMembers])
      (.first blank_nil) fun m hm => ?_
    have hmember := MemberText.intro (stringText_writeString m.1) blank_nil blank_nil (h m hm)
    simpa using hmember

/-- **The compact text of a value writes the value.** -/
theorem spells_write {depth : Nat} {v : Value} (h : v.Readable depth) : Spells v v.write := by
  fun_induction Value.Readable depth v with
  | case1 => exact .null
  | case2 _ b => cases b <;> constructor
  | case3 _ s => exact .string (stringText_writeString s)
  | case4 _ n => exact .natural (naturalText_decimalDigits n)
  | case5 => exact h.elim
  | case6 => exact h.elim
  | case7 => exact h.elim
  | case8 depth vs ih => exact spells_writeItems fun v hmem => ih v (h v hmem)
  | case9 depth ms ih => exact spells_writeMembers fun m hmem => ih m (h m hmem)

theorem textOf_compact {depth : Nat} {v : Value} (h : v.Readable depth) :
    TextOf v v.compact.toList := by
  refine ⟨v.write, [], ⟨[], v.write, blank_nil, spells_write h, rfl⟩, blank_nil, ?_⟩
  rw [Value.compact, String.toList_ofList, List.append_nil]

/-- **A value is read back from its compact text.** -/
theorem parse_compact {v : Value} (h : v.Readable maxDepth) : parse v.compact.toList = .ok v :=
  (parse_iff_textOf h).2 (textOf_compact h)

/-! ## Control characters -/

/-- No character of the text is a control character below `U+0020`. -/
def NoControl (t : List Char) : Prop :=
  ∀ x ∈ t, 0x20 ≤ x.toNat

instance (t : List Char) : Decidable (NoControl t) :=
  List.decidableBAll (fun x : Char => 0x20 ≤ x.toNat) t

@[simp] theorem noControl_append {t u : List Char} :
    NoControl (t ++ u) ↔ NoControl t ∧ NoControl u :=
  List.forall_mem_append

@[simp] theorem noControl_cons {x : Char} {t : List Char} :
    NoControl (x :: t) ↔ 0x20 ≤ x.toNat ∧ NoControl t :=
  List.forall_mem_cons

theorem le_toNat_hexDigit {n : Nat} (h : n < 16) : 0x20 ≤ (hexDigit n).toNat := by
  have hall : ∀ n < 16, 0x20 ≤ (hexDigit n).toNat := by decide
  exact hall n h

/-- What is below `U+0020` is escaped. -/
theorem noControl_escapeChar (c : Char) : NoControl (escapeChar c) := by
  unfold escapeChar
  split
  · decide
  split
  · decide
  split
  · decide
  split
  · decide
  split
  · decide
  split
  · decide
  split
  · decide
  split
  case isTrue hcontrol =>
    have hfront : NoControl ['\\', 'u', '0', '0'] := by decide
    have hdigits : NoControl [hexDigit (c.toNat / 16), hexDigit (c.toNat % 16)] := by
      have hhigh := le_toNat_hexDigit (n := c.toNat / 16) (by omega)
      have hlow := le_toNat_hexDigit (n := c.toNat % 16) (by omega)
      simp [hhigh, hlow, NoControl]
    exact noControl_append.2 ⟨hfront, hdigits⟩
  case isFalse hcontrol =>
    exact List.forall_mem_singleton.2 (Nat.le_of_not_lt hcontrol)

theorem noControl_writeString (s : String) : NoControl (writeString s) := by
  have hquote : NoControl ['\x22'] := by decide
  refine noControl_append.2 ⟨noControl_cons.2 ⟨by decide, fun x hx => ?_⟩, hquote⟩
  obtain ⟨c, -, hx⟩ := List.mem_flatMap.1 hx
  exact noControl_escapeChar c x hx

theorem noControl_decimalDigits (n : Nat) : NoControl (decimalDigits n) := by
  intro x hx
  have hdigit : x.isDigit = true := Nat.isDigit_of_mem_toDigits (by decide) (by decide) hx
  simp only [Char.isDigit, Bool.and_eq_true, decide_eq_true_eq] at hdigit
  have hlow : '0'.toNat ≤ x.toNat := UInt32.le_iff_toNat_le.1 hdigit.1
  exact Nat.le_trans (by decide) hlow

/-- Elements without control characters stay so with commas between them. -/
theorem noControl_of_written {α : Type} {mark : Char} {w : α → List Char}
    {W : List α → List Char} (hmark : 0x20 ≤ mark.toNat) (hone : ∀ a, W [a] = w a ++ [mark])
    (hmore : ∀ a b as, W (a :: b :: as) = w a ++ ',' :: W (b :: as)) {as : List α} :
    ∀ {a}, (∀ b ∈ a :: as, NoControl (w b)) → NoControl (W (a :: as)) := by
  induction as with
  | nil =>
    intro a hall
    rw [hone]
    exact noControl_append.2 ⟨hall a List.mem_cons_self, List.forall_mem_singleton.2 hmark⟩
  | cons b as ih =>
    intro a hall
    obtain ⟨ha, hrest⟩ := List.forall_mem_cons.1 hall
    rw [hmore]
    exact noControl_append.2 ⟨ha, noControl_cons.2 ⟨by decide, ih hrest⟩⟩

theorem noControl_writeItems {vs : List Value} (h : ∀ v ∈ vs, NoControl v.write) :
    NoControl (writeItems vs) := by
  cases vs with
  | nil => decide
  | cons v vs =>
    have hmark : 0x20 ≤ ']'.toNat := by decide
    exact noControl_of_written hmark (fun _ => by simp [writeItems])
      (fun _ _ _ => by simp [writeItems]) h

theorem noControl_writeMembers {ms : List (String × Value)} (h : ∀ m ∈ ms, NoControl m.2.write) :
    NoControl (writeMembers ms) := by
  cases ms with
  | nil => decide
  | cons m ms =>
    have hmark : 0x20 ≤ '\x7d'.toNat := by decide
    refine noControl_of_written (w := fun m => writeString m.1 ++ ':' :: m.2.write) hmark
      (fun _ => by simp [writeMembers]) (fun _ _ _ => by simp [writeMembers]) fun m hm => ?_
    exact noControl_append.2 ⟨noControl_writeString m.1, noControl_cons.2 ⟨by decide, h m hm⟩⟩

/-- **The compact text has no control characters**, so it is one line. -/
theorem noControl_write {depth : Nat} {v : Value} (h : v.Readable depth) : NoControl v.write := by
  fun_induction Value.Readable depth v with
  | case1 => decide
  | case2 _ b => cases b <;> decide
  | case3 _ s => exact noControl_writeString s
  | case4 _ n => exact noControl_decimalDigits n
  | case5 => exact h.elim
  | case6 => exact h.elim
  | case7 => exact h.elim
  | case8 depth vs ih =>
    exact noControl_cons.2 ⟨by decide, noControl_writeItems fun v hmem => ih v (h v hmem)⟩
  | case9 depth ms ih =>
    exact noControl_cons.2 ⟨by decide, noControl_writeMembers fun m hmem => ih m (h m hmem)⟩

end Json
end Walkthrough
