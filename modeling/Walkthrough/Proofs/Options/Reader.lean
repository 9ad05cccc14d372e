/-
# Values are checked

Whatever the arguments are, a value that a run is given belongs to an option or a positional
argument of the program, and has passed its check (`read_checked`).  The reading keeps this of
the values it has accepted, and of the one it still holds that its kind is the one of its
option (`Sound`).

A natural number passes its check exactly if it is written in digits and has room in 64 bits
(`naturalFault?_eq_none_iff`).
-/

import Walkthrough.Options.Reader
import Walkthrough.Proofs.Json.Naturals

namespace Walkthrough
namespace Options

variable {p : Program} {g : Progress}

/-- The value of an option or a positional argument has passed its check; a flag has none. -/
def Checked (p : Program) (key value : String) : Prop :=
  (∃ o ∈ p.options, o.long = key ∧
    ∀ name kind, o.value = some (name, kind) → ∃ label, check label value kind = none) ∨
  ∃ a ∈ p.positionals, a.name = key ∧ ∃ label, check label value .path = none

/-- The kind of what is held is the one of its option, or that of a positional argument. -/
def Held.Fits (p : Program) (h : Held) : Prop :=
  (∃ o ∈ p.options, o.long = h.key ∧ ∃ name, o.value = some (name, h.kind)) ∨
  ∃ a ∈ p.positionals, a.name = h.key ∧ h.kind = .path

/-- Everything that is accepted has been checked, and what is held will be. -/
structure Sound (p : Program) (g : Progress) : Prop where
  accepted : ∀ e ∈ g.accepted, Checked p e.1 e.2
  held : ∀ h ∈ g.held, h.Fits p

/-- What is held is checked as its option wants it. -/
theorem Held.Fits.checked {h : Held} {value : String} (hfits : h.Fits p)
    (hcheck : check h.label value h.kind = none) : Checked p h.key value := by
  rcases hfits with ⟨o, ho, hkey, name, hvalue⟩ | ⟨a, ha, hkey, hkind⟩
  · refine .inl ⟨o, ho, hkey, fun name' kind hv => ?_⟩
    obtain ⟨-, rfl⟩ := Prod.mk.inj (Option.some.inj (hvalue.symm.trans hv))
    exact ⟨_, hcheck⟩
  · exact .inr ⟨a, ha, hkey, _, hkind ▸ hcheck⟩

theorem Sound.accept {key value : String} (hg : Sound p g) (hchecked : Checked p key value) :
    ∀ e ∈ g.accepted ++ [(key, value)], Checked p e.1 e.2 := by
  intro e he
  rcases List.mem_append.1 he with he | he
  · exact hg.accepted e he
  · obtain rfl := List.mem_singleton.1 he
    exact hchecked

theorem Sound.hold {held : Held} (hg : Sound p g) (hfits : held.Fits p) :
    Sound p { g with held := some held } := by
  refine ⟨hg.accepted, ?_⟩
  rintro _ ⟨⟩
  exact hfits

/-! ## What a step keeps -/

/-- A step keeps the reading sound or ends it, and no step ends it with a run. -/
def Kept (p : Program) : Except Stop Progress → Prop
  | .ok g => Sound p g
  | .error (.misuse _) => True
  | .error (.answer r) => ∀ values, r ≠ .run values

theorem kept_bind {x : Except Stop Progress} {f : Progress → Except Stop Progress}
    (hx : Kept p x) (hf : ∀ g, Sound p g → Kept p (f g)) : Kept p (x >>= f) := by
  cases x with
  | ok g => exact hf g hx
  | error e => exact hx

theorem kept_settle (hg : Sound p g) : Kept p (settle g) := by
  unfold settle
  split
  · exact hg
  · next held hheld =>
    split
    · trivial
    · next value _ =>
      split
      · trivial
      · split
        · trivial
        · next hcheck => exact ⟨hg.accept ((hg.held held hheld).checked hcheck), nofun⟩

theorem kept_takeFlag {o : Spec} (ho : o ∈ p.options) (hflag : o.value = none)
    (hg : Sound p g) : Kept p (takeFlag o g) := by
  refine kept_bind (kept_settle hg) fun g₁ hg₁ => ?_
  split
  · trivial
  · refine ⟨hg₁.accept (.inl ⟨o, ho, rfl, fun name kind hvalue => ?_⟩), hg₁.held⟩
    exact nomatch hflag.symm.trans hvalue

theorem kept_takeOption {o : Spec} {name : String} {kind : ValueKind}
    (ho : o ∈ p.options) (hvalue : o.value = some (name, kind))
    (attached : Option (List Char)) (hg : Sound p g) :
    Kept p (takeOption o name kind attached g) := by
  refine kept_bind (kept_settle hg) fun g₁ hg₁ => ?_
  dsimp only
  split
  · exact kept_settle (hg₁.hold (.inl ⟨o, ho, rfl, name, hvalue⟩))
  · exact hg₁.hold (.inl ⟨o, ho, rfl, name, hvalue⟩)

theorem kept_takeRequest {r : Request} (hr : ∀ values, r ≠ .run values) (flag : String)
    (attached : Option (List Char)) (hg : Sound p g) :
    Kept p (takeRequest flag r attached g) := by
  cases attached with
  | some v => trivial
  | none => exact kept_bind (kept_settle hg) fun _ _ => hr

theorem kept_takeLong (s : List Char) (hg : Sound p g) : Kept p (takeLong p s g) := by
  unfold takeLong
  dsimp only
  split
  · exact kept_takeRequest (r := .help) nofun _ _ hg
  · split
    · exact kept_takeRequest (r := .version) nofun _ _ hg
    · split
      · trivial
      · next o hfind =>
        have ho := List.mem_of_find?_eq_some hfind
        split
        · next hvalue => exact kept_takeOption ho hvalue _ hg
        · trivial
        · next hflag _ => exact kept_takeFlag ho hflag hg

theorem kept_takeShort (letter : Char) (hg : Sound p g) : Kept p (takeShort letter g) := by
  unfold takeShort
  split
  · exact kept_takeRequest (r := .help) nofun _ _ hg
  · split
    · exact kept_takeRequest (r := .version) nofun _ _ hg
    · trivial

theorem kept_takePositional (arg : String) (hg : Sound p g) :
    Kept p (takePositional p arg g) := by
  unfold takePositional
  split
  · trivial
  · next a hposition =>
    refine kept_bind (kept_settle hg) fun g₁ hg₁ => ?_
    exact ⟨hg₁.accepted, (hg₁.hold (.inr ⟨a, List.mem_of_getElem? hposition, rfl, rfl⟩)).held⟩

theorem kept_takePlain (arg : String) (hg : Sound p g) : Kept p (takePlain p arg g) := by
  unfold takePlain
  split
  · next held hheld =>
    split
    · exact hg.hold (hg.held held hheld)
    · exact kept_takePositional arg hg
  · exact kept_takePositional arg hg

/-- One argument. -/
theorem kept_takeArg (arg : String) (hg : Sound p g) : Kept p (takeArg p arg g) := by
  unfold takeArg
  split
  · exact kept_takePlain arg hg
  · split
    · exact ⟨hg.accepted, hg.held⟩
    · exact kept_takeLong _ hg
    · exact kept_takeShort _ hg
    · exact kept_takePlain arg hg

/-- All arguments. -/
theorem kept_takeArgs (args : List String) (hg : Sound p g) : Kept p (takeArgs p args g) := by
  induction args generalizing g with
  | nil => exact kept_settle hg
  | cons arg args ih => exact kept_bind (kept_takeArg arg hg) fun _ hg₁ => ih hg₁

/-- **The values of a run have passed their checks.** -/
theorem read_checked {args : List String} {values : List (String × String)}
    (h : read p args = .ok (.run values)) : ∀ e ∈ values, Checked p e.1 e.2 := by
  have hkept := kept_takeArgs args (⟨nofun, nofun⟩ : Sound p {})
  unfold read at h
  split at h
  · exact nomatch h
  · next r hstop =>
    rw [hstop] at hkept
    exact absurd (Except.ok.inj h) (hkept values)
  · next g hstop =>
    rw [hstop] at hkept
    split at h
    · obtain rfl := Request.run.inj (Except.ok.inj h)
      exact hkept.accepted
    · exact nomatch h

/-! ## Natural numbers as values -/

/-- Digits are refused for a character that is none, or for want of room. -/
theorem naturalFault?_eq_none_iff {value : Nat} {s : List Char} (hvalue : value < Nat.pow 2 64) :
    naturalFault? value s = none ↔
      (∀ c ∈ s, c.isDigit = true) ∧ Nat.ofDigitChars 10 s value < Nat.pow 2 64 := by
  induction s generalizing value with
  | nil => simpa [naturalFault?] using hvalue
  | cons c s ih =>
    rw [naturalFault?, Nat.ofDigitChars_cons, List.forall_mem_cons, Nat.mul_comm 10 value]
    generalize value * 10 + (c.toNat - '0'.toNat) = next
    by_cases hdigit : c.isDigit = true
    · by_cases hroom : next < Nat.pow 2 64
      · rw [if_neg (by simp [hdigit]), if_neg (Nat.not_le.2 hroom), ih hroom, and_iff_right hdigit]
      · -- the number only grows behind a digit without room
        have hgrows : ¬ Nat.ofDigitChars 10 s next < Nat.pow 2 64 :=
          fun h => hroom (Nat.lt_of_le_of_lt Json.le_ofDigitChars h)
        rw [if_neg (by simp [hdigit]), if_pos (Nat.not_lt.1 hroom)]
        exact iff_of_false nofun fun h => hgrows h.2
    · simp [hdigit]

theorem check_natural_iff {label value : String} :
    check label value .natural = none ↔
      value ≠ "" ∧ naturalFault? 0 (unsigned value.toList) = none := by
  by_cases hempty : value = "" <;> simp [check, hempty]

/-! ## The last argument -/

/-- Arguments are read one after the other, and then what is held is settled. -/
theorem takeArgs_eq (p : Program) (args : List String) (g : Progress) :
    takeArgs p args g = (args.foldlM (fun g arg => takeArg p arg g) g) >>= settle := by
  induction args generalizing g with
  | nil => rfl
  | cons arg args ih =>
    rw [takeArgs, List.foldlM_cons, bind_assoc]
    exact bind_congr fun g => ih g

/-- An argument that does not begin with a hyphen is no option. -/
theorem takeArg_of_no_hyphen {value : String} (hfirst : ∀ c ∈ value.toList.head?, c ≠ '-')
    (g : Progress) : takeArg p value g = takePlain p value g := by
  unfold takeArg
  split
  · rfl
  · split
    · next hvalue => exact absurd rfl (hfirst _ (hvalue ▸ rfl))
    · next hvalue => exact absurd rfl (hfirst _ (hvalue ▸ rfl))
    · next hvalue => exact absurd rfl (hfirst _ (hvalue ▸ rfl))
    · rfl

/-- The last argument is the value of the option in front of it. -/
theorem takeArgs_value {args : List String} {g' : Progress} {held : Held} {value : String}
    (hargs : args.foldlM (fun g arg => takeArg p arg g) g = .ok g')
    (hoptions : g'.optionsEnded = false) (hheld : g'.held = some held) (hwaits : held.value = none)
    (hfirst : ∀ c ∈ value.toList.head?, c ≠ '-')
    (hnew : g'.accepted.lookup held.key = none) (hcheck : check held.label value held.kind = none) :
    takeArgs p (args ++ [value]) g =
      .ok { g' with accepted := g'.accepted ++ [(held.key, value)], held := none } := by
  have hlast :
      takeArg p value g' = .ok { g' with held := some { held with value := some value } } := by
    rw [takeArg_of_no_hyphen hfirst, takePlain, hheld]
    simp [hwaits, hoptions]
  have hsettle : settle { g' with held := some { held with value := some value } } =
      .ok { g' with accepted := g'.accepted ++ [(held.key, value)], held := none } := by
    simp [settle, hnew, hcheck]
  rw [takeArgs_eq, List.foldlM_append, hargs]
  change (takeArg p value g' >>= pure) >>= settle = _
  rw [bind_pure, hlast]
  exact hsettle

/-- Nothing that is required gets lost. -/
theorem isComplete_append (h : isComplete p g = true) (e : String × String)
    (held : Option Held) :
    isComplete p { g with accepted := g.accepted ++ [e], held := held } = true := by
  have hkept (key : String) (hsome : (g.accepted.lookup key).isSome = true) :
      ((g.accepted ++ [e]).lookup key).isSome = true := by
    rw [List.lookup_append, Option.isSome_or, hsome, Bool.true_or]
  simp only [isComplete, Bool.and_eq_true, List.all_eq_true, Bool.or_eq_true] at h ⊢
  exact ⟨fun a ha => (h.1 a ha).imp_right (hkept a.name),
    fun o ho => (h.2 o ho).imp_right (hkept o.long)⟩

end Options
end Walkthrough
