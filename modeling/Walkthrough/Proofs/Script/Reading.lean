/-
# Reading scripts

The readers of scripts look at the shape of the text while they read it, those of steps at
the value behind it, and both read the same grammar: a text is read as a script exactly if it
writes a value of a shape that is read (`readText_eq_ok_iff`).

The members of the outer object fill two fields.  `Completes f ms s` says that the members
`ms` fill what is left of them, and the loop over the members reads exactly those
(`yields_readFields`): it is shown in one direction by induction on the turns of the loop,
in the other by induction on the members.
-/

import Mathlib.Data.List.Permutation
import Walkthrough.Proofs.Script.Shape

namespace Walkthrough
namespace Script

open Json

variable {α β : Type}

/-! ## Refusals -/

@[simp] theorem yields_lift {x : Except Failure (α × Cursor)} {a : α} {s : List Char} :
    Yields (lift x) a s ↔ Yields x a s := by
  cases x with
  | error f => simp [lift, Except.mapError]
  | ok r =>
    obtain ⟨b, c⟩ := r
    simp [lift, Except.mapError]

theorem not_yields_refuse {c : Cursor} {m : Mismatch} {a : α} {s : List Char} :
    ¬ Yields (refuse c m) a s :=
  yields_error.1

theorem not_yields_refuseValue {expected : String} {c : Cursor} {a : α} {s : List Char} :
    ¬ Yields (refuseValue expected c) a s := by
  intro h
  rw [refuseValue] at h
  split at h
  · exact yields_error.1 h
  split at h
  · exact not_yields_refuse h
  split at h
  · exact not_yields_refuse h
  split at h
  · exact not_yields_refuse h
  · exact yields_error.1 h

/-! ## Steps -/

/-- A text of a step, in a shape that is read. -/
def StepText (s : Step) (t : List Char) : Prop :=
  ∃ v, s.Shaped v ∧ Spells v t

theorem StepText.starts {s : Step} {t : List Char} (h : StepText s t) (s' : List Char) :
    Starts (t ++ s') := by
  obtain ⟨v, -, hspells⟩ := h
  exact hspells.starts s'

/-- A step is read exactly from its texts. -/
theorem yields_readStep {c : Cursor} {s : Step} {s' : List Char} :
    Yields (readStep c) s s' ↔ Spans (Led StepText) s c.rest s' := by
  have hvalue {v : Value} (hv : s.Shaped v) :
      Yields (lift (readValue stepDepth c)) v s' ↔ Spans (Led Spells) v c.rest s' := by
    rw [yields_lift]
    -- no step is as deep as its reader goes: two levels are enough for its value
    exact yields_readValue (hv.wordy 123)
  constructor
  · intro h
    obtain ⟨v, c₁, hread, h⟩ := yields_bind.1 h
    dsimp only at h
    split at h
    case h_1 s₁ hstep =>
      obtain ⟨rfl, rfl⟩ := yields_ok.1 h
      have hshaped := Step.ofValue?_eq_some.1 hstep
      obtain ⟨_, ⟨w, t, hw, ht, rfl⟩, hspan⟩ := (hvalue hshaped).1 ⟨c₁, hread, rfl⟩
      exact ⟨_, ⟨w, t, hw, ⟨v, hshaped, ht⟩, rfl⟩, hspan⟩
    case h_2 => exact (not_yields_refuse h).elim
  · rintro ⟨_, ⟨w, t, hw, ⟨v, hshaped, ht⟩, rfl⟩, hspan⟩
    obtain ⟨c₁, hc₁, hrest₁⟩ := (hvalue hshaped).2 ⟨_, ⟨w, t, hw, ht, rfl⟩, hspan⟩
    refine yields_bind.2 ⟨v, c₁, hc₁, ?_⟩
    dsimp only
    rw [Step.ofValue?_eq_some.2 hshaped]
    exact yields_ok.2 ⟨rfl, hrest₁⟩

/-- A list of things that are written through others. -/
theorem listed_comp_iff {mark : Char} {R : α → β → Prop} {E : β → List Char → Prop} {first : Bool}
    {as : List α} {t : List Char} :
    Listed mark (fun a t => ∃ b, R a b ∧ E b t) first as t ↔
      ∃ bs, List.Forall₂ R as bs ∧ Listed mark E first bs t := by
  constructor
  · intro h
    induction h with
    | nil hw => exact ⟨[], .nil, .nil hw⟩
    | cons hgap ha _ ih =>
      obtain ⟨b, hab, hb⟩ := ha
      obtain ⟨bs, hbs, hlist⟩ := ih
      exact ⟨b :: bs, .cons hab hbs, .cons hgap hb hlist⟩
  · rintro ⟨bs, hbs, h⟩
    induction h generalizing as with
    | nil hw =>
      cases hbs
      exact .nil hw
    | cons hgap hb _ ih =>
      cases hbs with
      | cons hab hbs => exact .cons hgap ⟨_, hab, hb⟩ (ih hbs)

/-- A text of the list of steps. -/
def StepsText (ss : List Step) (t : List Char) : Prop :=
  ∃ vs, List.Forall₂ Step.Shaped ss vs ∧ Spells (.array vs) t

theorem StepsText.starts {ss : List Step} {t : List Char} (h : StepsText ss t) (s : List Char) :
    Starts (t ++ s) := by
  obtain ⟨vs, -, hspells⟩ := h
  exact hspells.starts s

theorem spans_stepsText_iff {ss : List Step} {s s' : List Char} :
    Spans StepsText ss s s' ↔ ∃ u, s = '[' :: u ∧ Spans (Listed ']' StepText true) ss u s' := by
  constructor
  · rintro ⟨_, ⟨vs, hvs, h⟩, rfl⟩
    cases h with
    | @array _ t h => exact ⟨t ++ s', rfl, t, listed_comp_iff.2 ⟨vs, hvs, h⟩, rfl⟩
  · rintro ⟨_, rfl, t, h, rfl⟩
    obtain ⟨vs, hvs, h⟩ := listed_comp_iff.1 h
    exact ⟨'[' :: t, ⟨vs, hvs, .array h⟩, rfl⟩

/-- The list of steps is read exactly from its texts. -/
theorem yields_readStepList {c : Cursor} {ss : List Step} {s : List Char} :
    Yields (readStepList c) ss s ↔ Spans (Led StepsText) ss c.rest s := by
  rw [spans_led_iff fun _ => StepsText.starts, spans_stepsText_iff]
  simp only [readStepList]
  split
  case h_1 rest hrest =>
    have hsteps : Yields (readSteps (rest.length + 1) true ((skipSpace c).past '[' rest)) ss s ↔
        Spans (Listed ']' StepText true) ss rest s :=
      yields_items (P := fun _ => True) (fun _ _ _ => rfl) yields_lift
        (fun _ => yields_readStep.1) (fun _ _ => yields_readStep.2)
        (fun _ _ => StepText.starts) (Nat.lt_succ_self _) (fun _ _ => trivial)
    simp [hsteps, hrest]
  case h_2 hopen =>
    refine iff_of_false not_yields_refuseValue ?_
    rintro ⟨u, hrest, -⟩
    exact hopen u hrest

/-! ## The script -/

/-- A version is a natural number with room that ends where its digits do. -/
theorem yields_readVersion {c : Cursor} {n : Nat} {s : List Char} :
    Yields (readVersion c) n s ↔
      Spans (Led NaturalText) n c.rest s ∧ n ≤ maxSignificand ∧ Ends s := by
  rw [spans_led_iff fun _ h => Spells.starts (.natural h), ← yields_readNumber]
  simp only [readVersion]
  split
  case h_1 hrest =>
    refine iff_of_false not_yields_refuseValue ?_
    rw [yields_readNumber, hrest]
    rintro ⟨⟨t, ht, hspan⟩, -⟩
    exact ht.1 (List.append_eq_nil_iff.1 hspan.symm).1
  case h_2 x rest hrest =>
    split
    case isTrue =>
      rw [yields_bind]
      constructor
      · rintro ⟨m, c₁, hread, h⟩
        cases m with
        | natural m =>
          obtain ⟨rfl, rfl⟩ := yields_ok.1 h
          exact yields_lift.1 ⟨c₁, hread, rfl⟩
        | negative => exact (not_yields_refuse h).elim
        | real => exact (not_yields_refuse h).elim
      · intro h
        obtain ⟨c₁, hc₁, hrest₁⟩ := yields_lift.2 h
        exact ⟨_, c₁, hc₁, yields_ok.2 ⟨rfl, hrest₁⟩⟩
    case isFalse hdigit =>
      refine iff_of_false not_yields_refuseValue ?_
      rw [yields_readNumber, hrest]
      rintro ⟨⟨t, ht, hspan⟩, -⟩
      obtain ⟨-, -, hx, -⟩ := ht.exists_cons hspan
      exact hdigit (.inr ((isDigit_eq x).trans hx))

/-- The members fill the fields that are left, each of them once. -/
inductive Completes : Fields → List (String × Value) → Script → Prop
  | nil {s : Script} : Completes ⟨some s.version, some s.steps⟩ [] s
  | version {f : Fields} {n : Nat} {ms : List (String × Value)} {s : Script} :
    f.version = none → n ≤ maxSignificand → Completes ⟨some n, f.steps⟩ ms s →
    Completes f (("script_version", .number (.natural n)) :: ms) s
  | steps {f : Fields} {ss : List Step} {vs : List Value} {ms : List (String × Value)}
    {s : Script} :
    f.steps = none → List.Forall₂ Step.Shaped ss vs → Completes ⟨f.version, some ss⟩ ms s →
    Completes f (("steps", .array vs) :: ms) s

theorem yields_script {f : Fields} {c : Cursor} {s : Script} {s' : List Char} :
    Yields (f.script c) s s' ↔ f = ⟨some s.version, some s.steps⟩ ∧ c.rest = s' := by
  obtain ⟨version, steps⟩ := f
  obtain ⟨v, ss⟩ := s
  cases version with
  | none => simp [Fields.script, refuse]
  | some v' =>
    cases steps with
    | none => simp [Fields.script, refuse]
    | some ss' => simp [Fields.script]

theorem spans_led_natural_iff {n : Nat} {s s' : List Char} :
    Spans (Led Spells) (.number (.natural n)) s s' ↔ Spans (Led NaturalText) n s s' := by
  constructor
  · rintro ⟨_, ⟨w, t, hw, h, rfl⟩, hspan⟩
    cases h with
    | natural h => exact ⟨_, ⟨w, t, hw, h, rfl⟩, hspan⟩
  · rintro ⟨_, ⟨w, t, hw, h, rfl⟩, hspan⟩
    exact ⟨_, ⟨w, t, hw, .natural h, rfl⟩, hspan⟩

theorem spans_led_stepsText_iff {ss : List Step} {s s' : List Char} :
    Spans (Led StepsText) ss s s' ↔
      ∃ vs, List.Forall₂ Step.Shaped ss vs ∧ Spans (Led Spells) (.array vs) s s' := by
  constructor
  · rintro ⟨_, ⟨w, t, hw, ⟨vs, hvs, h⟩, rfl⟩, hspan⟩
    exact ⟨vs, hvs, _, ⟨w, t, hw, h, rfl⟩, hspan⟩
  · rintro ⟨vs, hvs, _, ⟨w, t, hw, h, rfl⟩, hspan⟩
    exact ⟨_, ⟨w, t, hw, ⟨vs, hvs, h⟩, rfl⟩, hspan⟩

/-- What the loop over the members reads completes the fields. -/
theorem completes_of_yields_readFields {turns : Nat} : ∀ {first f c s s'}, c.rest.length < turns →
    Yields (readFields turns first f c) s s' →
      ∃ ms, Completes f ms s ∧ Spans (Listed '\x7d' (MemberText Spells) first) ms c.rest s' := by
  induction turns with
  | zero => exact fun h => absurd h (Nat.not_lt_zero _)
  | succ turns ih =>
    intro first f c s s' hlen h
    obtain ⟨key, c₁, hkey, h⟩ := yields_bind.1 h
    cases key with
    | none =>
      have hkey := yields_lift.1 ⟨c₁, hkey, rfl⟩
      obtain ⟨rest, hrest, -⟩ := yields_nextKey_none.1 hkey
      obtain ⟨rfl, rfl⟩ := yields_script.1 h
      refine ⟨[], .nil, spans_members_nil.2 ?_⟩
      rwa [hrest] at hkey ⊢
    | some k =>
      have hkey := yields_lift.1 ⟨c₁, hkey, rfl⟩
      dsimp only at h
      split at h
      case isTrue hversion =>
        subst hversion
        split at h
        case isTrue => exact (not_yields_refuse h).elim
        case isFalse hnew =>
          obtain ⟨⟨⟩, c₂, hcolon, h⟩ := yields_bind.1 h
          obtain ⟨n, c₃, hn, h⟩ := yields_bind.1 h
          have hcolon := yields_readColon.1 (yields_lift.1 ⟨c₂, hcolon, rfl⟩)
          obtain ⟨htext, hroom, -⟩ := yields_readVersion.1 ⟨c₃, hn, rfl⟩
          obtain ⟨ms, hms, htail⟩ := ih (length_lt_of_member hlen hkey hcolon htext) h
          exact ⟨_ :: ms, .version (by simpa using hnew) hroom hms, spans_members_cons.2
            ⟨_, hkey, _, hcolon, _, spans_led_natural_iff.2 htext, htail⟩⟩
      split at h
      case isTrue hsteps =>
        subst hsteps
        split at h
        case isTrue => exact (not_yields_refuse h).elim
        case isFalse hnew =>
          obtain ⟨⟨⟩, c₂, hcolon, h⟩ := yields_bind.1 h
          obtain ⟨ss, c₃, hss, h⟩ := yields_bind.1 h
          have hcolon := yields_readColon.1 (yields_lift.1 ⟨c₂, hcolon, rfl⟩)
          obtain ⟨vs, hvs, htext⟩ :=
            spans_led_stepsText_iff.1 (yields_readStepList.1 ⟨c₃, hss, rfl⟩)
          obtain ⟨ms, hms, htail⟩ := ih (length_lt_of_member hlen hkey hcolon htext) h
          exact ⟨_ :: ms, .steps (by simpa using hnew) hvs hms,
            spans_members_cons.2 ⟨_, hkey, _, hcolon, _, htext, htail⟩⟩
      case isFalse => exact (not_yields_refuse h).elim

/-- Members that complete the fields are read. -/
theorem yields_readFields_of_completes {f : Fields} {ms : List (String × Value)} {s : Script}
    (h : Completes f ms s) : ∀ {turns first c s'}, c.rest.length < turns →
      Spans (Listed '\x7d' (MemberText Spells) first) ms c.rest s' →
      Yields (readFields turns first f c) s s' := by
  induction h with
  | nil =>
    intro turns first c s' hlen hspan
    obtain ⟨turns, rfl⟩ := Nat.exists_eq_add_one_of_ne_zero (Nat.ne_zero_of_lt hlen)
    obtain ⟨c₁, hc₁, hrest₁⟩ := yields_lift.2 (spans_members_nil.1 hspan)
    exact yields_bind.2 ⟨none, c₁, hc₁, yields_script.2 ⟨rfl, by rw [hrest₁]; rfl⟩⟩
  | @version f n ms s hnew hroom _ ih =>
    intro turns first c s' hlen hspan
    obtain ⟨turns, rfl⟩ := Nat.exists_eq_add_one_of_ne_zero (Nat.ne_zero_of_lt hlen)
    obtain ⟨u₁, hkey, u₂, hcolon, u, htext, htail⟩ := spans_members_cons.1 hspan
    have hshorter := length_lt_of_member hlen hkey hcolon htext
    obtain ⟨c₁, hc₁, rfl⟩ := yields_lift.2 hkey
    obtain ⟨c₂, hc₂, rfl⟩ := yields_lift.2 (yields_readColon.2 hcolon)
    obtain ⟨c₃, hc₃, rfl⟩ := yields_readVersion.2
      ⟨spans_led_natural_iff.1 htext, hroom, ends_of_listed (by decide) htail⟩
    refine yields_bind.2 ⟨_, c₁, hc₁, ?_⟩
    simp only [hnew, if_true, Option.isSome_none, Bool.false_eq_true, if_false]
    exact yields_bind.2 ⟨_, c₂, hc₂, yields_bind.2 ⟨n, c₃, hc₃, ih hshorter htail⟩⟩
  | @steps f ss vs ms s hnew hvs _ ih =>
    intro turns first c s' hlen hspan
    obtain ⟨turns, rfl⟩ := Nat.exists_eq_add_one_of_ne_zero (Nat.ne_zero_of_lt hlen)
    obtain ⟨u₁, hkey, u₂, hcolon, u, htext, htail⟩ := spans_members_cons.1 hspan
    have hshorter := length_lt_of_member hlen hkey hcolon htext
    obtain ⟨c₁, hc₁, rfl⟩ := yields_lift.2 hkey
    obtain ⟨c₂, hc₂, rfl⟩ := yields_lift.2 (yields_readColon.2 hcolon)
    obtain ⟨c₃, hc₃, rfl⟩ :=
      yields_readStepList.2 (spans_led_stepsText_iff.2 ⟨vs, hvs, htext⟩)
    refine yields_bind.2 ⟨_, c₁, hc₁, ?_⟩
    simp only [hnew, String.reduceEq, if_true, Option.isSome_none, Bool.false_eq_true, if_false]
    exact yields_bind.2 ⟨_, c₂, hc₂, yields_bind.2 ⟨ss, c₃, hc₃, ih hshorter htail⟩⟩

/-- The members that are read are those that complete the fields. -/
theorem yields_readFields {turns : Nat} {first : Bool} {f : Fields} {c : Cursor} {s : Script}
    {s' : List Char} (hlen : c.rest.length < turns) :
    Yields (readFields turns first f c) s s' ↔
      ∃ ms, Completes f ms s ∧ Spans (Listed '\x7d' (MemberText Spells) first) ms c.rest s' :=
  ⟨completes_of_yields_readFields hlen,
    fun ⟨_, h, hspan⟩ => yields_readFields_of_completes h hlen hspan⟩

/-- With both fields filled there is nothing left to read. -/
theorem completes_full_iff {v : Nat} {ss : List Step} {ms : List (String × Value)} {s : Script} :
    Completes ⟨some v, some ss⟩ ms s ↔ ms = [] ∧ s = ⟨v, ss⟩ := by
  constructor
  · intro h
    cases h with
    | nil => exact ⟨rfl, rfl⟩
    | version hnew => simp at hnew
    | steps hnew => simp at hnew
  · rintro ⟨rfl, rfl⟩
    exact .nil (s := ⟨v, ss⟩)

/-- **The members of a script are read in either order.** -/
theorem completes_iff {ms : List (String × Value)} {s : Script} :
    Completes {} ms s ↔ s.version ≤ maxSignificand ∧ ∃ vs, List.Forall₂ Step.Shaped s.steps vs ∧
      ms.Perm [("script_version", .number (.natural s.version)), ("steps", .array vs)] := by
  simp only [List.perm_pair]
  constructor
  · intro h
    cases h with
    | version _ hroom h =>
      cases h with
      | version hnew => simp at hnew
      | steps _ hvs h =>
        obtain ⟨rfl, rfl⟩ := completes_full_iff.1 h
        exact ⟨hroom, _, hvs, .inl rfl⟩
    | steps _ hvs h =>
      cases h with
      | steps hnew => simp at hnew
      | version _ hroom h =>
        obtain ⟨rfl, rfl⟩ := completes_full_iff.1 h
        exact ⟨hroom, _, hvs, .inr rfl⟩
  · rintro ⟨hroom, vs, hvs, rfl | rfl⟩
    · exact .version rfl hroom (.steps rfl hvs .nil)
    · exact .steps rfl hvs (.version rfl hroom .nil)

/-- A script between brackets ends at the closing one. -/
theorem yields_closeArray {c : Cursor} {a b : α} {s : List Char} :
    Yields (closeArray c >>= fun c => .ok (a, c)) b s ↔
      a = b ∧ ∃ w, Blank w ∧ c.rest = w ++ ']' :: s := by
  rw [← rest_skipSpace_cons_iff (by decide)]
  simp only [closeArray]
  split
  case h_1 hrest => simp [hrest, lift, Except.mapError, bind, Except.bind]
  case h_2 x rest hrest =>
    split
    case isTrue hx => simp [hrest, hx, Cursor.past, bind, Except.bind]
    case isFalse hx =>
      split
      · split <;> simp [hrest, hx, lift, Except.mapError, bind, Except.bind]
      · simp [hrest, hx, lift, Except.mapError, bind, Except.bind]

/-- Between its brackets a script is its version and its steps. -/
theorem yields_readArray {c : Cursor} {s : Script} {s' : List Char} :
    Yields (readArray c) s s' ↔ s.version ≤ maxSignificand ∧
      ∃ vs, List.Forall₂ Step.Shaped s.steps vs ∧
        Spans (Listed ']' Spells true) [.number (.natural s.version), .array vs] c.rest s' := by
  constructor
  · intro h
    obtain ⟨more, c₁, hmore, h⟩ := yields_bind.1 h
    cases more with
    | false => exact (not_yields_refuse h).elim
    | true =>
      obtain ⟨v, c₂, hv, h⟩ := yields_bind.1 h
      obtain ⟨more, c₃, hmore', h⟩ := yields_bind.1 h
      cases more with
      | false => exact (not_yields_refuse h).elim
      | true =>
        obtain ⟨ss, c₄, hss, h⟩ := yields_bind.1 h
        have hmore := yields_lift.1 ⟨c₁, hmore, rfl⟩
        obtain ⟨hversion, hroom, -⟩ := yields_readVersion.1 ⟨c₂, hv, rfl⟩
        have hmore' := yields_lift.1 ⟨c₃, hmore', rfl⟩
        obtain ⟨vs, hvs, hsteps⟩ :=
          spans_led_stepsText_iff.1 (yields_readStepList.1 ⟨c₄, hss, rfl⟩)
        obtain ⟨rfl, hclose⟩ := yields_closeArray.1 h
        have htail := (spans_items_cons fun _ => Spells.starts).2
          ⟨_, hmore', _, hsteps, spans_listed_nil.2 hclose⟩
        exact ⟨hroom, vs, hvs, (spans_items_cons fun _ => Spells.starts).2
          ⟨_, hmore, _, spans_led_natural_iff.2 hversion, htail⟩⟩
  · rintro ⟨hroom, vs, hvs, h⟩
    obtain ⟨u₁, hmore, u₂, hversion, h⟩ := (spans_items_cons fun _ => Spells.starts).1 h
    have hends : Ends u₂ := ends_of_listed (by decide) h
    obtain ⟨c₁, hc₁, rfl⟩ := yields_lift.2 hmore
    obtain ⟨c₂, hc₂, rfl⟩ := yields_readVersion.2
      ⟨spans_led_natural_iff.1 hversion, hroom, hends⟩
    obtain ⟨u₃, hmore', u₄, hsteps, h⟩ := (spans_items_cons fun _ => Spells.starts).1 h
    obtain ⟨c₃, hc₃, rfl⟩ := yields_lift.2 hmore'
    obtain ⟨c₄, hc₄, rfl⟩ := yields_readStepList.2 (spans_led_stepsText_iff.2 ⟨vs, hvs, hsteps⟩)
    have hclose := spans_listed_nil.1 h
    exact yields_bind.2 ⟨true, c₁, hc₁, yields_bind.2 ⟨_, c₂, hc₂, yields_bind.2 ⟨true, c₃, hc₃,
      yields_bind.2 ⟨_, c₄, hc₄, yields_closeArray.2 ⟨rfl, hclose⟩⟩⟩⟩⟩

/-- A script of either shape is read exactly from its texts. -/
theorem yields_readRecord {c : Cursor} {s : Script} {s' : List Char} :
    Yields (readRecord c) s s' ↔ s.version ≤ maxSignificand ∧
      ∃ v, s.Shaped v ∧ Spans (Led Spells) v c.rest s' := by
  simp only [spans_led_iff fun _ => Spells.starts, readRecord]
  split
  case h_1 rest hrest =>
    rw [yields_readArray, hrest]
    simp only [spans_bracket_iff]
    constructor
    · rintro ⟨hroom, vs, hvs, hspan⟩
      exact ⟨hroom, _, .array hvs, _, rfl, hspan⟩
    · rintro ⟨hroom, _, hshaped, vs, rfl, hspan⟩
      cases hshaped with
      | array hvs => exact ⟨hroom, _, hvs, hspan⟩
  case h_2 rest hrest =>
    have hfields :
        Yields (readFields (rest.length + 1) true {} ((skipSpace c).past '\x7b' rest)) s s' ↔
          ∃ ms, Completes {} ms s ∧ Spans (Listed '\x7d' (MemberText Spells) true) ms rest s' :=
      yields_readFields (Nat.lt_succ_self _)
    rw [hfields, hrest]
    simp only [spans_brace_iff, completes_iff]
    constructor
    · rintro ⟨ms, ⟨hroom, vs, hvs, hperm⟩, hspan⟩
      exact ⟨hroom, _, .object hvs hperm, _, rfl, hspan⟩
    · rintro ⟨hroom, _, hshaped, ms, rfl, hspan⟩
      cases hshaped with
      | object hvs hperm => exact ⟨ms, ⟨hroom, _, hvs, hperm⟩, hspan⟩
  case h_3 hbracket hbrace =>
    refine iff_of_false not_yields_refuseValue ?_
    rintro ⟨-, v, hshaped, t, hspells, hrest⟩
    cases hshaped with
    | object => 
      cases hspells
      exact hbrace _ hrest
    | array => 
      cases hspells
      exact hbracket _ hrest

/-- Nothing but white space may be left. -/
theorem lift_expectEnd_eq_ok {c : Cursor} : lift (expectEnd c) = .ok () ↔ Blank c.rest := by
  rw [← expectEnd_eq_ok_iff]
  cases expectEnd c <;> simp [lift, Except.mapError]

/-- **A text is read as a script exactly if it is JSON of a shape that is read.** -/
theorem readText_eq_ok_iff {text : List Char} {s : Script} :
    readText text = .ok s ↔ s.version ≤ maxSignificand ∧ ∃ v, s.Shaped v ∧ TextOf v text := by
  have hiff : readText text = .ok s ↔
      ∃ s', Yields (readRecord (Cursor.ofText text)) s s' ∧ Blank s' := by
    rw [readText]
    cases hread : readRecord (Cursor.ofText text) with
    | error r => simp [bind, Except.bind]
    | ok r =>
      obtain ⟨s₁, c⟩ := r
      cases hend : lift (expectEnd c) with
      | error r =>
        have hblank : ¬ Blank c.rest := by simp [← lift_expectEnd_eq_ok, hend]
        simp [bind, Except.bind, hend, hblank]
      | ok u =>
        have hblank : Blank c.rest := lift_expectEnd_eq_ok.1 hend
        simp [bind, Except.bind, hend, hblank]
  rw [hiff]
  simp only [yields_readRecord]
  constructor
  · rintro ⟨s', ⟨hroom, v, hshaped, t, ht, hspan⟩, hblank⟩
    exact ⟨hroom, v, hshaped, t, s', ht, hblank, hspan⟩
  · rintro ⟨hroom, v, hshaped, t, w, ht, hblank, hspan⟩
    exact ⟨w, ⟨hroom, v, hshaped, t, ht, hspan⟩, hblank⟩

end Script
end Walkthrough
