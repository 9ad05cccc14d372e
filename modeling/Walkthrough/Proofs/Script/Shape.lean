/-
# The shapes of a script

A script and its steps are documented as objects (`Documented`, `Step.Documented`).  The
reader knows a second shape of every record, the array of its parts (`Step.Positional`),
so what it reads are the two together (`Shaped`):

| record | documented | by position |
| --- | --- | --- |
| script | `script_version` and `steps` | version, steps |
| documentation step | `doc` | text |
| run step | `run`, perhaps `allow_fail`, `no_output` | run, perhaps one flag or two |

Of steps this is shown here (`Step.ofValue?_eq_some`).  The members of a run step fill the
fields of their keys in whatever order they stand (`RunFields.foldlM_add?_eq_some`): each
adds itself to the members held so far (`RunFields.members_add?`), and two of them may change
places (`RunFields.add?_swap`).
-/

import Mathlib.Data.List.Forall2
import Walkthrough.Proofs.Json.Values
import Walkthrough.Script.Reader

namespace Walkthrough
namespace Script

open Json (Value)

/-- The value that writes a command. -/
def RunSpec.value : RunSpec → Value
  | .line text => .string text
  | .argv args => .array (args.map .string)

/-! ## Commands and flags -/

theorem strings?_eq_some {vs : List Value} {args : List String} :
    strings? vs = some args ↔ vs = args.map .string := by
  induction vs generalizing args with
  | nil => cases args <;> simp [strings?]
  | cons v vs ih =>
    cases v with
    | string s =>
      simp only [strings?, Option.map_eq_some_iff, ih]
      constructor
      · rintro ⟨rest, rfl, rfl⟩
        rfl
      · intro h
        cases args with
        | nil => simp at h
        | cons a args =>
          obtain ⟨⟨⟩, rfl⟩ := List.cons.inj h
          exact ⟨args, rfl, rfl⟩
    | _ => cases args <;> simp [strings?]

theorem runSpec?_eq_some {v : Value} {spec : RunSpec} :
    runSpec? v = some spec ↔ v = spec.value := by
  cases v with
  | string s => cases spec <;> simp [runSpec?, RunSpec.value]
  | array vs => cases spec <;> simp [runSpec?, RunSpec.value, strings?_eq_some]
  | _ => cases spec <;> simp [runSpec?, RunSpec.value]

theorem runSpec?_value (spec : RunSpec) : runSpec? spec.value = some spec :=
  runSpec?_eq_some.2 rfl

theorem flag?_eq_some {v : Value} {b : Bool} : flag? v = some b ↔ v = .bool b := by
  cases v <;> simp [flag?]

/-! ## The members of a run step -/

namespace RunFields

variable {f f₁ f₂ g : RunFields} {m a b : String × Value} {ms ms' : List (String × Value)}

/-- What a member adds: it fills the field of its key, which was empty. -/
theorem add?_eq_some : f.add? m = some f₁ ↔
    (∃ s, m = ("run", RunSpec.value s) ∧ f.spec = none ∧ f₁ = { f with spec := some s }) ∨
    (∃ b, m = ("allow_fail", .bool b) ∧ f.allowFail = none ∧ f₁ = { f with allowFail := some b }) ∨
    ∃ b, m = ("no_output", .bool b) ∧ f.noOutput = none ∧ f₁ = { f with noOutput := some b } := by
  obtain ⟨k, v⟩ := m
  have hspec (g : RunSpec → RunFields) :
      (runSpec? v).map g = some f₁ ↔ ∃ s, v = s.value ∧ f₁ = g s := by
    simp [Option.map_eq_some_iff, runSpec?_eq_some, eq_comm (b := f₁)]
  have hflag (g : Bool → RunFields) :
      (flag? v).map g = some f₁ ↔ ∃ b, v = .bool b ∧ f₁ = g b := by
    simp only [Option.map_eq_some_iff, flag?_eq_some, eq_comm (b := f₁)]
  rw [add?]
  split
  case isTrue hk =>
    obtain rfl : k = "run" := hk
    cases f.spec <;> simp [hspec]
  split
  case isTrue hk =>
    obtain rfl : k = "allow_fail" := hk
    cases f.allowFail <;> simp [hflag]
  split
  case isTrue hk =>
    obtain rfl : k = "no_output" := hk
    cases f.noOutput <;> simp [hflag]
  case isFalse hrun hallow hno => simp_all

/-- Two members may change places. -/
theorem add?_swap (h₁ : f.add? a = some f₁) (h₂ : f₁.add? b = some f₂) :
    ∃ f', f.add? b = some f' ∧ f'.add? a = some f₂ := by
  rw [add?_eq_some] at h₁ h₂
  simp only [add?_eq_some]
  rcases h₁ with ⟨s, rfl, hf, rfl⟩ | ⟨x, rfl, hf, rfl⟩ | ⟨x, rfl, hf, rfl⟩ <;>
    rcases h₂ with ⟨s', rfl, hf', rfl⟩ | ⟨y, rfl, hf', rfl⟩ | ⟨y, rfl, hf', rfl⟩ <;>
      simp_all

/-- The members that fill the fields. -/
def members (f : RunFields) : List (String × Value) :=
  (f.spec.map fun s => ("run", s.value)).toList ++
    (f.allowFail.map fun b => ("allow_fail", Value.bool b)).toList ++
    (f.noOutput.map fun b => ("no_output", Value.bool b)).toList

/-- A member that is added is one more of the members. -/
theorem members_add? (h : f.add? m = some f₁) : f₁.members.Perm (m :: f.members) := by
  rcases add?_eq_some.1 h with ⟨s, rfl, hf, rfl⟩ | ⟨x, rfl, hf, rfl⟩ | ⟨x, rfl, hf, rfl⟩
  · simp [members, hf]
  · simp [members, hf]
  · simp only [members, hf, Option.map_none, Option.map_some, Option.toList_none,
      Option.toList_some, List.append_nil]
    exact List.perm_append_singleton _ _

theorem members_foldlM (h : ms.foldlM add? f = some g) : g.members.Perm (ms ++ f.members) := by
  induction ms generalizing f with
  | nil =>
    obtain rfl : f = g := by simpa using h
    exact .refl _
  | cons m ms ih =>
    rw [List.foldlM_cons] at h
    obtain ⟨f₁, hadd, hfold⟩ := Option.bind_eq_some_iff.1 h
    calc List.Perm g.members (ms ++ f₁.members) := ih hfold
      List.Perm _ (ms ++ m :: f.members) := (members_add? hadd).append_left ms
      List.Perm _ (m :: ms ++ f.members) := List.perm_middle

/-- The order of the members does not matter. -/
theorem foldlM_of_perm (hperm : ms.Perm ms') (h : ms.foldlM add? f = some g) :
    ms'.foldlM add? f = some g := by
  induction hperm generalizing f with
  | nil => exact h
  | cons m _ ih =>
    rw [List.foldlM_cons] at h ⊢
    obtain ⟨f₁, hadd, hfold⟩ := Option.bind_eq_some_iff.1 h
    exact Option.bind_eq_some_iff.2 ⟨f₁, hadd, ih hfold⟩
  | swap a b ms =>
    simp only [List.foldlM_cons] at h ⊢
    obtain ⟨f₁, hfirst, h⟩ := Option.bind_eq_some_iff.1 h
    obtain ⟨f₂, hsecond, hfold⟩ := Option.bind_eq_some_iff.1 h
    obtain ⟨f', hfirst', hsecond'⟩ := add?_swap hfirst hsecond
    exact Option.bind_eq_some_iff.2 ⟨f', hfirst', Option.bind_eq_some_iff.2 ⟨f₂, hsecond', hfold⟩⟩
  | trans _ _ ih ih' => exact ih' (ih h)

/-- **The members of a run step are read in whatever order they stand**: each field is
filled by the member of its key, and by no other. -/
theorem foldlM_add?_eq_some : ms.foldlM add? {} = some f ↔ ms.Perm f.members := by
  constructor
  · intro h
    have hperm := members_foldlM h
    rw [show members {} = [] from rfl, List.append_nil] at hperm
    exact hperm.symm
  · intro hperm
    refine foldlM_of_perm hperm.symm ?_
    obtain ⟨spec, allowFail, noOutput⟩ := f
    cases spec <;> cases allowFail <;> cases noOutput <;>
      simp [members, add?, flag?, runSpec?_value]

end RunFields

/-! ## Steps -/

/-- How a flag stands among the members: with its value, or not at all if it is false. -/
inductive FlagMember (key : String) : Bool → List (String × Value) → Prop
  | written {b : Bool} : FlagMember key b [(key, .bool b)]
  | omitted : FlagMember key false []

/-- **The value writes the step as it is documented.** -/
inductive Step.Documented : Step → Value → Prop
  | doc {text : String} : Documented (.doc text) (.object [("doc", .string text)])
  | run {r : Run} {a n ms : List (String × Value)} :
    FlagMember "allow_fail" r.allowFail a → FlagMember "no_output" r.noOutput n →
    ms.Perm (("run", r.spec.value) :: (a ++ n)) → Documented (.run r) (.object ms)

/-- The value writes the step by the positions of its parts.  A single text is prose. -/
inductive Step.Positional : Step → Value → Prop
  | doc {text : String} : Positional (.doc text) (.array [.string text])
  | bare {args : List String} :
    Positional (.run ⟨.argv args, false, false⟩) (.array [(RunSpec.argv args).value])
  | allowFail {spec : RunSpec} {a : Bool} :
    Positional (.run ⟨spec, a, false⟩) (.array [spec.value, .bool a])
  | noOutput {r : Run} :
    Positional (.run r) (.array [r.spec.value, .bool r.allowFail, .bool r.noOutput])

theorem docOf?_eq_some {v : Value} {text : String} :
    docOf? v = some text ↔ v = .object [("doc", .string text)] ∨ v = .array [.string text] := by
  constructor
  · intro h
    unfold docOf? at h
    split at h
    · exact .inl (by rw [Option.some.inj h])
    · exact .inr (by rw [Option.some.inj h])
    · exact (Option.some_ne_none _ h.symm).elim
  · rintro (rfl | rfl) <;> rfl

theorem RunFields.run?_eq_some {f : RunFields} {r : Run} :
    f.run? = some r ↔ f.spec = some r.spec ∧ f.allowFail.getD false = r.allowFail ∧
      f.noOutput.getD false = r.noOutput := by
  obtain ⟨spec, allowFail, noOutput⟩ := r
  cases hspec : f.spec <;> simp [run?, hspec]

theorem flagMember_iff {key : String} {b : Bool} {ms : List (String × Value)} :
    FlagMember key b ms ↔
      ∃ b? : Option Bool, b?.getD false = b ∧
        ms = (b?.map fun b => (key, Value.bool b)).toList := by
  constructor
  · intro h
    cases h with
    | written => exact ⟨some b, rfl, rfl⟩
    | omitted => exact ⟨none, rfl, rfl⟩
  · rintro ⟨_ | b, rfl, rfl⟩
    · exact .omitted
    · exact .written

/-- **An object is read as a run step exactly if it is one as documented.** -/
theorem runOf?_object_eq_some {ms : List (String × Value)} {r : Run} :
    runOf? (.object ms) = some r ↔ Step.Documented (.run r) (.object ms) := by
  have hiff : runOf? (.object ms) = some r ↔
      ∃ f : RunFields, ms.Perm f.members ∧ f.run? = some r := by
    simp [runOf?, Option.bind_eq_some_iff, RunFields.foldlM_add?_eq_some]
  rw [hiff]
  constructor
  · rintro ⟨f, hperm, hrun⟩
    obtain ⟨hspec, hallow, hno⟩ := RunFields.run?_eq_some.1 hrun
    rw [RunFields.members, hspec] at hperm
    exact .run (flagMember_iff.2 ⟨f.allowFail, hallow, rfl⟩)
      (flagMember_iff.2 ⟨f.noOutput, hno, rfl⟩) hperm
  · rintro (_ | ⟨ha, hn, hperm⟩)
    obtain ⟨a?, hallow, rfl⟩ := flagMember_iff.1 ha
    obtain ⟨n?, hno, rfl⟩ := flagMember_iff.1 hn
    exact ⟨⟨some r.spec, a?, n?⟩, hperm, RunFields.run?_eq_some.2 ⟨rfl, hallow, hno⟩⟩

/-- By its position a single text would be a command, too. -/
theorem runOf?_array_eq_some {vs : List Value} {r : Run} :
    runOf? (.array vs) = some r ↔ Step.Positional (.run r) (.array vs) ∨
      ∃ text, vs = [.string text] ∧ r = ⟨.line text, false, false⟩ := by
  constructor
  · intro h
    match vs, h with
    | [v], h =>
      obtain ⟨spec, hv, rfl⟩ := Option.map_eq_some_iff.1 h
      rw [runSpec?_eq_some.1 hv]
      cases spec with
      | line text => exact .inr ⟨text, rfl, rfl⟩
      | argv args => exact .inl .bare
    | [v, a], h =>
      obtain ⟨spec, hv, h⟩ := Option.bind_eq_some_iff.1 h
      obtain ⟨b, ha, h⟩ := Option.bind_eq_some_iff.1 h
      obtain rfl := Option.some.inj h
      rw [runSpec?_eq_some.1 hv, flag?_eq_some.1 ha]
      exact .inl .allowFail
    | [v, a, n], h =>
      obtain ⟨spec, hv, h⟩ := Option.bind_eq_some_iff.1 h
      obtain ⟨b, ha, h⟩ := Option.bind_eq_some_iff.1 h
      obtain ⟨b', hn, h⟩ := Option.bind_eq_some_iff.1 h
      obtain rfl := Option.some.inj h
      rw [runSpec?_eq_some.1 hv, flag?_eq_some.1 ha, flag?_eq_some.1 hn]
      exact .inl .noOutput
  · rintro (h | ⟨text, rfl, rfl⟩)
    · cases h with
      | bare => simp [runOf?, runSpec?_value]
      | allowFail => simp [runOf?, runSpec?_value, flag?]
      | noOutput => simp [runOf?, runSpec?_value, flag?]
    · rfl

/-- **A step is read from exactly the documented shapes and the positional ones.** -/
theorem Step.ofValue?_eq_some {v : Value} {s : Step} :
    Step.ofValue? v = some s ↔ s.Documented v ∨ s.Positional v := by
  rw [Step.ofValue?]
  cases hdoc : docOf? v with
  | some text =>
    rcases docOf?_eq_some.1 hdoc with rfl | rfl
    · constructor
      · rintro ⟨⟩
        exact .inl .doc
      · rintro (h | h)
        · cases h with
          | doc => rfl
          | run _ _ hperm =>
            have hrun := hperm.mem_iff.2 List.mem_cons_self
            simp at hrun
        · cases h
    · constructor
      · rintro ⟨⟩
        exact .inr .doc
      · rintro (h | h)
        · cases h
        · generalize hv : Value.array [.string text] = v at h
          cases h with
          | doc => simpa using hv
          | bare => simp [RunSpec.value] at hv
          | _ => simp at hv
  | none =>
    cases s with
    | doc text =>
      refine iff_of_false (by simp) ?_
      rintro (h | h) <;> cases h <;> simp [docOf?] at hdoc
    | run r =>
      simp only [Option.map_eq_some_iff, Step.run.injEq, exists_eq_right]
      cases v with
      | object ms => 
        rw [runOf?_object_eq_some, or_iff_left]
        rintro ⟨⟩
      | array vs => 
        rw [runOf?_array_eq_some]
        constructor
        · rintro (h | ⟨text, rfl, rfl⟩)
          · exact .inr h
          · simp [docOf?] at hdoc
        · rintro (h | h)
          · cases h
          · exact .inl h
      | _ =>
        refine iff_of_false (by simp [runOf?]) ?_
        rintro (h | h) <;> cases h

/-! ## Scripts -/

/-- The value writes the step in a shape that is read. -/
def Step.Shaped (s : Step) (v : Value) : Prop :=
  s.Documented v ∨ s.Positional v

/-- **The value writes the script as it is documented**: an object of the version and the
steps, every step as it is documented. -/
inductive Documented : Script → Value → Prop
  | intro {s : Script} {vs : List Value} {ms : List (String × Value)} :
    List.Forall₂ Step.Documented s.steps vs →
    ms.Perm [("script_version", .number (.natural s.version)), ("steps", .array vs)] →
    Documented s (.object ms)

/-- The value writes the script in a shape that is read: every record in it is an object or
an array of its parts. -/
inductive Shaped : Script → Value → Prop
  | object {s : Script} {vs : List Value} {ms : List (String × Value)} :
    List.Forall₂ Step.Shaped s.steps vs →
    ms.Perm [("script_version", .number (.natural s.version)), ("steps", .array vs)] →
    Shaped s (.object ms)
  | array {s : Script} {vs : List Value} : List.Forall₂ Step.Shaped s.steps vs →
    Shaped s (.array [.number (.natural s.version), .array vs])

theorem Documented.shaped {s : Script} {v : Value} (h : Documented s v) : Shaped s v := by
  cases h with
  | intro hsteps hperm => exact .object (hsteps.imp fun _ _ => .inl) hperm

/-! ## What stands in a step -/

theorem wordy_string (text : String) (depth : Nat) : (Value.string text).Wordy depth := by
  cases depth <;> exact trivial

theorem wordy_bool (b : Bool) (depth : Nat) : (Value.bool b).Wordy depth := by
  cases depth <;> exact trivial

theorem RunSpec.wordy_value (spec : RunSpec) (depth : Nat) : spec.value.Wordy (depth + 1) := by
  cases spec with
  | line text => exact wordy_string text _
  | argv args =>
    intro v hv
    obtain ⟨text, -, rfl⟩ := List.mem_map.1 hv
    exact wordy_string text depth

theorem FlagMember.wordy {key : String} {b : Bool} {ms : List (String × Value)}
    (h : FlagMember key b ms) (depth : Nat) : ∀ m ∈ ms, m.2.Wordy depth := by
  cases h with
  | written => exact List.forall_mem_singleton.2 (wordy_bool b depth)
  | omitted => exact List.forall_mem_nil _

/-- A step holds no number, and nests no deeper than an object with an array in it. -/
theorem Step.Shaped.wordy {s : Step} {v : Value} (h : s.Shaped v) (depth : Nat) :
    v.Wordy (depth + 2) := by
  rcases h with h | h
  · cases h with
    | doc => exact List.forall_mem_singleton.2 (wordy_string _ _)
    | @run r a n ms ha hn hperm =>
      intro m hm
      rcases List.mem_cons.1 (hperm.mem_iff.1 hm) with rfl | hm
      · exact r.spec.wordy_value depth
      · rcases List.mem_append.1 hm with hm | hm
        · exact ha.wordy _ m hm
        · exact hn.wordy _ m hm
  · cases h with
    | doc => exact List.forall_mem_singleton.2 (wordy_string _ _)
    | bare => exact List.forall_mem_singleton.2 (RunSpec.wordy_value _ depth)
    | allowFail =>
      exact List.forall_mem_cons.2 ⟨RunSpec.wordy_value _ depth,
        List.forall_mem_singleton.2 (wordy_bool _ _)⟩
    | noOutput =>
      exact List.forall_mem_cons.2 ⟨RunSpec.wordy_value _ depth,
        List.forall_mem_cons.2 ⟨wordy_bool _ _, List.forall_mem_singleton.2 (wordy_bool _ _)⟩⟩

end Script
end Walkthrough
