/-
# Captured output

What a process printed is decoded with recovery and cut behind its last character that is
not blank.  Decoding keeps every character, whatever bytes stand around it
(`Text.Utf8.decodeLossy_encode_append`, `Text.Utf8.decodeLossy_append_encode`), and what is
cut are blanks only (`trimmed_iff`).
-/

import Mathlib.Data.List.DropRight
import Walkthrough.Proofs.Machine.Deadline
import Walkthrough.Proofs.Text.Lossy

namespace Walkthrough
namespace Text

variable {kept s : List Char}

/-! ## Blanks at the end -/

/-- A text without the blanks at its end. -/
structure Trimmed (kept s : List Char) : Prop where
  /-- What is cut are blanks at the end. -/
  cut : ∃ blanks, s = kept ++ blanks ∧ ∀ c ∈ blanks, isBlank c = true
  /-- What is kept does not end in a blank. -/
  ends : ∀ c ∈ kept.getLast?, isBlank c = false

theorem trimEnd_eq_rdropWhile (s : List Char) : trimEnd s = s.rdropWhile isBlank := rfl

/-- **Trimming cuts the blanks at the end** and nothing else. -/
theorem trimmed_iff : Trimmed kept s ↔ kept = trimEnd s := by
  rw [trimEnd_eq_rdropWhile]
  constructor
  · rintro ⟨⟨blanks, rfl, hblanks⟩, hends⟩
    -- the blanks are cut one by one from the end
    induction blanks using List.reverseRecOn with
    | nil =>
      rw [List.append_nil, eq_comm, List.rdropWhile_eq_self_iff]
      exact fun hne => by simp [hends _ (List.getLast?_eq_some_getLast hne)]
    | append_singleton blanks c ih =>
      rw [← List.append_assoc, List.rdropWhile_concat_pos _ _ _ (hblanks c (by simp))]
      exact ih fun d hd => hblanks d (by simp [hd])
  · rintro rfl
    refine ⟨⟨s.rtakeWhile isBlank, (List.rdropWhile_append_rtakeWhile ..).symm, ?_⟩, ?_⟩
    · exact fun c hc => List.mem_rtakeWhile_imp hc
    · intro c hc
      obtain ⟨hne, rfl⟩ := List.mem_getLast?_eq_getLast hc
      exact Bool.not_eq_true _ ▸ List.rdropWhile_last_not isBlank s hne

/-- Nothing is kept of blanks only. -/
theorem trimEnd_eq_nil_iff : trimEnd s = [] ↔ ∀ c ∈ s, isBlank c = true :=
  List.rdropWhile_eq_nil_iff

end Text

namespace Runner

open Text (Trimmed isBlank trimmed_iff trimEnd_eq_nil_iff)
open Text.Utf8 (Divides Part decodeLossy encode)

variable {k : Kernel} {mishaps : Mishaps} {s : Settings} {c : CommandLine} {m : Machine}
  {ending : Ending} {printed : List UInt8}

/-! ## What a result shows -/

/-- What a result shows of the output of its command. -/
def shown? : Except Fault Outcome → Option String
  | .ok o => some o.output
  | .error f => f.output

theorem shown?_replyFor (c : CommandLine) (limit : Nat) (printed : List UInt8)
    (v : Deadline.Verdict Status) :
    shown? (replyFor c limit printed v).result = some (outputOf printed) := by
  cases v with
  | exited status => cases status <;> rfl
  | killed clock => rfl
  | waiting => rfl

/-- A process that was started and waited for shows its output. -/
theorem shown?_executor (hending : endingOf? k mishaps s c m = some ending)
    (hprinted : printed? ending = some printed) (hsilent : (mishaps c m).Silent) :
    (executor k mishaps s c m).1.result = .error overflowFault ∨
      shown? (executor k mishaps s c m).1.result = some (outputOf printed) := by
  rw [executor_of_endingOf? hending]
  cases ending with
  | refused e => simp [printed?] at hprinted
  | ended time status p =>
    obtain rfl := Option.some.inj hprinted
    simp only [awaitEnding, hsilent.replyUnless]
    cases s.limit with
    | none => exact .inr (shown?_replyFor ..)
    | some limit =>
      dsimp only
      split
      · exact .inl rfl
      · exact .inr (shown?_replyFor ..)
  | stopped p =>
    obtain rfl := Option.some.inj hprinted
    simp only [awaitEnding, hsilent.replyUnless]
    split
    · exact .inl rfl
    · exact .inr (shown?_replyFor ..)

theorem outputOf_eq_empty_iff :
    outputOf printed = "" ↔ ∀ ch ∈ decodeLossy printed, isBlank ch = true := by
  rw [← trimEnd_eq_nil_iff, outputOf, ← String.toList_inj, String.toList_ofList]
  rfl

/-- **Captured output keeps every character.** -/
theorem captured_output_keeps_characters :
    (∀ (t : List Char) (bs : List UInt8), decodeLossy (encode t ++ bs) = t ++ decodeLossy bs) ∧
    (∀ (t : List Char) (bs : List UInt8), decodeLossy (bs ++ encode t) = decodeLossy bs ++ t) ∧
    (∀ t : List Char, decodeLossy (encode t) = t) ∧
    (∀ bs : List UInt8, ∃ parts, Divides bs parts ∧
      (∀ parts', Divides bs parts' → parts' = parts) ∧ decodeLossy bs = parts.map Part.shown) ∧
    ∀ (k : Kernel) (mishaps : Mishaps) (s : Settings) (c : CommandLine) (m : Machine)
      (ending : Ending) (printed : List UInt8), endingOf? k mishaps s c m = some ending →
      printed? ending = some printed → (mishaps c m).Silent →
      (executor k mishaps s c m).1.result = .error overflowFault ∨
      ∃ output, shown? (executor k mishaps s c m).1.result = some output ∧
        Trimmed output.toList (decodeLossy printed) ∧
        (output = "" ↔ ∀ ch ∈ decodeLossy printed, isBlank ch = true) := by
  refine ⟨Text.Utf8.decodeLossy_encode_append, fun t bs => Text.Utf8.decodeLossy_append_encode bs t,
    Text.Utf8.decodeLossy_encode, fun bs => ?_, ?_⟩
  · obtain ⟨parts, hdivides, hshown⟩ := Text.Utf8.decodeFrom_divides .nothing bs
    exact ⟨parts, hdivides, fun _ h => h.unique hdivides, hshown⟩
  · intro k mishaps s c m ending printed hending hprinted hsilent
    refine (shown?_executor hending hprinted hsilent).imp_right fun hshown => ⟨_, hshown, ?_, ?_⟩
    · exact trimmed_iff.2 String.toList_ofList
    · exact outputOf_eq_empty_iff

/-- Programs that print a letter, a byte that starts no character, and a line end. -/
def latin : Kernel := fun _ fs => (.ended 3 (.exited 0) [0x63, 0xE9, 0x0A], fs)

theorem captured_output_keeps_characters_latin :
    ∃ output, shown? (executor latin noMishaps { shell := "/bin/sh" } (.shell "cat menu")
        ⟨⟨[]⟩, [], "/bin", "/tmp", 0, fun _ => "a1B2c3", 0⟩).1.result = some output ∧
      Trimmed output.toList ['c', '\uFFFD', '\n'] := by
  obtain ⟨-, -, -, -, hcaptured⟩ := captured_output_keeps_characters
  rcases hcaptured latin noMishaps { shell := "/bin/sh" } (.shell "cat menu")
    ⟨⟨[]⟩, [], "/bin", "/tmp", 0, fun _ => "a1B2c3", 0⟩ _ _ rfl rfl ⟨rfl, rfl⟩ with
    hover | ⟨output, hshown, htrimmed, -⟩
  · exact nomatch hover
  · exact ⟨output, hshown, htrimmed⟩

end Runner
end Walkthrough
