/-
# Waiting until a deadline

Waiting ends at the first look that finds the command exited or the clock at the deadline,
and exit is looked at first (`await_eq_iff`).  So a command that is seen exited at the look
that reaches the deadline ends with its status, and only one that is still running there is
killed.

The executor waits this way for every process it has launched (`answers_awaitEnding`), as long
as waiting and reading do not fail themselves.  What it needs is a clock that can hold the
deadline, and that fails for a limit of `n` seconds exactly when the seconds of the sum have no
room in 63 bits (`keepsLimit_iff`).  The deadline is computed before anything is waited for, so
then the program overflows whatever else would fail (`executor_of_no_room`).
-/

import Mathlib.Data.Nat.Basic
import Walkthrough.Machine.Runner

namespace Walkthrough
namespace Deadline

variable {α : Type} {look : Nat → Look α} {deadline turns : Nat}

/-! ## The deadline -/

/-- The clock holds the deadline, or has no room for its seconds. -/
theorem after?_seconds (start n : Nat) :
    after? start (n * 1000) =
      if start / 1000 + n < clockEnd then some (start + n * 1000) else none := by
  rw [after?, Nat.add_mul_div_right _ _ (by decide)]

/-! ## Looks -/

/-- The command is running and the deadline is not reached. -/
def Look.Waits (l : Look α) (deadline : Nat) : Prop :=
  l.exited = none ∧ l.clock < deadline

/-- Waiting through looks ends at the first that finds the command exited, with its status, or
the deadline reached and the command still running, and then it is killed. -/
def Ends (look : Nat → Look α) (deadline turns : Nat) : Verdict α → Prop
  | .exited status =>
    ∃ i < turns, (∀ j < i, (look j).Waits deadline) ∧ (look i).exited = some status
  | .killed clock =>
    ∃ i < turns, (∀ j < i, (look j).Waits deadline) ∧
      (look i).exited = none ∧ deadline ≤ (look i).clock ∧ (look i).clock = clock
  | .waiting => ∀ i < turns, (look i).Waits deadline

/-- To wait from the next look on is to wait through the looks behind the first. -/
theorem await_succ (look : Nat → Look α) (deadline turns number : Nat) :
    await look deadline turns (number + 1) =
      await (fun i => look (i + 1)) deadline turns number := by
  induction turns generalizing number with
  | zero => rfl
  | succ turns ih => simp only [await, ih]

/-- The first look decides, or waiting goes on behind it. -/
theorem ends_succ {v : Verdict α} : Ends look deadline (turns + 1) v ↔
    (∃ status, (look 0).exited = some status ∧ v = .exited status) ∨
      ((look 0).exited = none ∧ deadline ≤ (look 0).clock ∧ v = .killed (look 0).clock) ∨
      ((look 0).Waits deadline ∧ Ends (fun i => look (i + 1)) deadline turns v) := by
  -- the looks in front of a later one are the first and those behind it
  cases v <;> simp only [Ends, Nat.exists_lt_succ_left, Nat.forall_lt_succ_left] <;> grind

/-- **How waiting ends.** -/
theorem await_eq_iff {v : Verdict α} :
    await look deadline turns 0 = v ↔ Ends look deadline turns v := by
  induction turns generalizing look with
  | zero => cases v <;> simp [await, Ends]
  | succ turns ih =>
    rw [await, await_succ, ends_succ, Look.Waits]
    cases hexited : (look 0).exited with
    | some status => simp [eq_comm]
    | none =>
      by_cases hclock : deadline ≤ (look 0).clock
      · simp [hclock, Nat.not_lt.2 hclock, eq_comm]
      · simp [hclock, ih, Nat.lt_of_not_le]

/-! ## Looks at regular times -/

variable {start limit time : Nat} {status : α}

/-- The looks that are taken reach the limit. -/
theorem await_looksAt_ne_waiting (start limit : Nat) (exit? : Option (Nat × α)) :
    await (looksAt start exit?) (start + limit) (turnsFor limit) 0 ≠ .waiting := by
  intro hwaiting
  have hlast := (await_eq_iff.1 hwaiting (limit / interval + 1) (Nat.lt_succ_self _)).2
  simp only [looksAt, interval] at hlast
  omega

/-- A command that never exits is killed. -/
theorem await_looksAt_none (start limit : Nat) :
    ∃ clock, await (looksAt (α := α) start none) (start + limit) (turnsFor limit) 0 =
      .killed clock := by
  cases hv : await (looksAt (α := α) start none) (start + limit) (turnsFor limit) 0 with
  | exited status =>
    obtain ⟨_, _, -, hexited⟩ := await_eq_iff.1 hv
    exact absurd hexited (by simp [looksAt])
  | killed clock => exact ⟨clock, rfl⟩
  | waiting => exact absurd hv (await_looksAt_ne_waiting start limit none)

theorem looksAt_waits {i : Nat} :
    (looksAt start (some (time, status)) i).Waits (start + limit) ↔
      i * interval < time ∧ i * interval < limit := by
  simp [looksAt, Look.Waits]

theorem looksAt_exited {i : Nat} :
    (looksAt start (some (time, status)) i).exited = some status ↔ time ≤ i * interval := by
  simp [looksAt]

/-- **A command is seen exited** if it exits at the last look at the latest. -/
theorem await_looksAt_eq_exited_iff :
    await (looksAt start (some (time, status))) (start + limit) (turnsFor limit) 0 =
      .exited status ↔ time ≤ lastLook limit := by
  simp only [await_eq_iff, Ends, looksAt_waits, looksAt_exited, turnsFor, lastLook, interval]
  constructor
  · rintro ⟨i, -, hwaits, hexited⟩
    -- the look before this one has not reached the limit
    cases i with
    | zero => omega
    | succ i =>
      have hbefore := hwaits i (Nat.lt_succ_self i)
      omega
  · intro htime
    refine ⟨(time + 9) / 10, ?_, fun j hj => ?_, ?_⟩ <;> omega

end Deadline

namespace Runner

open Deadline (after? await clockEnd lastLook looksAt turnsFor Verdict)

variable {k : Kernel} {mishaps : Mishaps} {faults : Faults} {s : Settings} {c : CommandLine}
  {m : Machine} {ending : Ending} {printed : List UInt8} {limit start n : Nat}

/-! ## Processes that are waited for -/

/-- The process that a program is launched as. -/
def launchOf (s : Settings) (m : Machine) (program : String) (args : List String) : Launch :=
  { program, args, directory := s.directory, cwd := m.cwd, searchPath := m.searchPath
    limit := s.limit.map lastLook }

/-- How the process of a command ends, when there is a file for its output and the command is
one that can be launched. -/
def endingOf? (k : Kernel) (mishaps : Mishaps) (s : Settings) (c : CommandLine) (m : Machine) :
    Option Ending :=
  if (mishaps c m).capture.isSome || (mishaps c m).clone.isSome then none
  else (programOf s c).bind fun p =>
    if hasNul s p.1 p.2 then none else some (k (launchOf s m p.1 p.2) m.files).1

/-- What a process printed that was started. -/
def printed? : Ending → Option (List UInt8)
  | .refused _ => none
  | .ended _ _ printed | .stopped printed => some printed

/-- When a process exited and how, unless it was stopped. -/
def exit? : Ending → Option (Nat × Status)
  | .ended time status _ => some (time, status)
  | .refused _ | .stopped _ => none

/-- A command that can be launched is answered for by how its process ends. -/
theorem executor_of_endingOf? (h : endingOf? k mishaps s c m = some ending) :
    (executor k mishaps s c m).1.result =
      (awaitEnding (mishaps c m) c s m ending).1.result := by
  -- the answer depends on the clock of the machine, not on its files
  have hfiles (fs : FileSystem) :
      (awaitEnding (mishaps c m) c s { m with files := fs } ending).1.result =
        (awaitEnding (mishaps c m) c s m ending).1.result := by
    unfold awaitEnding
    cases ending with
    | refused e => rfl
    | ended time status printed =>
      cases s.limit with
      | none => rfl
      | some limit => dsimp only; cases after? m.clock limit <;> rfl
    | stopped printed => dsimp only; cases after? m.clock (s.limit.getD 0) <;> rfl
  unfold endingOf? at h
  obtain ⟨hfile, h⟩ := Option.ite_none_left_eq_some.1 h
  have hcapture : (mishaps c m).capture = none ∧ (mishaps c m).clone = none := by
    simpa using hfile
  cases hprogram : programOf s c with
  | none => simp [hprogram] at h
  | some p =>
    simp only [hprogram, Option.bind_some, Option.ite_none_left_eq_some, Option.some.injEq] at h
    obtain ⟨hnul, rfl⟩ := h
    simp only [executor, hcapture, launch, hprogram]
    rw [if_neg hnul]
    exact hfiles _

/-- A result answers for a command that printed something and was waited for: with its outcome
if it was seen exited, and with a timeout that carries the command and its output if it was
killed. -/
def Answers (c : CommandLine) (printed : List UInt8) (result : Except Fault Outcome) :
    Verdict Status → Prop
  | .exited status => result = .ok (outcomeOf status printed)
  | .killed _ => ∃ f, result = .error f ∧ f.kind = .timeout ∧ f.command = some c.display ∧
      f.output = some (outputOf printed)
  | .waiting => False

theorem answers_replyFor {v : Verdict Status} (hv : v ≠ .waiting) :
    Answers c printed (replyFor c limit printed v).result v := by
  cases v with
  | exited status => rfl
  | killed clock => exact ⟨_, rfl, rfl, rfl, rfl⟩
  | waiting => exact absurd rfl hv

/-- Neither waiting for the process nor reading its output fails. -/
def Faults.Silent (faults : Faults) : Prop :=
  faults.wait = none ∧ faults.read = none

theorem Faults.Silent.replyUnless (h : faults.Silent) (reply : Reply) :
    replyUnless faults c reply = reply := by
  rw [Runner.replyUnless, h.1, h.2]

/-- With a deadline, the answer is the one for how waiting ends. -/
theorem answers_awaitEnding (hfaults : faults.Silent) (hlimit : s.limit = some limit)
    (hdeadline : after? m.clock limit = some (m.clock + limit))
    (hprinted : printed? ending = some printed) :
    Answers c printed (awaitEnding faults c s m ending).1.result
      (await (looksAt m.clock (exit? ending)) (m.clock + limit) (turnsFor limit) 0) := by
  cases ending with
  | refused e => simp [printed?] at hprinted
  | ended time status p =>
    obtain rfl := Option.some.inj hprinted
    simp only [awaitEnding, hlimit, hdeadline, exit?, hfaults.replyUnless]
    exact answers_replyFor (Deadline.await_looksAt_ne_waiting m.clock limit (some (time, status)))
  | stopped p =>
    obtain rfl := Option.some.inj hprinted
    obtain ⟨clock, hkilled⟩ := Deadline.await_looksAt_none (α := Status) m.clock limit
    simp only [awaitEnding, hlimit, Option.getD_some, hdeadline, exit?, hkilled,
      hfaults.replyUnless]
    exact answers_replyFor (v := .killed _) (by simp)

/-- Without room for the deadline, no process is waited for. -/
theorem awaitEnding_of_no_room (hlimit : s.limit = some limit)
    (hroom : after? m.clock limit = none) (hprinted : printed? ending = some printed) :
    (awaitEnding faults c s m ending).1.result = .error overflowFault := by
  cases ending with
  | refused e => simp [printed?] at hprinted
  | ended time status p => simp only [awaitEnding, hlimit, hroom]
  | stopped p => simp only [awaitEnding, hlimit, Option.getD_some, hroom]

/-! ## Limits in seconds -/

/-- A limit of `n` seconds is kept for commands that are started at a clock. -/
structure KeepsLimit (start n : Nat) : Prop where
  /-- The clock holds the deadline. -/
  deadline : after? start (n * 1000) = some (start + n * 1000)
  /-- Whatever the looks find, waiting ends as it should. -/
  verdict : ∀ {α : Type} (look : Nat → Deadline.Look α) (turns : Nat) (v : Verdict α),
    await look (start + n * 1000) turns 0 = v ↔ Deadline.Ends look (start + n * 1000) turns v
  /-- The command is answered for by how waiting ends, -/
  reply : ∀ (c : CommandLine) (printed : List UInt8) (v : Verdict Status), v ≠ .waiting →
    Answers c printed (replyFor c (n * 1000) printed v).result v
  /-- and so the executor answers, whatever the process does. -/
  answer : ∀ (k : Kernel) (mishaps : Mishaps) (s : Settings) (c : CommandLine) (m : Machine)
    (ending : Ending) (printed : List UInt8), m.clock = start → s.limit = some (n * 1000) →
    endingOf? k mishaps s c m = some ending → printed? ending = some printed →
    (mishaps c m).Silent →
    Answers c printed (executor k mishaps s c m).1.result
      (await (looksAt start (exit? ending)) (start + n * 1000) (turnsFor (n * 1000)) 0)

/-- **A limit is kept** exactly when the clock has room for the seconds of the deadline. -/
theorem keepsLimit_iff : KeepsLimit start n ↔ start / 1000 + n < clockEnd := by
  constructor
  · intro h
    by_contra hroom
    have hdeadline := h.deadline
    rw [Deadline.after?_seconds, if_neg hroom] at hdeadline
    exact nomatch hdeadline
  · intro hroom
    have hdeadline := (Deadline.after?_seconds start n).trans (if_pos hroom)
    refine ⟨hdeadline, fun _ _ _ => Deadline.await_eq_iff, fun _ _ _ => answers_replyFor, ?_⟩
    rintro k mishaps s c m ending printed rfl hlimit hending hprinted hsilent
    rw [executor_of_endingOf? hending]
    exact answers_awaitEnding hsilent hlimit hdeadline hprinted

/-- Where it has not, every command that is started overflows. -/
theorem executor_of_no_room (hroom : clockEnd ≤ m.clock / 1000 + n)
    (hlimit : s.limit = some (n * 1000)) (hending : endingOf? k mishaps s c m = some ending)
    (hprinted : printed? ending = some printed) :
    (executor k mishaps s c m).1.result = .error overflowFault := by
  have hdeadline : after? m.clock (n * 1000) = none := by
    rw [Deadline.after?_seconds, if_neg (Nat.not_lt.2 hroom)]
  rw [executor_of_endingOf? hending, awaitEnding_of_no_room hlimit hdeadline hprinted]

end Runner
end Walkthrough
