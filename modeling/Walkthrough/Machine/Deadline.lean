/-
# Deadlines

A command may be given a time limit.  The deadline is the start plus the limit; the clock
counts milliseconds and its seconds have 63 bits, so a limit may lie beyond it.  The
command is looked at again and again: first whether it has exited, then whether the clock
has reached the deadline.  A command that is seen exited before the deadline was seen to
pass ends with its status; otherwise it is killed at the first look whose clock has
reached the deadline.
-/

namespace Walkthrough
namespace Deadline

/-- The first second that the clock cannot hold. -/
def clockEnd : Nat := Nat.pow 2 63

/-- The deadline of a limit, when the clock can hold it. -/
def after? (start limit : Nat) : Option Nat :=
  if (start + limit) / 1000 < clockEnd then some (start + limit) else none

/-- What a look at a command finds: its status if it has exited, and then the clock. -/
structure Look (α : Type) where
  exited : Option α
  clock : Nat
deriving DecidableEq, Repr

/-- How waiting ends. -/
inductive Verdict (α : Type) where
  | exited (status : α)
  | killed (clock : Nat)
  | waiting
deriving DecidableEq, Repr

/-- Waits through looks, at most `turns` of them, from the one with the given number. -/
def await {α : Type} (look : Nat → Look α) (deadline : Nat) : (turns number : Nat) → Verdict α
  | 0, _ => .waiting
  | turns + 1, number =>
    match (look number).exited with
    | some status => .exited status
    | none =>
      if deadline ≤ (look number).clock then .killed (look number).clock
      else await look deadline turns (number + 1)

/-- The milliseconds between two looks. -/
def interval : Nat := 10

/-- How many looks reach a limit. -/
def turnsFor (limit : Nat) : Nat :=
  limit / interval + 2

/-- The milliseconds from the start to the first look that has reached a limit. -/
def lastLook (limit : Nat) : Nat :=
  (limit + (interval - 1)) / interval * interval

/-- The looks at a command that exits some time after its start, or never. -/
def looksAt {α : Type} (start : Nat) (ending : Option (Nat × α)) (number : Nat) : Look α where
  exited := match ending with
    | some (time, status) => if time ≤ number * interval then some status else none
    | none => none
  clock := start + number * interval

end Deadline
end Walkthrough
