/-
# Conditions

What `test` asks: about texts, about numbers and about files.  With up to four arguments
their number decides what they mean, so an operator can be compared like any other text;
more of them are read as an expression with `-o` below `-a` below `!`.

Part of the kernel that the executable runs with (`Shell.kernel`).  The theorems of the library
are about every kernel, and none is about this one alone.
-/

import Walkthrough.Shell.Worker
import Walkthrough.Shell.Arithmetic

namespace Walkthrough
namespace Shell
namespace Condition

open Text (Octets)

/-- The answer of a condition, or a mistake in it. -/
abbrev Answer := Except Octets Bool

/-- The number that an argument writes. -/
def number (t : Octets) : Except Octets Int :=
  let digits (u : Octets) : Option Int :=
    if u.all Char.isDigit then Arithmetic.digits 10 u else none
  let n := match Arithmetic.stripped t with
    | '-' :: u => (digits u).map fun n => -n
    | '+' :: u => digits u
    | u => digits u
  match n with
  | some n => .ok n
  | none => .error ("Illegal number: ".toList ++ t)

/-- Whether a text is before another. -/
def before (a b : Octets) : Bool :=
  decide (a.map Char.toNat < b.map Char.toNat)

/-- The comparison of two texts or numbers that an operator names. -/
def binary? (operator : Octets) : Option (Octets → Octets → Answer) :=
  let numbers (f : Int → Int → Bool) : Octets → Octets → Answer := fun a b => do
    return f (← number a) (← number b)
  match String.ofList operator with
  | "=" => some fun a b => .ok (a == b)
  | "!=" => some fun a b => .ok (a != b)
  | "<" => some fun a b => .ok (before a b)
  | ">" => some fun a b => .ok (before b a)
  | "-eq" => some (numbers (· == ·))
  | "-ne" => some (numbers (· != ·))
  | "-lt" => some (numbers (· < ·))
  | "-le" => some (numbers (· ≤ ·))
  | "-gt" => some (numbers (· > ·))
  | "-ge" => some (numbers (· ≥ ·))
  | _ => none

/-- What a condition can find out about files. -/
structure View where
  /-- The node a path leads to. -/
  node : Octets → Option Node
  /-- The node a path names, a link not followed. -/
  named : Octets → Option Node

/-- Whether a node is a file of this size or more. -/
def isAtLeast (size : Nat) : Node → Bool
  | .file bytes _ => size ≤ bytes.length
  | .device => size = 0
  | _ => true

/-- Whether a node is a symbolic link. -/
def isLink : Node → Bool
  | .link _ => true
  | _ => false

/-- The question about one argument that an operator names. -/
def unary? (v : View) (operator : Octets) : Option (Octets → Bool) :=
  let file (f : Node → Bool) : Octets → Bool := fun a => (v.node a).any f
  match String.ofList operator with
  | "-n" => some fun a => !a.isEmpty
  | "-z" => some fun a => a.isEmpty
  | "-e" => some (file fun _ => true)
  | "-f" => some (file Node.isFile)
  | "-d" => some (file Node.isDirectory)
  | "-r" => some (file fun _ => true)
  | "-w" => some (file fun _ => true)
  | "-x" => some (file Node.isExecutable)
  | "-s" => some (file (isAtLeast 1))
  | "-c" => some (file (· == .device))
  | "-b" => some fun _ => false
  | "-p" => some fun _ => false
  | "-S" => some fun _ => false
  | "-t" => some fun _ => false
  | "-u" => some fun _ => false
  | "-g" => some fun _ => false
  | "-k" => some fun _ => false
  | "-O" => some (file fun _ => true)
  | "-G" => some (file fun _ => true)
  | "-h" => some fun a => (v.named a).any isLink
  | "-L" => some fun a => (v.named a).any isLink
  | _ => none

/-- What is read next of an expression. -/
inductive Goal where
  | any
  | all
  | primary

/-- Reads a goal at the front of the arguments; `steps` bounds how deep goals are nested. -/
def read (v : View) : (steps : Nat) → Goal → List Octets → Except Octets (Bool × List Octets)
  | 0, _, _ => .error "too many arguments".toList
  | steps + 1, .any, args => do
    let (a, rest) ← read v steps .all args
    match rest with
    | ['-', 'o'] :: more => do
      let (b, after) ← read v steps .any more
      return (a || b, after)
    | _ => return (a, rest)
  | steps + 1, .all, args => do
    let (a, rest) ← read v steps .primary args
    match rest with
    | ['-', 'a'] :: more => do
      let (b, after) ← read v steps .all more
      return (a && b, after)
    | _ => return (a, rest)
  | steps + 1, .primary, args =>
    match args with
    | [] => .error "argument expected".toList
    | a :: rest =>
      match rest with
      | operator :: b :: more =>
        match binary? operator with
        | some f => (f a b).map fun r => (r, more)
        | none => single steps a rest
      | _ => single steps a rest
where
  /-- Reads a negation, parentheses, a question or a text. -/
  single (steps : Nat) (a : Octets) (rest : List Octets) : Except Octets (Bool × List Octets) :=
    match a, rest with
    | ['!'], _ :: _ => (read v steps .primary rest).map fun r => (!r.1, r.2)
    | ['('], _ :: _ => do
      let (r, after) ← read v steps .any rest
      match after with
      | [')'] :: more => return (r, more)
      | _ => .error "closing paren expected".toList
    | _, b :: more =>
      match unary? v a with
      | some f => .ok (f b, more)
      | none => .ok (!a.isEmpty, rest)
    | _, [] => .ok (!a.isEmpty, [])

/-- The answer of a whole expression. -/
def expression (v : View) (args : List Octets) : Answer := do
  let (r, rest) ← read v (4 * args.length + 4) .any args
  match rest with
  | [] => return r
  | t :: _ => .error (t ++ ": unexpected operator".toList)

/-- The answer of two arguments. -/
def ofTwo (v : View) (a b : Octets) : Answer :=
  if a = ['!'] then .ok b.isEmpty
  else match unary? v a with
    | some f => .ok (f b)
    | none =>
      if (binary? b).isSome then .error (b ++ ": argument expected".toList)
      else .error (a ++ ": unexpected operator".toList)

/-- The answer of three arguments. -/
def ofThree (v : View) (a b c : Octets) : Answer :=
  match binary? b with
  | some f => f a c
  | none =>
    if b = ['-', 'a'] then .ok (!a.isEmpty && !c.isEmpty)
    else if b = ['-', 'o'] then .ok (!a.isEmpty || !c.isEmpty)
    else if a = ['!'] then (ofTwo v b c).map (!·)
    else if a = ['('] && c = [')'] then .ok (!b.isEmpty)
    else expression v [a, b, c]

/-- The answer of a condition. -/
def answer (v : View) (args : List Octets) : Answer :=
  match args with
  | [] => .ok false
  | [a] => .ok (!a.isEmpty)
  | [a, b] => ofTwo v a b
  | [a, b, c] => ofThree v a b c
  | [a, b, c, d] =>
    if a = ['!'] then (ofThree v b c d).map (!·) else expression v [a, b, c, d]
  | _ => expression v args

end Condition
end Shell
end Walkthrough
