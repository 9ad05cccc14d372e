/-
# Arithmetic

The expressions between `$((` and `))`.  Numbers have 64 bits and wrap around.  The value
of a term depends on the variables it names and may set some of them; the second operand of
`&&` and `||` and the branches of `?:` are looked at only when they count.

| level | operators |
| ---: | --- |
| 1 | `=` `*=` `/=` `%=` `+=` `-=` `<<=` `>>=` `&=` `^=` and the one with a bar, to the right |
| 2 | `? :`, to the right |
| 3, 4 | or, `&&` |
| 5, 6, 7 | bitwise or, `^`, `&` |
| 8, 9 | `==` `!=`, then `<` `<=` `>` `>=` |
| 10, 11, 12 | shifts, sums, products |

Part of the kernel that the executable runs with (`Shell.kernel`).  The theorems of the library
are about every kernel, and none is about this one alone.
-/

import Walkthrough.Shell.Grammar

namespace Walkthrough
namespace Shell
namespace Arithmetic

open Text (Octets)

/-- An operator of two numbers. -/
inductive Binary where
  | bitOr | bitXor | bitAnd
  | equal | unequal | less | lessEqual | greater | greaterEqual
  | shiftLeft | shiftRight | add | subtract | multiply | divide | remainder
deriving DecidableEq, Repr

/-- An operator of one number. -/
inductive Unary where
  | negate | keep | notZero | complement
deriving DecidableEq, Repr

/-- An arithmetic expression. -/
inductive Term where
  | number (n : Int)
  | variable (name : Octets)
  | unary (op : Unary) (a : Term)
  | binary (op : Binary) (a b : Term)
  | both (a b : Term)
  | either (a b : Term)
  | choose (c a b : Term)
  | assign (name : Octets) (op : Option Binary) (a : Term)
deriving DecidableEq, Repr

/-! ## Values -/

/-- A number brought into 64 bits. -/
def wrap (n : Int) : Int :=
  (n + Nat.pow 2 63) % Nat.pow 2 64 - Nat.pow 2 63

/-- A number as 64 bits without a sign. -/
def bits (n : Int) : Nat :=
  (n % Nat.pow 2 64).toNat

/-- One for true and zero for false. -/
def truth (b : Bool) : Int :=
  if b then 1 else 0

/-- The value of an operator, when it has one. -/
def Binary.value (op : Binary) (a b : Int) : Option Int :=
  match op with
  | .bitOr => some (wrap (bits a ||| bits b))
  | .bitXor => some (wrap (bits a ^^^ bits b))
  | .bitAnd => some (wrap (bits a &&& bits b))
  | .equal => some (truth (a == b))
  | .unequal => some (truth (a != b))
  | .less => some (truth (a < b))
  | .lessEqual => some (truth (a ≤ b))
  | .greater => some (truth (b < a))
  | .greaterEqual => some (truth (b ≤ a))
  | .shiftLeft => some (wrap (a * Nat.pow 2 (bits b % 64)))
  | .shiftRight => some (a / Nat.pow 2 (bits b % 64))
  | .add => some (wrap (a + b))
  | .subtract => some (wrap (a - b))
  | .multiply => some (wrap (a * b))
  | .divide => if b = 0 then none else some (wrap (a.tdiv b))
  | .remainder => if b = 0 then none else some (a.tmod b)

/-- The value of an operator of one number. -/
def Unary.value (op : Unary) (a : Int) : Int :=
  match op with
  | .negate => wrap (-a)
  | .keep => a
  | .notZero => truth (a == 0)
  | .complement => wrap (-a - 1)

/-- Why an expression has no value. -/
inductive Trouble where
  | malformed
  | zeroDivision
  | notNumber (text : Octets)
deriving DecidableEq, Repr

/-- The value of a digit. -/
def digitValue (c : Char) : Nat :=
  if c.isDigit then c.toNat - '0'.toNat
  else if 'a' ≤ c ∧ c ≤ 'z' then c.toNat - 'a'.toNat + 10
  else if 'A' ≤ c ∧ c ≤ 'Z' then c.toNat - 'A'.toNat + 10
  else 99

/-- The number that digits write in a base. -/
def digits (base : Nat) (t : Octets) : Option Int :=
  if t.isEmpty || t.any (fun c => base ≤ digitValue c) then none
  else some (t.foldl (fun n c => n * base + digitValue c) (0 : Nat))

/-- The number that a text without a sign writes: octal after a zero, hexadecimal after `0x`. -/
def unsigned : Octets → Option Int
  | '0' :: 'x' :: t => digits 16 t
  | '0' :: 'X' :: t => digits 16 t
  | '0' :: t => if t.isEmpty then some 0 else digits 8 t
  | t => digits 10 t

/-- Whether a character is a blank between numbers. -/
def isSpace (c : Char) : Bool :=
  c == ' ' || ('\t' ≤ c && c ≤ '\r')

/-- A text without blanks around it. -/
def stripped (t : Octets) : Octets :=
  ((t.dropWhile isSpace).reverse.dropWhile isSpace).reverse

/-- The number that the value of a variable writes; nothing is zero. -/
def numberOf (t : Octets) : Option Int :=
  match stripped t with
  | [] => some 0
  | '-' :: u => (unsigned u).map fun n => wrap (-n)
  | '+' :: u => (unsigned u).map wrap
  | u => (unsigned u).map wrap

/-- The variables set so far, the latest first. -/
abbrev Settings := List (Octets × Int)

/-- The number a name stands for. -/
def look (value : Octets → Octets) (set : Settings) (name : Octets) : Except Trouble Int :=
  match set.lookup name with
  | some n => .ok n
  | none =>
    match numberOf (value name) with
    | some n => .ok n
    | none => .error (.notNumber (value name))

/-- The value of an operator, or the trouble it makes. -/
def applied (op : Binary) (a b : Int) : Except Trouble Int :=
  match op.value a b with
  | some n => .ok n
  | none => .error .zeroDivision

/-- The value of a term, and the variables set after it. -/
def Term.value (value : Octets → Octets) : Term → Settings → Except Trouble (Int × Settings)
  | .number n, set => .ok (n, set)
  | .variable name, set => (look value set name).map fun n => (n, set)
  | .unary op a, set => (a.value value set).map fun r => (op.value r.1, r.2)
  | .binary op a b, set => do
    let r ← a.value value set
    let s ← b.value value r.2
    let n ← applied op r.1 s.1
    return (n, s.2)
  | .both a b, set => do
    let r ← a.value value set
    if r.1 = 0 then return (0, r.2)
    let s ← b.value value r.2
    return (truth (s.1 != 0), s.2)
  | .either a b, set => do
    let r ← a.value value set
    if r.1 ≠ 0 then return (1, r.2)
    let s ← b.value value r.2
    return (truth (s.1 != 0), s.2)
  | .choose c a b, set => do
    let r ← c.value value set
    if r.1 ≠ 0 then a.value value r.2 else b.value value r.2
  | .assign name none a, set => do
    let r ← a.value value set
    return (r.1, (name, r.1) :: r.2)
  | .assign name (some op) a, set => do
    let r ← a.value value set
    let old ← look value r.2 name
    let n ← applied op old r.1
    return (n, (name, n) :: r.2)

/-! ## Reading -/

/-- The operators of two operands, with their levels; a longer one stands before its
beginnings. -/
def binaries : List (Octets × Nat × (Term → Term → Term)) :=
  [("||".toList, 3, .either), ("&&".toList, 4, .both),
   ("<<".toList, 10, .binary .shiftLeft), (">>".toList, 10, .binary .shiftRight),
   ("==".toList, 8, .binary .equal), ("!=".toList, 8, .binary .unequal),
   ("<=".toList, 9, .binary .lessEqual), (">=".toList, 9, .binary .greaterEqual),
   ("|".toList, 5, .binary .bitOr), ("^".toList, 6, .binary .bitXor),
   ("&".toList, 7, .binary .bitAnd), ("<".toList, 9, .binary .less),
   (">".toList, 9, .binary .greater), ("+".toList, 11, .binary .add),
   ("-".toList, 11, .binary .subtract), ("*".toList, 12, .binary .multiply),
   ("/".toList, 12, .binary .divide), ("%".toList, 12, .binary .remainder)]

/-- The assignments, with the operators they apply. -/
def assignments : List (Octets × Option Binary) :=
  [("<<=".toList, some .shiftLeft), (">>=".toList, some .shiftRight),
   ("*=".toList, some .multiply), ("/=".toList, some .divide), ("%=".toList, some .remainder),
   ("+=".toList, some .add), ("-=".toList, some .subtract), ("&=".toList, some .bitAnd),
   ("^=".toList, some .bitXor), ("|=".toList, some .bitOr)]

/-- The assignment at the front of a text. -/
def assignmentIn? (t : Octets) : Option (Option Binary × Octets) :=
  match t with
  | '=' :: '=' :: _ => none
  | '=' :: rest => some (none, rest)
  | _ =>
    (assignments.find? fun e => e.1.isPrefixOf t).map fun e => (e.2, t.drop e.1.length)

/-- The operator of two operands at the front of a text. -/
def binaryIn? (t : Octets) : Option (Nat × (Term → Term → Term) × Octets) :=
  if (assignmentIn? t).isSome then none
  else (binaries.find? fun e => e.1.isPrefixOf t).map fun e => (e.2.1, e.2.2, t.drop e.1.length)

/-- What is read next. -/
inductive Goal where
  | operand
  /-- A term whose operators have a level, or a tighter one. -/
  | term (level : Nat)
  /-- What follows a term of a level. -/
  | after (level : Nat) (left : Term)

/-- Reads a goal at the front of a text; `steps` bounds how deep the goals are nested. -/
def read : (steps : Nat) → Goal → Octets → Option (Term × Octets)
  | 0, _, _ => none
  | steps + 1, .operand, t =>
    match t.dropWhile isSpace with
    | '(' :: rest =>
      match read steps (.term 1) rest with
      | some (a, more) =>
        match more.dropWhile isSpace with
        | ')' :: after => some (a, after)
        | _ => none
      | none => none
    | '-' :: rest => (read steps .operand rest).map fun r => (.unary .negate r.1, r.2)
    | '+' :: rest => (read steps .operand rest).map fun r => (.unary .keep r.1, r.2)
    | '!' :: rest => (read steps .operand rest).map fun r => (.unary .notZero r.1, r.2)
    | '~' :: rest => (read steps .operand rest).map fun r => (.unary .complement r.1, r.2)
    | rest =>
      let run := rest.takeWhile isNamePart
      let after := rest.drop run.length
      if isName run then some (.variable run, after)
      else (unsigned run).map fun n => (.number (wrap n), after)
  | steps + 1, .term level, t =>
    match read steps .operand t with
    | some (a, rest) => read steps (.after level a) rest
    | none => none
  | steps + 1, .after level left, t =>
    let rest := t.dropWhile isSpace
    match binaryIn? rest with
    | some (l, make, more) =>
      if l < level then some (left, rest)
      else match read steps (.term (l + 1)) more with
        | some (b, after) => read steps (.after level (make left b)) after
        | none => none
    | none =>
      match left, assignmentIn? rest with
      | .variable name, some (op, more) =>
        if level ≤ 1 then
          (read steps (.term 1) more).map fun r => (.assign name op r.1, r.2)
        else some (left, rest)
      | _, _ =>
        match rest with
        | '?' :: more =>
          if level ≤ 2 then
            match read steps (.term 1) more with
            | some (a, more) =>
              match more.dropWhile isSpace with
              | ':' :: more =>
                (read steps (.term 2) more).map fun r => (.choose left a r.1, r.2)
              | _ => none
            | none => none
          else some (left, rest)
        | _ => some (left, rest)

/-- The term that a text writes. -/
def termOf (t : Octets) : Option Term :=
  match read (3 * t.length + 3) (.term 1) t with
  | some (a, rest) => if (stripped rest).isEmpty then some a else none
  | none => none

/-- The value of an expression, and the variables it sets. -/
def evaluate (value : Octets → Octets) (t : Octets) : Except Trouble (Int × Settings) :=
  match termOf t with
  | some a => a.value value []
  | none => .error .malformed

end Arithmetic
end Shell
end Walkthrough
