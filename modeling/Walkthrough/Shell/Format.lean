/-
# Printed formats

What `echo` and `printf` print.  Both know backslash escapes; a format has conversions
that take arguments, and it is used again while arguments are left.

Part of the kernel that the executable runs with (`Shell.kernel`).  The theorems of the library
are about every kernel, and none is about this one alone.
-/

import Walkthrough.Shell.Arithmetic

namespace Walkthrough
namespace Shell
namespace Format

open Text (Octets)

/-! ## Escapes -/

/-- Whether a character is an octal digit. -/
def isOctal (c : Char) : Bool :=
  '0' ≤ c && c ≤ '7'

/-- The octet of octal digits. -/
def octet (t : Octets) : Char :=
  Char.ofNat (t.foldl (fun n c => n * 8 + (c.toNat - '0'.toNat)) 0 % 256)

/-- The character of a letter behind a backslash. -/
def escapeLetter? : Char → Option Char
  | 'a' => some '\x07'
  | 'b' => some '\x08'
  | 'f' => some '\x0c'
  | 'n' => some '\n'
  | 'r' => some '\r'
  | 't' => some '\t'
  | 'v' => some '\x0b'
  | '\\' => some '\\'
  | _ => none

/-- The octal digits behind a backslash, at most three of them. -/
def octalDigits (t : Octets) : Octets :=
  (t.take 3).takeWhile isOctal

/-- What the text behind a backslash in a format stands for, and what follows it. -/
def formatEscape (t : Octets) : Octets × Octets :=
  match t with
  | [] => (['\\'], [])
  | c :: rest =>
    if isOctal c then ([octet (octalDigits t)], t.drop (octalDigits t).length)
    else match escapeLetter? c with
      | some d => ([d], rest)
      | none => if c == '\x22' then ([c], rest) else (['\\', c], rest)

/-- A text with its escapes replaced, and whether it ended the printing.  A zero may stand
before the octal digits. -/
def unescapeFrom : (steps : Nat) → Octets → Octets × Bool
  | 0, t => (t, false)
  | _, [] => ([], false)
  | steps + 1, c :: t =>
    if c ≠ '\\' then
      let r := unescapeFrom steps t
      (c :: r.1, r.2)
    else match t with
      | 'c' :: _ => ([], true)
      | '0' :: u =>
        let r := unescapeFrom steps (u.drop (octalDigits u).length)
        (octet (octalDigits u) :: r.1, r.2)
      | _ =>
        let e := formatEscape t
        let r := unescapeFrom steps e.2
        (e.1 ++ r.1, r.2)

/-- A text with its escapes replaced, and whether it ended the printing. -/
def unescape (t : Octets) : Octets × Bool :=
  unescapeFrom (t.length + 1) t

/-- Words with blanks between them. -/
def spaced (words : List Octets) : Octets :=
  [' '].intercalate words

/-- What `echo` prints. -/
def echoed (args : List Octets) : Octets :=
  let (newline, words) := match args with
    | ['-', 'n'] :: rest => (false, rest)
    | _ => (true, args)
  let (text, stopped) := unescape (spaced words)
  if newline && !stopped then text ++ ['\n'] else text

/-! ## Conversions -/

/-- The flags, the width and the precision of a conversion. -/
structure Shape where
  left : Bool := false
  zero : Bool := false
  plus : Bool := false
  space : Bool := false
  alternate : Bool := false
  width : Nat := 0
  precision : Option Nat := none
deriving Repr

/-- A text brought to its width. -/
def Shape.padded (s : Shape) (t : Octets) : Octets :=
  let fill := List.replicate (s.width - t.length) ' '
  if s.left then t ++ fill else fill ++ t

/-- A number with its sign, its digits brought to precision and width. -/
def Shape.number (s : Shape) (sign digits : Octets) : Octets :=
  let digits :=
    match s.precision with
    | some p => List.replicate (p - digits.length) '0' ++ digits
    | none =>
      if s.zero && !s.left then
        List.replicate (s.width - sign.length - digits.length) '0' ++ digits
      else digits
  s.padded (sign ++ digits)

/-- The sign of a number. -/
def Shape.sign (s : Shape) (n : Int) : Octets :=
  if n < 0 then ['-'] else if s.plus then ['+'] else if s.space then [' '] else []

/-- The printing of a format. -/
structure Printing where
  text : Octets := []
  args : List Octets
  /-- What is wrong with the arguments. -/
  mistakes : List Octets := []
  stopped : Bool := false
  /-- Whether a conversion took an argument. -/
  took : Bool := false
  /-- Whether the format itself is wrong. -/
  broken : Bool := false
deriving Repr

namespace Printing

/-- More text. -/
def add (p : Printing) (t : Octets) : Printing :=
  { p with text := p.text ++ t }

/-- The next argument. -/
def next (p : Printing) : Option Octets × Printing :=
  (p.args.head?, { p with args := p.args.tail, took := true })

/-- The number of an argument; a character after a quote is its number. -/
def numberOf (p : Printing) (arg : Option Octets) : Int × Printing :=
  match arg with
  | none => (0, p)
  | some [] => (0, { p with mistakes := p.mistakes ++ [": expected numeric value".toList] })
  | some ('\'' :: c :: _) => (c.toNat, p)
  | some ('\x22' :: c :: _) => (c.toNat, p)
  | some t =>
    match Arithmetic.numberOf t with
    | some n => (n, p)
    | none =>
      let digits := t.takeWhile fun c => c.isDigit || c == '-' || c == '+'
      let known := (Arithmetic.numberOf digits).getD 0
      let mistake := if digits.isEmpty then ": expected numeric value" else
        ": not completely converted"
      (known, { p with mistakes := p.mistakes ++ [t ++ mistake.toList] })

end Printing

/-- The digits of a conversion letter for a number without a sign. -/
def unsignedDigits (letter : Char) (n : Nat) : Octets :=
  match letter with
  | 'o' => Nat.toDigits 8 n
  | 'x' => Nat.toDigits 16 n
  | 'X' => (Nat.toDigits 16 n).map Char.toUpper
  | _ => Nat.toDigits 10 n

/-- What stands before the digits in the alternate form. -/
def mark (s : Shape) (letter : Char) (n : Nat) : Octets :=
  if !s.alternate || n = 0 then []
  else match letter with
    | 'o' => ['0']
    | 'x' => ['0', 'x']
    | 'X' => ['0', 'X']
    | _ => []

/-- One conversion; a letter that is none is a mistake that stops the printing. -/
def convert (p : Printing) (s : Shape) (letter : Char) : Printing :=
  let cut (t : Octets) : Octets :=
    match s.precision with
    | some n => t.take n
    | none => t
  if letter = 's' then
    let (arg, p) := p.next
    p.add (s.padded (cut (arg.getD [])))
  else if letter = 'c' then
    let (arg, p) := p.next
    p.add (s.padded [(arg.bind List.head?).getD '\x00'])
  else if letter = 'b' then
    let (arg, p) := p.next
    let (t, stopped) := unescape (arg.getD [])
    { p.add (s.padded (cut t)) with stopped }
  else if letter = 'd' ∨ letter = 'i' then
    let (arg, p) := p.next
    let (n, p) := p.numberOf arg
    p.add (s.number (s.sign n) (Text.Octets.ofNat n.natAbs))
  else if letter = 'u' ∨ letter = 'o' ∨ letter = 'x' ∨ letter = 'X' then
    let (arg, p) := p.next
    let (n, p) := p.numberOf arg
    let n := Arithmetic.bits n
    p.add (s.number (mark s letter n) (unsignedDigits letter n))
  else
    { p with
      mistakes := p.mistakes ++ ['%' :: letter :: ": invalid directive".toList]
      stopped := true
      broken := true }

/-- The flags in front of a conversion, and what follows them. -/
def readFlags : (s : Shape) → Octets → Shape × Octets
  | s, '-' :: t => readFlags { s with left := true } t
  | s, '0' :: t => readFlags { s with zero := true } t
  | s, '+' :: t => readFlags { s with plus := true } t
  | s, ' ' :: t => readFlags { s with space := true } t
  | s, '#' :: t => readFlags { s with alternate := true } t
  | s, t => (s, t)

/-- The width in front of a conversion. -/
def readWidth (p : Printing) (s : Shape) (t : Octets) : Printing × Shape × Octets :=
  match t with
  | '*' :: rest =>
    let (arg, p) := p.next
    let (n, p) := p.numberOf arg
    (p, { s with width := n.natAbs, left := s.left || n < 0 }, rest)
  | _ =>
    let ds := t.takeWhile Char.isDigit
    (p, { s with width := (String.ofList ds).toNat?.getD 0 }, t.drop ds.length)

/-- The precision in front of a conversion. -/
def readPrecision (p : Printing) (s : Shape) (t : Octets) : Printing × Shape × Octets :=
  match t with
  | '.' :: '*' :: rest =>
    let (arg, p) := p.next
    let (n, p) := p.numberOf arg
    (p, { s with precision := if n < 0 then none else some n.natAbs }, rest)
  | '.' :: rest =>
    let ds := rest.takeWhile Char.isDigit
    (p, { s with precision := some ((String.ofList ds).toNat?.getD 0) }, rest.drop ds.length)
  | _ => (p, s, t)

/-- Prints a format once; `steps` bounds its items. -/
def printOnce : (steps : Nat) → Octets → Printing → Printing
  | 0, _, p => p
  | _, [], p => p
  | steps + 1, c :: t, p =>
    if p.stopped then p
    else if c = '\\' then
      match t with
      | 'c' :: _ => { p with stopped := true }
      | _ =>
        let e := formatEscape t
        printOnce steps e.2 (p.add e.1)
    else if c ≠ '%' then printOnce steps t (p.add [c])
    else match t with
      | '%' :: rest => printOnce steps rest (p.add ['%'])
      | _ =>
        let (s, t) := readFlags {} t
        let (p, s, t) := readWidth p s t
        let (p, s, t) := readPrecision p s t
        match t with
        | letter :: rest => printOnce steps rest (convert p s letter)
        | [] => { p with mistakes := p.mistakes ++ ["%: missing format character".toList],
                         stopped := true, broken := true }

/-- Prints a format again while it takes arguments; `turns` bounds how often. -/
def printAgain (format : Octets) : (turns : Nat) → Printing → Printing
  | 0, p => p
  | turns + 1, p =>
    let q := printOnce (format.length + 1) format { p with took := false }
    if q.took && !q.stopped && !q.args.isEmpty then printAgain format turns q else q

/-- The printing of a format with arguments. -/
def printed (format : Octets) (args : List Octets) : Printing :=
  printAgain format (args.length + 1) { args }

end Format
end Shell
end Walkthrough
