/-
# The shortest decimal that reads back

Of the decimals that round to a given double, `Binary64.shortest` gives one with the fewest
digits, and of those the nearest to it.  The reals that round to `m · 2 ^ e` form an
interval whose ends lie halfway to its neighbours and belong to it when `m` is even; the
lower neighbour of a power of two is half as far away as the upper one.  For `1, 2, …`
digits the two points of that decimal grid around the value are tested, and the first
grid with a point in the interval is taken.

`Layout` says how digits are laid out as text.
-/

import Walkthrough.Number.Binary64

namespace Walkthrough
namespace Number

/-- The number `0.d₁d₂…dₙ · 10 ^ point`, with the digits as a natural number. -/
structure Decimal where
  digits : Nat
  count : Nat
  point : Int
deriving DecidableEq, Repr

namespace Binary64

/-- The interval of the numbers that round to the double, as two fractions with a common
denominator, and the value itself on that denominator. -/
def roundingInterval (v : Binary64) : Nat × Nat × Nat × Nat :=
  let wide := v.mantissa = Nat.pow 2 52 ∧ minExponent < v.exponent
  let unit := shift 1 4 v.exponent
  let low := if wide then 1 else 2
  ((4 * v.mantissa - low) * unit.1, (4 * v.mantissa + 2) * unit.1,
    4 * v.mantissa * unit.1, unit.2)

/-- How many decimal digits stand before the point of `num / den`, counted downwards when
the fraction is below one: the `k` with `10 ^ (k - 1) ≤ num / den < 10 ^ k`. -/
def decimalPoint (num den : Nat) : Int :=
  let above (k : Int) : Bool :=
    if 0 ≤ k then decide (num < den * Nat.pow 10 k.toNat)
    else decide (num * Nat.pow 10 (-k).toNat < den)
  let guess : Int := ((num.log2 : Int) - (den.log2 : Int)) * 30103 / 100000
  let candidates := [guess - 1, guess, guess + 1, guess + 2]
  (candidates.find? above).getD (guess + 3)

/-- The point of the grid of `n` digits that reads back, if there is one. -/
def onGrid? (v : Binary64) (point : Int) (n : Nat) : Option Nat :=
  let i := roundingInterval v
  let lo := i.1
  let hi := i.2.1
  let mid := i.2.2.1
  let den := i.2.2.2
  let scale : Int := (n : Int) - point
  let up := if 0 ≤ scale then Nat.pow 10 scale.toNat else 1
  let down := if 0 ≤ scale then 1 else Nat.pow 10 (-scale).toNat
  let d := mid * up / (den * down)
  let even := v.mantissa % 2 = 0
  let reads (q : Nat) : Bool :=
    let x := q * den * down
    if even then decide (lo * up ≤ x) && decide (x ≤ hi * up)
    else decide (lo * up < x) && decide (x < hi * up)
  let below := mid * up - d * den * down
  let above := (d + 1) * den * down - mid * up
  match reads d, reads (d + 1) with
  | true, true => some (if below < above ∨ (below = above ∧ d % 2 = 0) then d else d + 1)
  | true, false => some d
  | false, true => some (d + 1)
  | false, false => none

/-- The first grid of at least `n` digits with a point that reads back. -/
def shortestFrom (v : Binary64) (point : Int) : (tries n : Nat) → Decimal
  | 0, n => ⟨0, n, point⟩
  | tries + 1, n =>
    match onGrid? v point n with
    | some d => if d = Nat.pow 10 n then ⟨1, 1, point + 1⟩ else ⟨d, n, point⟩
    | none => shortestFrom v point tries (n + 1)

/-- The shortest decimal that reads back as the double. -/
def shortest (v : Binary64) : Decimal :=
  if v.mantissa = 0 then ⟨0, 1, 1⟩
  else
    let i := roundingInterval v
    shortestFrom v (decimalPoint i.2.2.1 i.2.2.2) 17 1

end Binary64

/-- The layout of a decimal as text: the powers of ten whose leading digit is written
positionally, and whether a whole number keeps a point and a zero. -/
structure Layout where
  positional : Int → Bool
  keepsPoint : Bool

/-- The digits padded with zeros on the left to `count` of them. -/
def Decimal.digitChars (d : Decimal) : List Char :=
  let ds := Nat.toDigits 10 d.digits
  List.replicate (d.count - ds.length) '0' ++ ds

/-- The text of a decimal: positional with a leading zero below one, or one digit, the rest
of them behind a point, and a signed exponent. -/
def Layout.write (l : Layout) (d : Decimal) : List Char :=
  let ds := d.digitChars
  if l.positional (d.point - 1) then
    if d.point ≤ 0 then ['0', '.'] ++ List.replicate (-d.point).toNat '0' ++ ds
    else
      let whole := d.point.toNat
      if ds.length ≤ whole then
        ds ++ List.replicate (whole - ds.length) '0' ++ (if l.keepsPoint then ['.', '0'] else [])
      else ds.take whole ++ ['.'] ++ ds.drop whole
  else
    let e := d.point - 1
    let sign := if e < 0 then '-' else '+'
    let tail := match ds.drop 1 with
      | [] => []
      | rest => '.' :: rest
    ds.take 1 ++ tail ++ ['e', sign] ++ Nat.toDigits 10 e.natAbs

/-- A number in a diagnostic keeps its point and is positional from `10 ^ -5` to below
`10 ^ 16`. -/
def diagnosticLayout : Layout := ⟨fun e => decide (-5 ≤ e) && decide (e < 16), true⟩

/-- A count of seconds is always positional, and a whole one has no point. -/
def secondsLayout : Layout := ⟨fun _ => true, false⟩

/-- The text of milliseconds as seconds: the whole seconds and the fraction are doubles,
and so is their sum. -/
def secondsText (milliseconds : Nat) : List Char :=
  let sum := do
    let whole ← Binary64.ofNat (milliseconds / 1000)
    let nanos ← Binary64.ofNat (milliseconds % 1000 * 1000000)
    let billion ← Binary64.ofNat 1000000000
    let part ← Binary64.div nanos billion
    Binary64.add whole part
  secondsLayout.write (sum.getD Binary64.zero).shortest

end Number
end Walkthrough
