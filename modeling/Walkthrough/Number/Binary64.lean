/-
# Double-precision numbers, exactly

A finite non-negative double is `mantissa · 2 ^ exponent` with `mantissa < 2 ^ 53` and
`-1074 ≤ exponent ≤ 971`; the mantissa has 53 bits unless the exponent is the least one.
Each operation computes its exact result as a fraction of natural numbers and rounds it
once, to nearest, a tie going to the even mantissa.  A result beyond the largest finite
double is `none`.
-/

namespace Walkthrough
namespace Number

/-- A finite non-negative double. -/
structure Binary64 where
  mantissa : Nat
  exponent : Int
deriving DecidableEq, Repr

namespace Binary64

/-- The least exponent. -/
def minExponent : Int := -1074

/-- The greatest exponent. -/
def maxExponent : Int := 971

/-- Zero. -/
def zero : Binary64 := ⟨0, minExponent⟩

/-- The fraction `num · 2 ^ e / den` as numerator and denominator. -/
def shift (num den : Nat) (e : Int) : Nat × Nat :=
  if 0 ≤ e then (num * Nat.pow 2 e.toNat, den) else (num, den * Nat.pow 2 (-e).toNat)

/-- The natural number nearest to `num / den`, a tie going to the even one. -/
def nearest (num den : Nat) : Nat :=
  let q := num / den
  let r := num % den
  if 2 * r < den then q
  else if den < 2 * r then q + 1
  else if q % 2 = 0 then q else q + 1

/-- The exponent at which `num / den` has a mantissa of 53 bits, at least the least one. -/
def exponentFor (num den : Nat) : Int :=
  let guess : Int := (num.log2 : Int) - (den.log2 : Int) - 52
  let scaled := shift num den (-guess)
  let e := if scaled.1 < scaled.2 * Nat.pow 2 52 then guess - 1 else guess
  max e minExponent

/-- The double nearest to `num / den`. -/
def ofRatio (num den : Nat) : Option Binary64 :=
  if num = 0 then some zero
  else
    let e := exponentFor num den
    let scaled := shift num den (-e)
    let m := nearest scaled.1 scaled.2
    let v : Binary64 := if m = Nat.pow 2 53 then ⟨Nat.pow 2 52, e + 1⟩ else ⟨m, e⟩
    if maxExponent < v.exponent then none else some v

/-- The double nearest to a natural number. -/
def ofNat (n : Nat) : Option Binary64 :=
  ofRatio n 1

/-- The value as a fraction. -/
def ratio (v : Binary64) : Nat × Nat :=
  shift v.mantissa 1 v.exponent

/-- The double nearest to the sum. -/
def add (a b : Binary64) : Option Binary64 :=
  ofRatio (a.ratio.1 * b.ratio.2 + b.ratio.1 * a.ratio.2) (a.ratio.2 * b.ratio.2)

/-- The double nearest to the product. -/
def mul (a b : Binary64) : Option Binary64 :=
  ofRatio (a.ratio.1 * b.ratio.1) (a.ratio.2 * b.ratio.2)

/-- The double nearest to the quotient by a number that is not zero. -/
def div (a b : Binary64) : Option Binary64 :=
  ofRatio (a.ratio.1 * b.ratio.2) (a.ratio.2 * b.ratio.1)

/-- The double nearest to `10 ^ k`, for `k ≤ 308`. -/
def powerOfTen (k : Nat) : Binary64 :=
  (ofNat (Nat.pow 10 k)).getD zero

/-- The greatest power of ten that is a finite double has this exponent. -/
def maxTenExponent : Nat := 308

/-- `f / 10 ^ k` in steps of at most `308` powers, each of them rounded.  A double is zero
after four full steps whatever it was, so the steps are counted. -/
def divByPower (f : Binary64) (k : Nat) : (steps : Nat) → Binary64
  | 0 => zero
  | steps + 1 =>
    if k ≤ maxTenExponent then (div f (powerOfTen k)).getD zero
    else divByPower ((div f (powerOfTen maxTenExponent)).getD zero) (k - maxTenExponent) steps

/-- The value read for the digits `significand` and the decimal exponent `e`: one rounding
of the digits and one for each power of ten, `none` beyond the largest finite double. -/
def ofDecimal (significand : Nat) (e : Int) : Option Binary64 :=
  match ofNat significand with
  | none => none
  | some f =>
    if e < 0 then some (divByPower f (-e).toNat 5)
    else if e.toNat ≤ maxTenExponent then mul f (powerOfTen e.toNat)
    else if f.mantissa = 0 then some zero
    else none

end Binary64
end Number
end Walkthrough
