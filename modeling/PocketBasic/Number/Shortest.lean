import PocketBasic.Number.Binary64
import PocketBasic.Number.Integer

/-! # Shortest decimals

The decimal with the fewest digits that reads back as a given number; of several such, the one
nearest to it, and of two equally near the larger. All comparisons are exact: a number is a quotient
of naturals, and so are the ends of the interval of reals that round to it.
-/

namespace PocketBasic.Number

open Binary64 (powerOfTen)

/-- A decimal `digits * 10 ^ exponent`. -/
structure Decimal where
  digits : Nat
  exponent : Int
  deriving Repr, DecidableEq

/-- The reals that round to a number, all over one denominator. The ends belong to it when
    `closed` holds. -/
structure Rounding where
  low : Nat
  value : Nat
  high : Nat
  den : Nat
  closed : Bool
  deriving Repr

namespace Rounding

/-- The reals that round to a positive finite magnitude. Below a power of two the neighbours stand
    twice as close as above it. -/
def ofMagnitude (magnitude : Nat) : Rounding :=
  let (m, e) := Binary64.significand magnitude
  let power := m = Binary64.hiddenBit && decide (Binary64.leastExponent < e)
  let low := if power then 4 * m - 1 else 4 * m - 2
  let (num, den) := Binary64.scale 1 4 (-e)
  { low := low * num, value := 4 * m * num, high := (4 * m + 2) * num, den := den,
    closed := m % 2 = 0 }

/-- The decimal `d * 10 ^ k` rounds to the number. -/
def admits (r : Rounding) (d : Nat) (k : Int) : Bool :=
  let up := powerOfTen k.toNat
  let down := powerOfTen (-k).toNat
  let x := d * up * r.den
  if r.closed then decide (r.low * down ≤ x) && decide (x ≤ r.high * down)
  else decide (r.low * down < x) && decide (x < r.high * down)

/-- The exponent of the first decimal digit of a positive quotient. -/
def topExponent (num den : Nat) : Int :=
  if den ≤ num then ((digitCount (num / den) - 1 : Nat) : Int)
  else -(digitCount ((den + num - 1) / num - 1) : Int)
where
  /-- Number of decimal digits. -/
  digitCount (n : Nat) : Nat := (Nat.toDigits 10 n).length

/-- The best decimal on the grid of the multiples of `10 ^ k`, if one rounds to the number. -/
def onGrid (r : Rounding) (k : Int) : Option Nat :=
  let num := r.value * powerOfTen (-k).toNat
  let den := r.den * powerOfTen k.toNat
  let below := num / den
  let nearAbove := decide (den ≤ 2 * (num % den))
  match r.admits below k && decide (0 < below), r.admits (below + 1) k with
  | true, true => some (if nearAbove then below + 1 else below)
  | true, false => some below
  | false, true => some (below + 1)
  | false, false => none

/-- Tries grids from coarse to fine, `tries` of them. -/
def search (r : Rounding) (k : Int) : Nat → Decimal
  | 0 => ⟨r.value * powerOfTen (-k).toNat / (r.den * powerOfTen k.toNat), k⟩
  | tries + 1 =>
      match r.onGrid k with
      | some d => ⟨d, k⟩
      | none => r.search (k - 1) tries

end Rounding

/-- Moves trailing zeros of the digits into the exponent. -/
def dropZeros (d : Nat) (k : Int) : Nat → Decimal
  | 0 => ⟨d, k⟩
  | fuel + 1 => if d % 10 = 0 then dropZeros (d / 10) (k + 1) fuel else ⟨d, k⟩

/-- The shortest decimal of a positive finite magnitude. Seventeen digits always suffice. -/
def shortest (magnitude : Nat) : Decimal :=
  let r := Rounding.ofMagnitude magnitude
  let found := r.search (Rounding.topExponent r.value r.den) 17
  dropZeros found.digits found.exponent 17

namespace Decimal

/-- Positional notation: no exponent, and a point only before a fraction. -/
def positional (x : Decimal) : List Char :=
  let ds := Number.digits x.digits
  if 0 ≤ x.exponent then ds ++ List.replicate x.exponent.toNat '0'
  else
    let places := (-x.exponent).toNat
    if places < ds.length then ds.take (ds.length - places) ++ '.' :: ds.drop (ds.length - places)
    else '0' :: '.' :: (List.replicate (places - ds.length) '0' ++ ds)

/-- Scientific notation: one digit before the point, no point after a single digit, `E` and the
    exponent without a plus sign. -/
def scientific (x : Decimal) : List Char :=
  let ds := Number.digits x.digits
  let e : Int := x.exponent + (ds.length - 1 : Nat)
  let mantissa :=
    match ds with
    | first :: second :: rest => first :: '.' :: second :: rest
    | short => short
  let sign := if e < 0 then ['-'] else []
  mantissa ++ 'E' :: sign ++ Number.digits e.natAbs

end Decimal

end PocketBasic.Number
