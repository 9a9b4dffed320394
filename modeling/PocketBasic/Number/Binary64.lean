/-! # Binary floating-point numbers

Reals are 64-bit binary floating-point numbers, kept as their bits. The program only stores,
compares and writes them, so they need no arithmetic: reading rounds an exact quotient of
naturals to the nearest number, ties to the even one, and everything else looks at the bits.

The 63 bits below the sign are the *magnitude*. Magnitudes are ordered as numbers are; the numbers
with exponent field 2047 are infinity and, above it, those that are no number at all.
-/

namespace PocketBasic

/-- A 64-bit binary floating-point number. -/
structure Binary64 where
  /-- Sign, eleven bits of exponent, fifty-two bits of fraction. -/
  bits : UInt64
  deriving Repr, DecidableEq, Inhabited

namespace Binary64

/-- The bits of infinity without a sign. -/
def infinityMagnitude : Nat := 0x7FF0000000000000

/-- The sign bit as a number. -/
def signBit : Nat := 0x8000000000000000

/-- The bit of a significand that is not stored. -/
def hiddenBit : Nat := 0x10000000000000

/-- The sign bit is set. -/
def isNegative (x : Binary64) : Bool :=
  signBit ≤ x.bits.toNat

/-- The bits below the sign. -/
def magnitude (x : Binary64) : Nat :=
  x.bits.toNat % signBit

/-- The number with a given sign and magnitude. -/
def ofMagnitude (negative : Bool) (magnitude : Nat) : Binary64 :=
  ⟨((if negative then signBit else 0) + magnitude).toUInt64⟩

/-- Zero, without a sign. -/
def zero : Binary64 := ⟨0⟩

/-- Not a number. -/
def isNaN (x : Binary64) : Bool :=
  decide (infinityMagnitude < x.magnitude)

/-- Neither infinite nor no number. -/
def isFinite (x : Binary64) : Bool :=
  decide (x.magnitude < infinityMagnitude)

/-- Least exponent of a finite number: every finite number is `m * 2 ^ e` with `m < 2 ^ 53` and
    `leastExponent ≤ e`. -/
def leastExponent : Int := -1074

/-- The `m` and `e` of a finite magnitude. -/
def significand (magnitude : Nat) : Nat × Int :=
  let field := magnitude / hiddenBit
  let fraction := magnitude % hiddenBit
  if field = 0 then (fraction, leastExponent)
  else (hiddenBit + fraction, leastExponent + (field - 1 : Nat))

/-- `num / den * 2 ^ (-e)` as a quotient of naturals. -/
def scale (num den : Nat) (e : Int) : Nat × Nat :=
  if 0 ≤ e then (num, den <<< e.toNat) else (num <<< (-e).toNat, den)

/-- The nearest natural to a quotient; halfway goes to the even neighbour. -/
def roundHalfEven (num den : Nat) : Nat :=
  let q := num / den
  let twice := 2 * (num % den)
  if twice < den then q else if den < twice then q + 1 else q + q % 2

/-- The exponent at which a positive quotient has a significand of 53 bits, or the least one. -/
def exponentOf (num den : Nat) : Int :=
  let e : Int := (Nat.log2 num : Int) - (Nat.log2 den : Int) - 52
  let (n, d) := scale num den e
  max leastExponent (if n < d * hiddenBit then e - 1 else e)

/-- The magnitude nearest to a positive quotient, infinity when it is past the largest number. A
    significand that rounds up to 54 bits carries into the exponent field, as it should. -/
def magnitudeOfQuotient (num den : Nat) : Nat :=
  let e := exponentOf num den
  let (n, d) := scale num den e
  min infinityMagnitude ((e - leastExponent).toNat * hiddenBit + roundHalfEven n d)

/-- A power of ten. -/
def powerOfTen (k : Nat) : Nat := Nat.pow 10 k

/-- The magnitude nearest to `m * 10 ^ e`. Far outside the range of finite numbers the answer needs
    no arithmetic. -/
def magnitudeOfDecimal (m : Nat) (e : Int) : Nat :=
  let top : Int := (Nat.toDigits 10 m).length + e
  if m = 0 then 0
  else if top < -400 then 0
  else if 400 < top then infinityMagnitude
  else if 0 ≤ e then magnitudeOfQuotient (m * powerOfTen e.toNat) 1
  else magnitudeOfQuotient m (powerOfTen (-e).toNat)

/-- The number nearest to a signed decimal. -/
def ofDecimal (negative : Bool) (m : Nat) (e : Int) : Binary64 :=
  ofMagnitude negative (magnitudeOfDecimal m e)

/-- The whole part of a number that is not negative, at most `limit`; zero for a negative number and
    for what is no number. -/
def clampToNat (limit : Nat) (x : Binary64) : Nat :=
  if x.isNaN || x.isNegative then 0
  else if !x.isFinite then limit
  else
    let (m, e) := significand x.magnitude
    min limit (if 0 ≤ e then m <<< e.toNat else m >>> (-e).toNat)

end Binary64

end PocketBasic
