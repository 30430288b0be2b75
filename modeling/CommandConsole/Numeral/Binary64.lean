/-!
# Floating-point numbers of 64 bits

The nearest floating-point number to a fraction, computed in natural numbers. A finite number is
`significand * 2 ^ exponent` with a significand below `2 ^ 53`; the numbers of one sign, in increasing
order, have consecutive encodings, so that rounding up to the next power of two, and on to infinity,
is the successor of the encoding.

## Main definitions

- `Binary64` — a floating-point number, given by its encoding
- `Binary64.roundHalfEven` — a quotient rounded to the nearest natural number
- `Binary64.nearest` — the floating-point number nearest to a fraction
-/

namespace CommandConsole

/-- A floating-point number of 64 bits. -/
structure Binary64 where
  /-- The sign, the exponent and the fraction, from the highest bit down. -/
  bits : UInt64
  deriving DecidableEq, Repr, Inhabited

namespace Binary64

/-- The number of values of the fraction, which is also the least significand of full length. -/
def fractions : Nat := Nat.pow 2 52

/-- The encoding of the sign. -/
def signBit : Nat := Nat.pow 2 63

/-- The encoding of positive infinity: an exponent of ones and no fraction. -/
def infinityBits : Nat := 2047 * fractions

/-- The number with the given sign and encoded magnitude. -/
def ofMagnitude (negative : Bool) (magnitude : Nat) : Binary64 :=
  ⟨UInt64.ofNat (if negative then signBit + magnitude else magnitude)⟩

/-- Positive or negative zero. -/
def zero (negative : Bool) : Binary64 := ofMagnitude negative 0

/-- Positive or negative infinity. -/
def infinity (negative : Bool) : Binary64 := ofMagnitude negative infinityBits

/-- A number that stands for no value. -/
def nan (negative : Bool) : Binary64 := ofMagnitude negative (infinityBits + fractions / 2)

/-- Whether a number stands for no value. -/
def isNaN (x : Binary64) : Bool := infinityBits < x.bits.toNat % signBit

/-- The quotient of two natural numbers rounded to the nearest one, a tie to the even one. -/
def roundHalfEven (num den : Nat) : Nat :=
  let floor := num / den
  let twice := 2 * (num % den)
  if den < twice || (twice == den && floor % 2 == 1) then floor + 1 else floor

/-- `num / den` divided by `2 ^ exponent`, as a fraction. -/
def scaled (num den : Nat) (exponent : Int) : Nat × Nat :=
  if 0 ≤ exponent then (num, den * Nat.pow 2 exponent.toNat)
  else (num * Nat.pow 2 (-exponent).toNat, den)

/-- The exponent at which the significand of `num / den` has 53 bits, or the least exponent that the
format has if that is larger. -/
def exponentFor (num den : Nat) : Int :=
  let guess : Int := (num.log2 : Int) - den.log2 - 52
  let (n, d) := scaled num den guess
  max (-1074) (if n < fractions * d then guess - 1 else guess)

/-- The encoding of the number nearest to `num / den`, a tie going to the even significand. From the
middle between the largest number and the next power of two on it is infinity. -/
def nearestMagnitude (num den : Nat) : Nat :=
  if num = 0 then 0
  else
    let exponent := exponentFor num den
    let (n, d) := scaled num den exponent
    min infinityBits ((exponent + 1074).toNat * fractions + roundHalfEven n d)

/-- The floating-point number nearest to `num / den` with the given sign. -/
def nearest (negative : Bool) (num den : Nat) : Binary64 :=
  ofMagnitude negative (nearestMagnitude num den)

/-- The encoding in sixteen lowercase hexadecimal digits. -/
def hex (x : Binary64) : String :=
  let digits := Nat.toDigits 16 x.bits.toNat
  String.ofList (List.replicate (16 - digits.length) '0' ++ digits)

end Binary64

end CommandConsole
