/-
Module: InputScript.Number.Binary
Purpose: Double precision numbers as exact fractions: taking them apart, rounding a fraction to the
  nearest one, and cutting them down to whole numbers.
Main exports: Binary, decode, nearest, Binary.whole?, truncate
-/
namespace InputScript.Number

/-- A double precision number taken apart. -/
inductive Binary where
  /-- The number `± mantissa · 2 ^ exponent`. -/
  | finite (negative : Bool) (mantissa : Nat) (exponent : Int)
  | infinite (negative : Bool)
  | notANumber
  deriving DecidableEq, Repr

/-- The exponent of the unit in the last place of the smallest numbers. -/
def leastExponent : Int := -1074

/-- A power of two. -/
def twoTo (exponent : Nat) : Nat := Nat.pow 2 exponent

/-- A power of ten. -/
def tenTo (exponent : Nat) : Nat := Nat.pow 10 exponent

/-- A double precision number from its bit pattern: one sign bit, eleven exponent bits and
fifty-two fraction bits. -/
def decodeBits (bits : Nat) : Binary :=
  let negative := bits / twoTo 63 % 2 == 1
  let exponentBits : Nat := bits / twoTo 52 % twoTo 11
  let fraction : Nat := bits % twoTo 52
  if exponentBits == 2047 then
    if fraction == 0 then .infinite negative else .notANumber
  else if exponentBits == 0 then
    .finite negative fraction leastExponent
  else
    .finite negative (fraction + twoTo 52) ((exponentBits : Int) - 1075)

/-- The parts of a double precision number. -/
def decode (x : Float) : Binary :=
  decodeBits x.toBits.toNat

/-! ### Rounding to the nearest number -/

/-- The quotient of two numbers rounded to the nearest whole number, a half to the even one. -/
def roundQuotient (numerator denominator : Nat) : Nat :=
  let quotient := numerator / denominator
  let twice := 2 * (numerator % denominator)
  if twice < denominator then quotient
  else if twice == denominator then quotient + quotient % 2
  else quotient + 1

/-- The fraction `numerator / denominator · 2 ^ shift` as one numerator over one denominator. -/
def scaledFraction (numerator denominator : Nat) (shift : Int) : Nat × Nat :=
  if 0 ≤ shift then (numerator * twoTo shift.toNat, denominator)
  else (numerator, denominator * twoTo (-shift).toNat)

/-- The exponent at which a fraction gets a mantissa of fifty-three bits, but at least the least
exponent.  The logarithms of numerator and denominator fix it up to one. -/
def mantissaExponent (numerator denominator : Nat) : Int :=
  let guess : Int := (numerator.log2 : Int) - (denominator.log2 : Int) - 53
  let scaled := scaledFraction numerator denominator (-guess)
  let exponent := if scaled.1 / scaled.2 < twoTo 53 then guess else guess + 1
  max exponent leastExponent

/-- The bit pattern of the double precision number nearest to a fraction.  A fraction halfway
between two of them goes to the even one, and one beyond the largest goes to infinity. -/
def nearestBits (negative : Bool) (numerator denominator : Nat) : Nat :=
  let sign := if negative then twoTo 63 else 0
  if numerator == 0 then sign
  else
    let exponent := mantissaExponent numerator denominator
    let scaled := scaledFraction numerator denominator (-exponent)
    let mantissa := roundQuotient scaled.1 scaled.2
    -- a mantissa rounded up to the next power of two carries into the exponent bits by itself
    let magnitude :=
      if mantissa < twoTo 52 then mantissa
      else (exponent - leastExponent).toNat * twoTo 52 + mantissa
    sign + min magnitude (2047 * twoTo 52)

/-- The double precision number nearest to a fraction. -/
def nearest (negative : Bool) (numerator denominator : Nat) : Float :=
  Float.ofBits (UInt64.ofNat (nearestBits negative numerator denominator))

/-- The double precision number nearest to `± digits · 10 ^ exponent`.  Exponents far outside the
range of double precision are settled by the number of digits alone. -/
def nearestDecimal (negative : Bool) (digits : Nat) (exponent : Int) : Float :=
  let magnitude : Int := exponent + (digits.log2 / 3 : Nat)
  if digits == 0 then nearest negative 0 1
  else if exponent > 400 then Float.ofBits (if negative then 0xFFF0000000000000 else 0x7FF0000000000000)
  else if magnitude < -400 then nearest negative 0 1
  else if 0 ≤ exponent then nearest negative (digits * tenTo exponent.toNat) 1
  else nearest negative digits (tenTo (-exponent).toNat)

/-! ### Whole numbers -/

/-- The magnitude of a finite number without its fraction. -/
def wholePart (mantissa : Nat) (exponent : Int) : Nat :=
  if 0 ≤ exponent then mantissa * twoTo exponent.toNat else mantissa / twoTo (-exponent).toNat

/-- A sign put in front of a magnitude. -/
def signed (negative : Bool) (magnitude : Nat) : Int :=
  if negative then -(magnitude : Int) else magnitude

/-- The whole number that a double precision number is, if it is one. -/
def Binary.whole? : Binary → Option Int
  | .finite negative mantissa exponent =>
    if 0 ≤ exponent || mantissa % twoTo (-exponent).toNat == 0 then
      some (signed negative (wholePart mantissa exponent))
    else none
  | _ => none

/-- Why a double precision number has no whole part. -/
inductive TruncateError where
  | infinite
  | notANumber
  deriving DecidableEq, Repr

/-- The wording of a truncation failure. -/
def TruncateError.message : TruncateError → String
  | .infinite => "cannot convert float infinity to integer"
  | .notANumber => "cannot convert float NaN to integer"

/-- The whole part of a double precision number, cut off towards zero. -/
def truncate (x : Float) : Except TruncateError Int :=
  match decode x with
  | .finite negative mantissa exponent => .ok (signed negative (wholePart mantissa exponent))
  | .infinite _ => .error .infinite
  | .notANumber => .error .notANumber

/-- The integer nearest to a number; a half goes to the even neighbour. -/
def roundToInteger (x : Float) : Except TruncateError Int :=
  match decode x with
  | .finite negative mantissa exponent =>
    let (numerator, denominator) := scaledFraction mantissa 1 exponent
    .ok (signed negative (roundQuotient numerator denominator))
  | .infinite _ => .error .infinite
  | .notANumber => .error .notANumber

/-- The double precision number nearest to an integer. -/
def ofInteger (value : Int) : Float :=
  nearest (value < 0) value.natAbs 1

/-- Positive infinity. -/
def infinity : Float := Float.ofBits 0x7FF0000000000000

end InputScript.Number
