/-
Module: InputScript.Number.Shortest
Purpose: The fewest decimal digits that read back as a given double precision number, and the way
  such a number is written in values and log lines.
Main exports: shortest, Layout, plainLayout, render
-/
import InputScript.Number.Binary

namespace InputScript.Number

/-- A decimal number `digits · 10 ^ exponent`. -/
structure DecimalDigits where
  digits : Nat
  exponent : Int
  deriving DecidableEq, Repr

/-! ### The interval that rounds to a number -/

/-- The numbers that round to one double precision number, scaled to whole numbers: they lie between
`low` and `high` over `denominator`, with the ends included when `closed`. -/
structure RoundingInterval where
  low : Nat
  value : Nat
  high : Nat
  denominator : Nat
  closed : Bool

/-- The interval of `mantissa · 2 ^ exponent`.  It is narrower below a power of two, where the gap to
the next smaller number is half as wide. -/
def roundingInterval (mantissa : Nat) (exponent : Int) : RoundingInterval :=
  let scale := scaledFraction 1 1 (exponent - 2)
  let narrowBelow := mantissa == twoTo 52 && exponent != leastExponent
  { low := (4 * mantissa - if narrowBelow then 1 else 2) * scale.1
    value := 4 * mantissa * scale.1
    high := (4 * mantissa + 2) * scale.1
    denominator := scale.2
    closed := mantissa % 2 == 0 }

/-- Whether `numerator / divisor` lies in the interval. -/
def RoundingInterval.holds (interval : RoundingInterval) (numerator divisor : Nat) : Bool :=
  let point := numerator * interval.denominator
  if interval.closed then
    interval.low * divisor ≤ point && point ≤ interval.high * divisor
  else
    interval.low * divisor < point && point < interval.high * divisor

/-! ### Digits -/

/-- The power of ten of the leading digit of a fraction of at least one. -/
def leadingPower (numerator denominator : Nat) : Nat :=
  (Nat.toDigits 10 (numerator / denominator)).length - 1

/-- The power of ten of the leading digit of a positive fraction.  A fraction below one is first
multiplied by a power of ten that makes it at least one. -/
def leadingExponent (numerator denominator : Nat) : Int :=
  if denominator ≤ numerator then leadingPower numerator denominator
  else
    let lift := denominator.log2 - numerator.log2 + 1
    (leadingPower (numerator * tenTo lift) denominator : Int) - lift

/-- The nearest multiple of `10 ^ exponent` inside the interval, if one of the two around the value
lies inside.  Of two equally near ones the even one is taken. -/
def gridDigits? (interval : RoundingInterval) (exponent : Int) : Option DecimalDigits :=
  let unit := if 0 ≤ exponent then tenTo exponent.toNat else 1
  let divisor := if 0 ≤ exponent then 1 else tenTo (-exponent).toNat
  -- the value is `scaledValue / scaledUnit` units
  let scaledValue := interval.value * divisor
  let scaledUnit := interval.denominator * unit
  let below := scaledValue / scaledUnit
  let above := below + 1
  let belowInside := 0 < below && interval.holds (below * unit) divisor
  let aboveInside := interval.holds (above * unit) divisor
  if belowInside && aboveInside then
    let nearest := roundQuotient scaledValue scaledUnit
    some ⟨nearest, exponent⟩
  else if belowInside then some ⟨below, exponent⟩
  else if aboveInside then some ⟨above, exponent⟩
  else none

/-- The first grid, from the coarsest on, that has a point inside the interval. -/
def coarsestDigits (interval : RoundingInterval) (fallback : DecimalDigits) :
    List Int → DecimalDigits
  | [] => fallback
  | exponent :: finer =>
    match gridDigits? interval exponent with
    | some found => found
    | none => coarsestDigits interval fallback finer

/-- The decimal number with the fewest digits that reads back as `mantissa · 2 ^ exponent`, and the
nearest of those.  Seventeen digits always suffice. -/
def shortest (mantissa : Nat) (exponent : Int) : DecimalDigits :=
  if mantissa == 0 then ⟨0, 0⟩
  else
    let interval := roundingInterval mantissa exponent
    let leading := leadingExponent interval.value interval.denominator
    let grids := (List.range 17).map fun (count : Nat) => leading - count
    coarsestDigits interval ⟨mantissa, exponent⟩ grids

/-! ### Layout -/

/-- How digits are laid out. -/
structure Layout where
  /-- Leading exponents from this one on are written without an exponent, … -/
  leastPositional : Int
  /-- … up to but excluding this one. -/
  positionalLimit : Int
  /-- What a whole number written without an exponent ends in. -/
  wholeMark : String
  /-- The least number of digits of a written exponent. -/
  exponentWidth : Nat

/-- Values are written without an exponent from `0.0001` up to sixteen digits before the point, a
whole number ends in `.0`, and an exponent has a sign and at least two digits. -/
def plainLayout : Layout := ⟨-4, 16, ".0", 2⟩

/-- The digits of a number without the zeros at their end. -/
def significantDigits (digits : Nat) : List Char :=
  ((Nat.toDigits 10 digits).reverse.dropWhile (· == '0')).reverse

/-- A written exponent: its sign and its digits. -/
def exponentText (layout : Layout) (exponent : Int) : List Char :=
  let digits := Nat.toDigits 10 exponent.natAbs
  (if exponent < 0 then '-' else '+') ::
    (List.replicate (layout.exponentWidth - digits.length) '0' ++ digits)

/-- Lay out a positive decimal number. -/
def Layout.write (layout : Layout) (number : DecimalDigits) : List Char :=
  let all := Nat.toDigits 10 number.digits
  let digits := significantDigits number.digits
  let leading : Int := number.exponent + (all.length - 1 : Nat)
  if layout.leastPositional ≤ leading && leading < layout.positionalLimit then
    if leading < 0 then
      '0' :: '.' :: (List.replicate (-leading - 1).toNat '0' ++ digits)
    else
      let whole := (leading + 1).toNat
      if digits.length ≤ whole then
        digits ++ List.replicate (whole - digits.length) '0' ++ layout.wholeMark.toList
      else
        digits.take whole ++ '.' :: digits.drop whole
  else
    let fraction := digits.drop 1
    digits.take 1 ++ (if fraction.isEmpty then [] else '.' :: fraction) ++
      'e' :: exponentText layout leading

/-- A double precision number as values and log lines show it. -/
def render (x : Float) : String :=
  match decode x with
  | .notANumber => "nan"
  | .infinite negative => if negative then "-inf" else "inf"
  | .finite negative mantissa exponent =>
    let body :=
      if mantissa == 0 then "0.0".toList else plainLayout.write (shortest mantissa exponent)
    String.ofList (if negative then '-' :: body else body)

end InputScript.Number
