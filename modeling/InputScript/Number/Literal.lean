/-
Module: InputScript.Number.Literal
Purpose: The written forms of numbers in scripts and settings, and the values they stand for.
Main exports: signedDigits?, hexDigits?, limitedDecimal, readFloat?
-/
import InputScript.Number.Binary
import InputScript.Text.Blank
import InputScript.Text.Digit
import InputScript.Text.Quoted

namespace InputScript.Number

open Text

/-! ### Digits -/

/-- The value of a digit to base sixteen. -/
def hexDigitValue? (c : Char) : Option Nat :=
  let code := c.toNat
  if 0x30 ≤ code && code ≤ 0x39 then some (code - 0x30)
  else if 0x41 ≤ code && code ≤ 0x46 then some (code - 0x37)
  else if 0x61 ≤ code && code ≤ 0x66 then some (code - 0x57)
  else none

/-- The number that a row of digits stands for. -/
def positional (base : Nat) (digits : List Nat) : Nat :=
  digits.foldl (fun value digit => base * value + digit) 0

/-- The value of a row of the digits `0` to `9`. -/
def decimalValue (digits : List Char) : Nat :=
  positional 10 (digits.map asciiDigitValue)

/-- A sign in front of a literal, if there is one, and what follows it. -/
def splitSign : List Char → Bool × List Char
  | '-' :: rest => (true, rest)
  | '+' :: rest => (false, rest)
  | rest => (false, rest)

/-! ### Integers -/

/-- The sign and the digits of a text that is an optional sign and one or more of the digits `0` to
`9`. -/
def signedDigits? (text : List Char) : Option (Bool × List Char) :=
  let (negative, digits) := splitSign text
  if !digits.isEmpty && digits.all isAsciiDigit then some (negative, digits) else none

/-- The value of a text that is `0x` or `0X` and one or more digits to base sixteen. -/
def hexValue? (text : List Char) : Option Nat :=
  match text with
  | '0' :: mark :: digits =>
    if (mark == 'x' || mark == 'X') && !digits.isEmpty then
      (digits.mapM hexDigitValue?).map (positional 16)
    else none
  | _ => none

/-- The largest number of decimal digits that are converted to an integer or written for one. -/
def digitLimit : Nat := 4300

/-- A decimal integer with more digits than are converted. -/
structure TooManyDigits where
  count : Nat
  deriving DecidableEq, Repr

/-- The wording of a refused conversion. -/
def TooManyDigits.message (refusal : TooManyDigits) : String :=
  s!"Exceeds the limit ({digitLimit} digits) for integer string conversion: value has " ++
    s!"{refusal.count} digits; use sys.set_int_max_str_digits() to increase the limit"

/-- The integer of a sign and decimal digits.  Leading zeros count towards the digit limit. -/
def limitedDecimal (negative : Bool) (digits : List Char) : Except TooManyDigits Int :=
  if digits.length > digitLimit then .error ⟨digits.length⟩
  else .ok (signed negative (decimalValue digits))

/-- The decimal text of an integer, unless it would have more digits than are written. -/
def decimalText? (value : Int) : Option String :=
  if value.natAbs < tenTo digitLimit then some (toString value) else none

/-- The wording of an integer that is not written. -/
def unwrittenMessage : String :=
  s!"Exceeds the limit ({digitLimit} digits) for integer string conversion; " ++
    "use sys.set_int_max_str_digits() to increase the limit"

/-- Why a text is no integer. -/
inductive IntegerError where
  | malformed (text : String)
  | tooManyDigits (refusal : TooManyDigits)
  deriving DecidableEq, Repr

/-- The most characters of a quoted text that an integer error shows. -/
def shownCharacters : Nat := 200

/-- The wording of an integer error. -/
def IntegerError.message : IntegerError → String
  | .malformed text =>
    let shown := (quote text.toList).take shownCharacters
    s!"invalid literal for int() with base 10: {String.ofList shown}"
  | .tooManyDigits refusal => refusal.message

/-- Digits of all scripts written as `0` to `9`. -/
def asciiDigits (text : List Char) : List Char :=
  text.map fun c =>
    match digitValue c with
    | some value => Char.ofNat (0x30 + value)
    | none => c

/-- The text without the underscores that group its digits, or `none` if an underscore does not
stand between two digits.  The flag says whether a digit stands before the text. -/
def ungroup? (afterDigit : Bool) : List Char → Option (List Char)
  | [] => some []
  | '_' :: next :: rest =>
    if afterDigit && isAsciiDigit next then (ungroup? true rest).map (next :: ·) else none
  | c :: rest => if c == '_' then none else (ungroup? (isAsciiDigit c) rest).map (c :: ·)

/-- Read an integer: blanks around it, an optional sign, and digits of any script that single
underscores may group. -/
def readInteger (text : String) : Except IntegerError Int :=
  let (negative, digits) := splitSign (asciiDigits (trim text.toList))
  let written := digits.takeWhile fun c => isAsciiDigit c || c == '_'
  let count := (written.filter isAsciiDigit).length
  if count > digitLimit && (ungroup? false written).isSome then .error (.tooManyDigits ⟨count⟩)
  else
    match ungroup? false digits with
    | some plain =>
      if !plain.isEmpty && plain.all isAsciiDigit then .ok (signed negative (decimalValue plain))
      else .error (.malformed text)
    | none => .error (.malformed text)

/-! ### Fractions -/

/-- A decimal literal: digits before the point, digits after it, and an exponent of ten. -/
structure DecimalLiteral where
  negative : Bool
  whole : List Char
  fraction : List Char
  exponent : Int
  deriving DecidableEq, Repr

/-- The digits of a literal without its point, as one number. -/
def DecimalLiteral.digits (literal : DecimalLiteral) : Nat :=
  decimalValue (literal.whole ++ literal.fraction)

/-- The power of ten by which the digits are multiplied. -/
def DecimalLiteral.scale (literal : DecimalLiteral) : Int :=
  literal.exponent - literal.fraction.length

/-- The double precision number nearest to a literal. -/
def DecimalLiteral.toFloat (literal : DecimalLiteral) : Float :=
  nearestDecimal literal.negative literal.digits literal.scale

/-- The exponent after the digits of a literal: nothing, or a mark and a signed number. -/
def exponentPart? : List Char → Option Int
  | [] => some 0
  | mark :: rest =>
    if mark == 'e' || mark == 'E' then
      (signedDigits? rest).map fun (negative, digits) => signed negative (decimalValue digits)
    else none

/-- Read a decimal literal: an optional sign, digits with an optional point among them, at least one
digit in all, and an optional exponent. -/
def decimalLiteral? (text : List Char) : Option DecimalLiteral :=
  let (negative, unsigned) := splitSign text
  let whole := unsigned.takeWhile isAsciiDigit
  let afterWhole := unsigned.dropWhile isAsciiDigit
  let (fraction, afterFraction) :=
    match afterWhole with
    | '.' :: rest => (rest.takeWhile isAsciiDigit, rest.dropWhile isAsciiDigit)
    | rest => ([], rest)
  if whole.isEmpty && fraction.isEmpty then none
  else (exponentPart? afterFraction).map fun exponent => ⟨negative, whole, fraction, exponent⟩

/-- A character with the letters `A` to `Z` made small. -/
def asciiLower (c : Char) : Char :=
  let code := c.toNat
  if 0x41 ≤ code && code ≤ 0x5A then Char.ofNat (code + 0x20) else c

/-- The numbers that are written as words. -/
def namedFloat? (text : List Char) : Option Float :=
  let (negative, word) := splitSign text
  let name := String.ofList (word.map asciiLower)
  if name == "inf" || name == "infinity" then
    some (Float.ofBits (if negative then 0xFFF0000000000000 else 0x7FF0000000000000))
  else if name == "nan" then some (Float.ofBits 0x7FF8000000000000)
  else none

/-- Read a double precision number: blanks around it, then a decimal literal with digits of any
script that single underscores may group, or the word for an infinity or for no number. -/
def readFloat? (text : String) : Option Float :=
  let plain := asciiDigits (trim text.toList)
  match namedFloat? plain with
  | some number => some number
  | none => (ungroup? false plain).bind fun digits => (decimalLiteral? digits).map (·.toFloat)

end InputScript.Number
