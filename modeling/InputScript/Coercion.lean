/-
Module: InputScript.Coercion
Purpose: Parameter types, and the conversion of one argument token to a value of a type.
Main exports: IntegerType, ParameterType, zero, Rejection, CoercionError
-/
import InputScript.Number.Literal
import InputScript.Value

namespace InputScript

open Text Number

/-! ### Types -/

/-- The integer types by width and sign. -/
inductive IntegerType where
  | int32
  | uint32
  /-- A window handle. -/
  | handle
  | unsignedHandle
  deriving DecidableEq, Repr

namespace IntegerType

/-- The width in bits. -/
def bits : IntegerType → Nat
  | .int32 | .uint32 => 32
  | .handle | .unsignedHandle => 64

/-- Whether the type has negative values. -/
def isSigned : IntegerType → Bool
  | .int32 | .handle => true
  | .uint32 | .unsignedHandle => false

/-- The least value. -/
def least (type : IntegerType) : Int :=
  if type.isSigned then -(twoTo (type.bits - 1)) else 0

/-- The first number above the greatest value. -/
def limit (type : IntegerType) : Int :=
  if type.isSigned then twoTo (type.bits - 1) else twoTo type.bits

/-- Whether a number is a value of the type. -/
def holds (type : IntegerType) (value : Int) : Bool :=
  type.least ≤ value && value < type.limit

/-- The name in signatures and messages. -/
def name : IntegerType → String
  | .int32 => "Int32"
  | .uint32 => "UInt32"
  | .handle => "IntPtr"
  | .unsignedHandle => "UIntPtr"

end IntegerType

/-- The type of a parameter. -/
inductive ParameterType where
  | integer (type : IntegerType)
  | float
  | boolean
  | text
  | enumeration (members : Enumeration)
  deriving DecidableEq, Repr

namespace ParameterType

/-- The name in signatures and messages. -/
def name : ParameterType → String
  | .integer type => type.name
  | .float => "Double"
  | .boolean => "Boolean"
  | .text => "String"
  | .enumeration members => members.name

/-- Whether an omitted argument of the type stands for a value of the type. -/
def isValueType : ParameterType → Bool
  | .text => false
  | _ => true

/-- What an omitted argument stands for. -/
def zero : ParameterType → Value
  | .integer _ => .integer 0
  | .float => .float (Float.ofBits 0)
  | .boolean => .boolean false
  | .text => .none
  | .enumeration members =>
    match members.zero? with
    | some member => .member member
    | none => .none

/-- The types that are not enumerations. -/
def plain : List ParameterType :=
  [.integer .int32, .integer .uint32, .integer .handle, .integer .unsignedHandle, .float, .boolean,
    .text]

/-- The type of a name that is not an enumeration. -/
def plainNamed? (name : String) : Option ParameterType := plain.find? (·.name == name)

end ParameterType

/-! ### Errors -/

/-- Why a token is no value of a type.  Another overload may still take the token. -/
inductive Rejection where
  | notAMember (enumeration : String)
  | notABoolean
  | notANumber
  | notAnInteger (type : IntegerType)
  deriving DecidableEq, Repr

/-- The wording of a rejection. -/
def Rejection.reason : Rejection → String
  | .notAMember enumeration => s!"not a member of {enumeration}"
  | .notABoolean => "expected true or false"
  | .notANumber => "not a number"
  | .notAnInteger type =>
    let sign := if type.isSigned then "signed" else "unsigned"
    s!"not a {type.bits}-bit {sign} integer"

/-- The wording of a rejection together with the token and the type. -/
def Rejection.message (rejection : Rejection) (token : String) (type : ParameterType) : String :=
  s!"cannot convert {quoted token} to {type.name}: {rejection.reason}"

/-- How a conversion can fail. -/
inductive CoercionError where
  | rejected (rejection : Rejection)
  | tooManyDigits (refusal : TooManyDigits)
  deriving DecidableEq, Repr

/-! ### Conversion of a trimmed, non-empty text -/

/-- The value of a hexadecimal literal in a type.  A signed type takes the upper half of its unsigned
range as negative numbers. -/
def hexInteger? (type : IntegerType) (value : Nat) : Option Int :=
  if value ≥ twoTo type.bits then none
  else if type.isSigned && value ≥ twoTo (type.bits - 1) then
    some ((value : Int) - twoTo type.bits)
  else some value

/-- The number of a token without digit groups. -/
def plainFloat? (text : List Char) : Option Float :=
  if text.contains '_' then none else readFloat? (String.ofList text)

/-- A number as a value of a type, if it is one. -/
def inRange? (type : IntegerType) (value : Int) : Option Int :=
  if type.holds value then some value else none

/-- Convert to an integer: a hexadecimal literal, a decimal literal, or a number with a fraction or
exponent that is whole. -/
def toInteger (type : IntegerType) (text : List Char) : Except TooManyDigits (Option Int) :=
  match hexValue? text with
  | some value => .ok (hexInteger? type value)
  | none =>
    match signedDigits? text with
    | some (negative, digits) => (limitedDecimal negative digits).map (inRange? type)
    | none =>
      .ok <| (plainFloat? text).bind fun number => (decode number).whole?.bind (inRange? type)

/-- Convert to a member: by its value for a hexadecimal or decimal literal, else by name. -/
def toMember (members : Enumeration) (text : List Char) : Except TooManyDigits (Option Member) :=
  match hexValue? text with
  | some value => .ok (members.memberOf? (.number value))
  | none =>
    match signedDigits? text with
    | some (negative, digits) =>
      (limitedDecimal negative digits).map fun value => members.memberOf? (.number value)
    | none => .ok (members.namedFolded? (String.ofList text))

/-- Convert to a truth value: one of two words in any letter case. -/
def toBoolean? (text : List Char) : Option Bool :=
  let word := String.ofList (fold text)
  if word == "true" then some true
  else if word == "false" then some false
  else none

/-! ### Conversion of a token -/

/-- Accept a converted value, or reject the token. -/
def acceptOr {α : Type} (rejection : Rejection) (wrap : α → Value) :
    Except TooManyDigits (Option α) → Except CoercionError Value
  | .ok (some value) => .ok (wrap value)
  | .ok none => .error (.rejected rejection)
  | .error refusal => .error (.tooManyDigits refusal)

/-- Convert a trimmed, non-empty text to a value of a type. -/
def convert (type : ParameterType) (text : List Char) : Except CoercionError Value :=
  match type with
  | .text => .ok (.text (String.ofList text))
  | .enumeration members => acceptOr (.notAMember members.name) .member (toMember members text)
  | .boolean => acceptOr .notABoolean .boolean (.ok (toBoolean? text))
  | .float => acceptOr .notANumber .float (.ok (plainFloat? text))
  | .integer width => acceptOr (.notAnInteger width) .integer (toInteger width text)

/-- Convert one token to a value of a type.  A missing token, and a blank one where the type is not
text, stands for the zero value of the type; a text is taken as it is. -/
def coerce (token : Option String) (type : ParameterType) : Except CoercionError Value :=
  match token, type with
  | none, _ => .ok type.zero
  | some written, .text => .ok (.text written)
  | some written, _ =>
    match trim written.toList with
    | [] => .ok type.zero
    | text => convert type text

end InputScript
