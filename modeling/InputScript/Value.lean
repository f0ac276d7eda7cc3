/-
Module: InputScript.Value
Purpose: The values that actions take and return, and their three written forms: the form shown in
  log lines, the plain form, and the token that stands for a value in an argument list.  A value with
  an integer of too many digits has no written form.
Main exports: Enumeration, Member, Value, shown?, plain?, token?
-/
import InputScript.Number.Literal
import InputScript.Number.Shortest
import InputScript.Text.Folding
import InputScript.Text.Quoted

namespace InputScript

open Text

/-! ### Enumerations -/

/-- What a member of an enumeration stands for. -/
inductive MemberValue where
  | number (value : Int)
  | text (value : String)
  deriving DecidableEq, Repr

/-- A named list of members.  A name whose value an earlier name has already is a second name of that
earlier member. -/
structure Enumeration where
  name : String
  entries : List (String × MemberValue)
  deriving DecidableEq, Repr

/-- A member of an enumeration under its first name. -/
structure Member where
  enumeration : String
  name : String
  value : MemberValue
  /-- Whether all values of the enumeration are numbers, so that a member counts as a number. -/
  numeric : Bool
  deriving DecidableEq, Repr

namespace Enumeration

/-- Whether every value is a number. -/
def isNumeric (enumeration : Enumeration) : Bool :=
  enumeration.entries.all fun entry =>
    match entry.2 with
    | .number _ => true
    | .text _ => false

/-- The member of a value, under the first name that has it. -/
def memberOf? (enumeration : Enumeration) (value : MemberValue) : Option Member :=
  (enumeration.entries.find? (·.2 == value)).map fun entry =>
    ⟨enumeration.name, entry.1, entry.2, enumeration.isNumeric⟩

/-- The member of a name, exactly as it is written. -/
def named? (enumeration : Enumeration) (name : String) : Option Member :=
  (enumeration.entries.find? (·.1 == name)).bind fun entry => enumeration.memberOf? entry.2

/-- The member of a name in any letter case; second names count too. -/
def namedFolded? (enumeration : Enumeration) (name : String) : Option Member :=
  (enumeration.entries.find? (sameFolded ·.1 name)).bind fun entry => enumeration.memberOf? entry.2

/-- The member that an omitted argument stands for: the one of value zero, else the first. -/
def zero? (enumeration : Enumeration) : Option Member :=
  match enumeration.memberOf? (.number 0) with
  | some member => some member
  | none => enumeration.entries.head?.bind fun entry => enumeration.memberOf? entry.2

end Enumeration

/-! ### Values -/

/-- A value that an action takes or returns. -/
inductive Value where
  | none
  | boolean (value : Bool)
  | integer (value : Int)
  | float (value : Float)
  | text (value : String)
  | member (value : Member)
  | list (values : List Value)
  /-- The cancel signal of the run. -/
  | signal
  deriving Inhabited

/-- The cancel signal as log lines show it. -/
def signalText (isSet : Bool) : String :=
  if isSet then "CancelSignal(set=True)" else "CancelSignal(set=False)"

/-- The value of a member as it is shown with the member. -/
def MemberValue.shown? : MemberValue → Option String
  | .number value => Number.decimalText? value
  | .text value => some (quoted value)

/-- A member as log lines show it. -/
def Member.shown? (member : Member) : Option String :=
  member.value.shown?.map fun value => s!"<{member.enumeration}.{member.name}: {value}>"

/-- A member in plain text: the number of a numeric one, else its qualified name. -/
def Member.plain? (member : Member) : Option String :=
  match member.numeric, member.value with
  | true, .number value => Number.decimalText? value
  | _, _ => some s!"{member.enumeration}.{member.name}"

namespace Value

mutual

/-- A value as log lines show it; texts are quoted.  The state of the signal is that of the moment. -/
def shown? (signalSet : Bool) : Value → Option String
  | .none => some "None"
  | .boolean value => some (if value then "True" else "False")
  | .integer value => Number.decimalText? value
  | .float value => some (Number.render value)
  | .text value => some (quoted value)
  | .member value => value.shown?
  | .list values =>
    (shownEach? signalSet values).map fun texts => "[" ++ String.intercalate ", " texts ++ "]"
  | .signal => some (signalText signalSet)

/-- Values as log lines show them, one by one. -/
def shownEach? (signalSet : Bool) : List Value → Option (List String)
  | [] => some []
  | value :: rest => do
    let text ← shown? signalSet value
    let texts ← shownEach? signalSet rest
    return text :: texts

end

/-- A value in plain text; only what stands inside a list is quoted. -/
def plain? (signalSet : Bool) : Value → Option String
  | .text value => some value
  | .member value => value.plain?
  | value => value.shown? signalSet

/-- The token that stands for a value when it is substituted into an argument list. -/
def token? (signalSet : Bool) : Value → Option String
  | .none => some ""
  | .boolean value => some (if value then "true" else "false")
  | .member value => some value.name
  | value => value.plain? signalSet

/-- The token that stands for a value that has one. -/
def token (signalSet : Bool) (value : Value) : String :=
  (value.token? signalSet).getD ""

/-- The name of a value's kind in messages about unsuitable arguments. -/
def kindName : Value → String
  | .none => "NoneType"
  | .boolean _ => "bool"
  | .integer _ => "int"
  | .float _ => "float"
  | .text _ => "str"
  | .member value => value.enumeration
  | .list _ => "list"
  | .signal => "CancelSignal"

end Value

end InputScript
