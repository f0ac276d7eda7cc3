/-
Module: InputScript.Catalog.Overload
Purpose: One operation that a script can call: its name, what it takes, and what it does.
Main exports: Parameter, Implementation, Declaration, Overload.signature
-/
import InputScript.Action.Request
import InputScript.Coercion

namespace InputScript.Catalog

/-! ### What is declared -/

/-- A parameter of the function behind an operation. -/
inductive Parameter where
  | positional (name : String) (defaultValue : Option Value)
  /-- The parameter that takes all further arguments; parameters after it take none by position. -/
  | remaining (name : String)

/-- The name of the parameter that takes the signal of the run. -/
def signalParameter : String := "signal"

/-- The default values of the parameters that take arguments by position, the signal left out. -/
def positionalDefaults : List Parameter → List (Option Value)
  | [] => []
  | .remaining _ :: _ => []
  | .positional name defaultValue :: rest =>
    if name == signalParameter then positionalDefaults rest
    else defaultValue :: positionalDefaults rest

/-- The function behind an operation. -/
structure Implementation where
  /-- The name under which its calls are counted. -/
  label : String
  /-- Its parameters, if they are known. -/
  parameters : Option (List Parameter)
  documentation : Option String := none
  /-- Whether it runs beside the run's other activities, and not on a worker. -/
  isAsync : Bool := false
  body : Action.Body

/-- What an operation is declared to be. -/
structure Declaration where
  name : String
  parameterTypes : List ParameterType := []
  /-- The element type of further arguments, if the operation takes any number of them. -/
  variadic : Option ParameterType := none
  /-- Whether the operation is given the signal of the run. -/
  cancellable : Bool := false

/-! ### Operations -/

/-- One operation.  Several of one name are overloads of each other. -/
structure Overload where
  declaration : Declaration
  /-- The default values of the parameters; a parameter without one is required. -/
  defaults : List (Option Value)
  implementation : Implementation

namespace Overload

/-- Cut a list of default values to a length; missing ones are required. -/
def fitDefaults (count : Nat) (defaults : List (Option Value)) : List (Option Value) :=
  (defaults ++ List.replicate (count - defaults.length) none).take count

/-- The operation of a declaration and a function.  Default values that are not given are those of
the function. -/
def make (declaration : Declaration) (defaults : Option (List (Option Value)))
    (implementation : Implementation) : Overload :=
  let given := defaults.getD (positionalDefaults (implementation.parameters.getD []))
  ⟨declaration, fitDefaults declaration.parameterTypes.length given, implementation⟩

/-- The name of the operation. -/
def name (overload : Overload) : String := overload.declaration.name

/-- The number of declared parameters. -/
def arity (overload : Overload) : Nat := overload.declaration.parameterTypes.length

/-- The number of arguments that must be given: the parameters before the first default value. -/
def requiredCount (overload : Overload) : Nat :=
  (overload.defaults.takeWhile Option.isNone).length

/-- Whether the operation takes any number of further arguments. -/
def isVariadic (overload : Overload) : Bool := overload.declaration.variadic.isSome

/-- Whether the operation takes a number of arguments. -/
def accepts (overload : Overload) (count : Int) : Bool :=
  (overload.requiredCount : Int) ≤ count && (overload.isVariadic || count ≤ overload.arity)

/-- Whether the operation takes no argument at all. -/
def isNullary (overload : Overload) : Bool :=
  overload.arity == 0 && !overload.isVariadic

/-- The signature of the operation. -/
def signature (overload : Overload) : String :=
  let declared := overload.declaration.parameterTypes.map (·.name)
  let further := overload.declaration.variadic.toList.map fun type => "*" ++ type.name
  overload.name ++ "(" ++ String.intercalate ", " (declared ++ further) ++ ")"

/-- Call the operation by itself, without a signal.  Arguments that are left out have their default
values. -/
def callDirectly (overload : Overload) (arguments : List Value) : ActionActivity Value :=
  let further := (overload.defaults.drop arguments.length).map (·.getD .none)
  overload.implementation.body ⟨arguments ++ further, false, 1⟩

end Overload

end InputScript.Catalog
