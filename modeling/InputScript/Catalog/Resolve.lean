/-
Module: InputScript.Catalog.Resolve
Purpose: The choice of an overload for a name and tokens, and its arguments.
Main exports: bindArguments, Resolution, chooseFrom, Registry.resolve
-/
import InputScript.Catalog.Registry

namespace InputScript.Catalog

/-- Convert tokens to values of one type. -/
def coerceAll (type : ParameterType) (tokens : List String) : Except CoercionError (List Value) :=
  tokens.mapM fun token => coerce (some token) type

/-- The arguments for declared parameters, each with its default value: the tokens converted one by
one, and the default value or else the zero value of the type where tokens are missing. -/
def bindDeclared : List (ParameterType × Option Value) → List String →
    Except CoercionError (List Value)
  | [], _ => .ok []
  | (type, defaultValue) :: rest, [] => do
    return defaultValue.getD type.zero :: (← bindDeclared rest [])
  | (type, _) :: rest, token :: tokens => do
    let value ← coerce (some token) type
    return value :: (← bindDeclared rest tokens)

/-- The arguments of an overload for tokens. -/
def bindArguments (overload : Overload) (tokens : List String) :
    Except CoercionError (List Value) := do
  let declared ← bindDeclared (overload.declaration.parameterTypes.zip overload.defaults) tokens
  match overload.declaration.variadic with
  | none => return declared
  | some type => return declared ++ (← coerceAll type (tokens.drop overload.arity))

/-- An overload that was chosen, with its arguments. -/
structure Resolution where
  overload : Overload
  arguments : List Value

/-- The names of the arguments that are handed over by name. -/
def Resolution.keywords (resolution : Resolution) : List String :=
  if resolution.overload.declaration.cancellable then [signalParameter] else []

/-- The first overload whose arguments can all be converted.  A token that cannot be converted rules
out one overload; a decimal with too many digits ends the search. -/
def chooseFrom (tokens : List String) : List Overload →
    Except Number.TooManyDigits (Option Resolution)
  | [] => .ok none
  | overload :: rest =>
    match bindArguments overload tokens with
    | .ok arguments => .ok (some ⟨overload, arguments⟩)
    | .error (.rejected _) => chooseFrom tokens rest
    | .error (.tooManyDigits refusal) => .error refusal

/-- The overloads that are tried for a name and tokens, given those for the number of tokens and
those for one argument, and the tokens that they are tried with: where no overload takes the number
of tokens, several tokens are joined into one. -/
def attempts (candidates collapsed : List Overload) (tokens : List String) :
    List String × List Overload :=
  if candidates.isEmpty && tokens.length > 1 then ([String.intercalate " " tokens], collapsed)
  else (tokens, candidates)

/-- The result of a search as a call or a fault. -/
def settle (name : String) (count : Nat) :
    Except Number.TooManyDigits (Option Resolution) → Except Fault Resolution
  | .ok (some resolution) => .ok resolution
  | .ok none => .error (.unresolved name count)
  | .error refusal => .error (.ofTooManyDigits refusal)

/-- Choose the overload for a name and tokens. -/
def Registry.resolve (registry : Registry) (name : String) (tokens : List String) :
    Except Fault Resolution :=
  let (used, tried) :=
    attempts (registry.candidates name tokens.length) (registry.collapseCandidates name) tokens
  settle name tokens.length (chooseFrom used tried)

end InputScript.Catalog
