/-
Module: InputScript.Proofs.Binding
Purpose: When an overload takes tokens.  Every token stands beside the type of the parameter that takes
  it; the first of them that cannot be converted decides how the overload fails, and a conversion
  fails with a fault only on a decimal integer with too many digits.
Main exports: IsOversized, ParameterType.readsDecimals
-/
import InputScript.Catalog.Resolve
import InputScript.Proofs.Decimals

namespace InputScript

open Text Number

/-! ### Conversions that end in a fault -/

/-- A token that is, without the blanks around it, a decimal integer with more digits than are
converted. -/
def IsOversized (token : String) (refusal : TooManyDigits) : Prop :=
  ∃ negative digits, IsDecimal (trim token.toList) negative digits ∧ digitLimit < digits.length ∧
    refusal = ⟨digits.length⟩

/-- Whether tokens of the type can be decimal integers. -/
def ParameterType.readsDecimals : ParameterType → Bool
  | .integer _ | .enumeration _ => true
  | .float | .boolean | .text => false

variable {refusal : TooManyDigits}

/-- What a text is read as that may be a hexadecimal literal, a decimal integer or something else. -/
theorem readsDecimals_error {α : Type} {text : List Char} {hex : Nat → α} {decimal : Int → α}
    {other : α} :
    (match hexValue? text with
      | some value => Except.ok (hex value)
      | none =>
          match signedDigits? text with
          | some (negative, digits) => (limitedDecimal negative digits).map decimal
          | none => .ok other) = .error refusal ↔
    ∃ negative digits, IsDecimal text negative digits ∧ digitLimit < digits.length ∧
      refusal = ⟨digits.length⟩ := by
  constructor
  · intro failed
    split at failed
    · cases failed
    · split at failed
      · next negative digits found =>
          have refused : limitedDecimal negative digits = .error refusal := by
            cases limited : limitedDecimal negative digits with
            | ok value =>
                rw [limited] at failed
                cases failed
            | error reason =>
                rw [limited] at failed
                cases failed
                rfl
          exact ⟨negative, digits, signedDigits?_eq_some.mp found, limitedDecimal_error.mp refused⟩
      · cases failed
  · rintro ⟨negative, digits, written, long⟩
    rw [written.hexValue?_eq, signedDigits?_eq_some.mpr written]
    simp only [limitedDecimal_error.mpr long]
    rfl

theorem acceptOr_tooManyDigits {α : Type} {rejection : Rejection} {wrap : α → Value}
    {result : Except TooManyDigits (Option α)} :
    acceptOr rejection wrap result = .error (.tooManyDigits refusal) ↔ result = .error refusal := by
  cases result with
  | error reason => simp [acceptOr]
  | ok value => cases value <;> simp [acceptOr]

variable {type : ParameterType}

theorem convert_tooManyDigits_iff {text : List Char} :
    convert type text = .error (.tooManyDigits refusal) ↔
      type.readsDecimals = true ∧
        ∃ negative digits, IsDecimal text negative digits ∧ digitLimit < digits.length ∧
          refusal = ⟨digits.length⟩ := by
  cases type with
  | integer width =>
      have read : toInteger width text = .error refusal ↔ _ := readsDecimals_error
      rw [convert, acceptOr_tooManyDigits, read]
      exact (and_iff_right rfl).symm
  | enumeration members =>
      have read : toMember members text = .error refusal ↔ _ := readsDecimals_error
      rw [convert, acceptOr_tooManyDigits, read]
      exact (and_iff_right rfl).symm
  | float => simp [convert, acceptOr_tooManyDigits, ParameterType.readsDecimals]
  | boolean => simp [convert, acceptOr_tooManyDigits, ParameterType.readsDecimals]
  | text => simp [convert, ParameterType.readsDecimals]

theorem coerce_converts (notText : type ≠ .text) (token : String) :
    coerce (some token) type =
      match trim token.toList with
      | [] => .ok type.zero
      | text => convert type text := by
  cases type with
  | text => exact absurd rfl notText
  | integer width => rfl
  | float => rfl
  | boolean => rfl
  | enumeration members => rfl

/-- A conversion ends in a fault exactly for a decimal integer with too many digits, where an integer
or a member is wanted. -/
theorem coerce_tooManyDigits_iff {token : String} :
    coerce (some token) type = .error (.tooManyDigits refusal) ↔
      type.readsDecimals = true ∧ IsOversized token refusal := by
  have blank (nothing : trim token.toList = []) : ¬ IsOversized token refusal := by
    rintro ⟨negative, digits, written, _⟩
    exact written.ne_nil nothing
  by_cases isText : type = .text
  · subst isText
    simp [coerce, ParameterType.readsDecimals]
  · rw [coerce_converts isText]
    split
    · next nothing => simp [blank nothing]
    · exact convert_tooManyDigits_iff

namespace Catalog

/-! ### Tokens and the parameters that take them -/

/-- The error of a result. -/
def errorOf {ε α : Type} : Except ε α → Option ε
  | .ok _ => none
  | .error error => some error

variable {ε α : Type}

theorem errorOf_eq_none {result : Except ε α} :
    errorOf result = none ↔ ∃ value, result = .ok value := by
  cases result <;> simp [errorOf]

theorem errorOf_eq_some {result : Except ε α} {error : ε} :
    errorOf result = some error ↔ result = .error error := by
  cases result <;> simp [errorOf]

theorem errorOf_bind {β : Type} (first : Except ε α) {next : α → Except ε β} {later : Option ε}
    (laterEq : ∀ value, errorOf (next value) = later) :
    errorOf (first >>= next) = (errorOf first).or later := by
  cases first with
  | error error => rfl
  | ok value => exact laterEq value

theorem errorOf_bind_pure {β : Type} (first : Except ε α) (change : α → β) :
    errorOf (first >>= fun value => pure (change value)) = errorOf first := by
  cases first <;> rfl

/-- Why a token cannot be converted to a type. -/
def misfit? (pair : ParameterType × String) : Option CoercionError :=
  errorOf (coerce (some pair.2) pair.1)

theorem findSome?_misfit?_cons (pair : ParameterType × String)
    (rest : List (ParameterType × String)) :
    (pair :: rest).findSome? misfit? = (misfit? pair).or (rest.findSome? misfit?) := by
  rw [List.findSome?_cons]
  cases misfit? pair <;> rfl

theorem errorOf_bindDeclared (parameters : List (ParameterType × Option Value))
    (tokens : List String) :
    errorOf (bindDeclared parameters tokens) =
      ((parameters.map (·.1)).zip tokens).findSome? misfit? := by
  induction parameters generalizing tokens with
  | nil => rfl
  | cons parameter rest hypothesis =>
      obtain ⟨type, defaultValue⟩ := parameter
      cases tokens with
      | nil =>
          rw [bindDeclared, errorOf_bind_pure, hypothesis]
          simp
      | cons token tokens =>
          have split : errorOf (bindDeclared ((type, defaultValue) :: rest) (token :: tokens)) =
              (misfit? (type, token)).or (errorOf (bindDeclared rest tokens)) :=
            errorOf_bind _ fun value => errorOf_bind_pure _ _
          rw [split, hypothesis, List.map_cons, List.zip_cons_cons, findSome?_misfit?_cons]

theorem errorOf_coerceAll (type : ParameterType) (tokens : List String) :
    errorOf (coerceAll type tokens) = (tokens.map (type, ·)).findSome? misfit? := by
  induction tokens with
  | nil => rfl
  | cons token tokens hypothesis =>
      have split : errorOf (coerceAll type (token :: tokens)) =
          (misfit? (type, token)).or (errorOf (coerceAll type tokens)) := by
        rw [coerceAll, List.mapM_cons]
        exact errorOf_bind _ fun value => errorOf_bind_pure _ _
      rw [split, hypothesis, List.map_cons, findSome?_misfit?_cons]

namespace Overload

/-- The tokens with the types of the parameters that take them: first the declared parameters, and then
the parameter for further arguments, if there is one. -/
def pairs (overload : Overload) (tokens : List String) : List (ParameterType × String) :=
  overload.declaration.parameterTypes.zip tokens ++
    match overload.declaration.variadic with
    | none => []
    | some type => (tokens.drop overload.arity).map (type, ·)

/-- Every token can be converted to the type of the parameter that takes it. -/
def Binds (overload : Overload) (tokens : List String) : Prop :=
  ∀ pair ∈ overload.pairs tokens, ∃ value, coerce (some pair.2) pair.1 = .ok value

/-- The first token that cannot be converted is a decimal integer with too many digits, where an
integer or a member is wanted. -/
def Stumbles (overload : Overload) (tokens : List String) (refusal : TooManyDigits) : Prop :=
  ∃ earlier type token later, overload.pairs tokens = earlier ++ (type, token) :: later ∧
    (∀ pair ∈ earlier, ∃ value, coerce (some pair.2) pair.1 = .ok value) ∧
    type.readsDecimals = true ∧ IsOversized token refusal

/-- The overload neither takes the tokens nor stumbles over one of them. -/
def Rejects (overload : Overload) (tokens : List String) : Prop :=
  ¬ overload.Binds tokens ∧ ∀ refusal, ¬ overload.Stumbles tokens refusal

/-- There is a default value, or its absence, for each declared parameter. -/
def IsFitted (overload : Overload) : Prop :=
  overload.defaults.length = overload.arity

theorem isFitted_make (declaration : Declaration) (defaults : Option (List (Option Value)))
    (implementation : Implementation) : (make declaration defaults implementation).IsFitted := by
  simp only [IsFitted, make, fitDefaults, arity, List.length_take, List.length_append,
    List.length_replicate]
  omega

/-- The first token that cannot be converted decides how an overload fails. -/
theorem errorOf_bindArguments {overload : Overload} (fitted : overload.IsFitted)
    (tokens : List String) :
    errorOf (bindArguments overload tokens) = (overload.pairs tokens).findSome? misfit? := by
  have types : (overload.declaration.parameterTypes.zip overload.defaults).map (·.1) =
      overload.declaration.parameterTypes := List.map_fst_zip (Nat.le_of_eq fitted.symm)
  have declared := errorOf_bindDeclared
    (overload.declaration.parameterTypes.zip overload.defaults) tokens
  rw [types] at declared
  rw [pairs, List.findSome?_append, ← declared, bindArguments]
  apply errorOf_bind
  intro values
  cases overload.declaration.variadic with
  | none => rfl
  | some type => rw [← errorOf_coerceAll]; exact errorOf_bind_pure _ _

section Cases

variable {overload : Overload} {tokens : List String}

theorem binds_iff (fitted : overload.IsFitted) :
    overload.Binds tokens ↔ ∃ arguments, bindArguments overload tokens = .ok arguments := by
  rw [← errorOf_eq_none, errorOf_bindArguments fitted, List.findSome?_eq_none_iff]
  simp only [Binds, misfit?, errorOf_eq_none]

theorem stumbles_iff (fitted : overload.IsFitted) {refusal : TooManyDigits} :
    overload.Stumbles tokens refusal ↔
      bindArguments overload tokens = .error (.tooManyDigits refusal) := by
  rw [← errorOf_eq_some, errorOf_bindArguments fitted, List.findSome?_eq_some_iff]
  simp only [misfit?, errorOf_eq_none, errorOf_eq_some, coerce_tooManyDigits_iff]
  constructor
  · rintro ⟨earlier, type, token, later, split, converted, wanted, oversized⟩
    exact ⟨earlier, (type, token), later, split, ⟨wanted, oversized⟩, converted⟩
  · rintro ⟨earlier, ⟨type, token⟩, later, split, ⟨wanted, oversized⟩, converted⟩
    exact ⟨earlier, type, token, later, split, converted, wanted, oversized⟩

theorem rejects_iff (fitted : overload.IsFitted) :
    overload.Rejects tokens ↔
      ∃ rejection, bindArguments overload tokens = .error (.rejected rejection) := by
  rw [Rejects, binds_iff fitted]
  simp only [stumbles_iff fitted]
  cases bindArguments overload tokens with
  | ok arguments => simp
  | error error => cases error <;> simp

end Cases

end Overload

end Catalog

end InputScript
