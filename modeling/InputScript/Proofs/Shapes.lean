/-
Module: InputScript.Proofs.Shapes
Purpose: The shape of registered overloads.  However its default values are given, an overload has one place
  for each declared parameter, takes the numbers of arguments from its required ones on, and its default
  values can be read by their places.  A call without arguments goes to the first overload that takes none.
Main exports: Overload.IsShaped, Overload.bindByPlace, shapes_after
-/
import InputScript.Proofs.Resolution
import Mathlib.Data.List.TakeWhile

namespace InputScript.Catalog

namespace Overload

/-! ### Default values by their places -/

/-- A place of the default values has the value given for it; what is not given is required. -/
theorem fitDefaults_getElem? (given : List (Option Value)) {count place : Nat} (inside : place < count) :
    (fitDefaults count given)[place]? = some given[place]?.join := by
  rw [fitDefaults, List.getElem?_take_of_lt inside]
  by_cases early : place < given.length
  · rw [List.getElem?_append_left early, List.getElem?_eq_getElem early]
    rfl
  · rw [List.getElem?_append_right (Nat.le_of_not_lt early),
      List.getElem?_eq_none (Nat.le_of_not_lt early), List.getElem?_replicate_of_lt (by omega)]
    rfl

/-- What can go wrong when the arguments of an overload are made place by place. -/
inductive PlaceFault where
  | coercion (error : CoercionError)
  /-- There is no such place among the default values. -/
  | outOfRange (place : Nat)

/-- The argument for a declared parameter: its token converted or, without one, the default value that is
read by the place of the parameter. -/
def bindPlace (overload : Overload) (tokens : List String) (type : ParameterType) (place : Nat) :
    Except PlaceFault Value :=
  match tokens[place]? with
  | some token => (coerce (some token) type).mapError .coercion
  | none =>
    match overload.defaults[place]? with
    | some defaultValue => .ok (defaultValue.getD type.zero)
    | none => .error (.outOfRange place)

/-- The arguments of an overload for tokens, made place by place. -/
def bindByPlace (overload : Overload) (tokens : List String) : Except PlaceFault (List Value) := do
  let declared ← overload.declaration.parameterTypes.zipIdx.mapM fun entry =>
    overload.bindPlace tokens entry.1 entry.2
  match overload.declaration.variadic with
  | none => return declared
  | some type =>
    return declared ++ (← (coerceAll type (tokens.drop overload.arity)).mapError .coercion)

variable {overload : Overload}

theorem bindPlace_token {tokens : List String} {place : Nat} (more : place < tokens.length)
    (type : ParameterType) :
    overload.bindPlace tokens type place = (coerce (some tokens[place]) type).mapError .coercion := by
  rw [bindPlace, List.getElem?_eq_getElem more]

theorem bindPlace_default {tokens : List String} {place : Nat} (ended : tokens.length ≤ place)
    (inside : place < overload.defaults.length) (type : ParameterType) :
    overload.bindPlace tokens type place = .ok (overload.defaults[place].getD type.zero) := by
  rw [bindPlace, List.getElem?_eq_none ended, List.getElem?_eq_getElem inside]

theorem mapError_bind {ε ε' α β : Type} (change : ε → ε') (first : Except ε α) (next : α → Except ε β) :
    (first >>= next).mapError change =
      first.mapError change >>= fun value => (next value).mapError change := by
  cases first <;> rfl

/-- From a place on, as many default values as parameters are left, and each is read at its place. -/
theorem mapM_bindPlace (tokens : List String) {types : List ParameterType} {place : Nat}
    (left : (overload.defaults.drop place).length = types.length) :
    (types.zipIdx place).mapM (fun entry => overload.bindPlace tokens entry.1 entry.2) =
      (bindDeclared (types.zip (overload.defaults.drop place)) (tokens.drop place)).mapError
        PlaceFault.coercion := by
  -- The place moves along with the parameters, and tokens and default values are dropped up to it.
  induction types generalizing place with
  | nil => rfl
  | cons type types hypothesis =>
      have inside : place < overload.defaults.length := by
        rw [List.length_drop, List.length_cons] at left
        omega
      rw [List.drop_eq_getElem_cons inside, List.length_cons, List.length_cons,
        Nat.add_right_cancel_iff] at left
      rw [List.zipIdx_cons, List.mapM_cons, hypothesis left, List.drop_eq_getElem_cons inside,
        List.zip_cons_cons]
      by_cases more : place < tokens.length
      · rw [bindPlace_token more, List.drop_eq_getElem_cons more, bindDeclared, mapError_bind]
        simp only [mapError_bind]
        rfl
      · rw [Nat.not_lt] at more
        rw [bindPlace_default more inside, List.drop_eq_nil_of_le more,
          List.drop_eq_nil_of_le (Nat.le_succ_of_le more), bindDeclared, mapError_bind]
        rfl

/-- Reading the default values by their places never leaves them. -/
theorem bindByPlace_eq (fitted : overload.IsFitted) (tokens : List String) :
    overload.bindByPlace tokens = (bindArguments overload tokens).mapError .coercion := by
  have left : (overload.defaults.drop 0).length = overload.declaration.parameterTypes.length := fitted
  have declared := mapM_bindPlace tokens left
  rw [List.drop_zero, List.drop_zero] at declared
  rw [bindByPlace, bindArguments, declared, mapError_bind]
  cases overload.declaration.variadic with
  | none => rfl
  | some type =>
      simp only [mapError_bind]
      rfl

/-! ### The numbers of arguments -/

/-- The shape of an overload with one place for each declared parameter. -/
structure IsShaped (overload : Overload) : Prop where
  /-- There are as many default values as parameters. -/
  defaults_length : overload.defaults.length = overload.arity
  required_le : overload.requiredCount ≤ overload.arity
  /-- The required parameters have no default value. -/
  required : ∀ place < overload.requiredCount, overload.defaults[place]? = some none
  /-- They end before the first parameter that has one. -/
  optional : overload.requiredCount < overload.arity →
    ∃ value, overload.defaults[overload.requiredCount]? = some (some value)
  /-- The numbers of arguments that are taken have no gap, and no upper bound if there may be further ones. -/
  accepted : ∀ count : Int, overload.accepts count = true ↔
    overload.requiredCount ≤ count ∧ (overload.isVariadic = false → count ≤ overload.arity)
  /-- The default values are read inside their places. -/
  bound : ∀ tokens, overload.bindByPlace tokens = (bindArguments overload tokens).mapError .coercion

theorem getElem?_required {place : Nat} (inside : place < overload.requiredCount) :
    overload.defaults[place]? = some none := by
  have early : place < (overload.defaults.takeWhile Option.isNone).length := inside
  have empty := List.mem_takeWhile_imp (List.getElem_mem early)
  rw [Option.isNone_iff_eq_none] at empty
  rw [← List.takeWhile_append_dropWhile (p := Option.isNone) (l := overload.defaults),
    List.getElem?_append_left early, List.getElem?_eq_getElem early, empty]

/-- Behind the required parameters there is a default value. -/
theorem exists_getElem?_requiredCount (fewer : overload.requiredCount < overload.defaults.length) :
    ∃ value, overload.defaults[overload.requiredCount]? = some (some value) := by
  have first : overload.defaults[overload.requiredCount]? =
      (overload.defaults.dropWhile Option.isNone).head? := by
    rw [requiredCount]
    induction overload.defaults with
    | nil => rfl
    | cons defaultValue rest hypothesis =>
        cases defaultValue with
        | none => exact hypothesis
        | some value => rfl
  have given := List.head?_dropWhile_not Option.isNone overload.defaults
  rw [← first, List.getElem?_eq_getElem fewer] at given
  obtain ⟨value, isValue⟩ := Option.isSome_iff_exists.mp (Option.isNone_eq_false_iff.mp given)
  exact ⟨value, by rw [List.getElem?_eq_getElem fewer, isValue]⟩

theorem isShaped_of_isFitted (fitted : overload.IsFitted) : overload.IsShaped where
  defaults_length := fitted
  required_le := by
    rw [← fitted, requiredCount]
    exact (List.takeWhile_sublist _).length_le
  required _ := getElem?_required
  optional fewer := exists_getElem?_requiredCount (fitted ▸ fewer)
  accepted := by
    intro count
    rw [accepts]
    cases overload.isVariadic <;> simp
  bound := bindByPlace_eq fitted

/-! ### Calls without arguments -/

/-- The arguments of an overload where none is given: its default values, and for a parameter without one the
zero value of its type. -/
def omitted (overload : Overload) : List Value :=
  (overload.declaration.parameterTypes.zip overload.defaults).map fun entry => entry.2.getD entry.1.zero

theorem bindDeclared_nil (parameters : List (ParameterType × Option Value)) :
    bindDeclared parameters [] = .ok (parameters.map fun entry => entry.2.getD entry.1.zero) := by
  induction parameters with
  | nil => rfl
  | cons parameter rest hypothesis =>
      rw [bindDeclared, hypothesis]
      rfl

theorem bindArguments_nil (overload : Overload) : bindArguments overload [] = .ok overload.omitted := by
  rw [bindArguments, bindDeclared_nil]
  cases overload.declaration.variadic with
  | none => rfl
  | some type =>
      rw [List.drop_nil]
      exact congrArg Except.ok (List.append_nil _)

/-- An operation that takes no argument at all takes none. -/
theorem accepts_of_isNullary (fitted : overload.IsFitted) (nullary : overload.isNullary = true) :
    overload.accepts 0 = true := by
  rw [isNullary, Bool.and_eq_true, beq_iff_eq] at nullary
  have least := (isShaped_of_isFitted fitted).required_le
  rw [accepts, Bool.and_eq_true, decide_eq_true_eq, Bool.or_eq_true, decide_eq_true_eq]
  omega

end Overload

theorem chooseFrom_nil (overloads : List Overload) :
    chooseFrom [] overloads = .ok (overloads.head?.map fun chosen => ⟨chosen, chosen.omitted⟩) := by
  cases overloads with
  | nil => rfl
  | cons overload rest =>
      rw [chooseFrom, Overload.bindArguments_nil]
      rfl

/-- A call without arguments goes to the first overload that takes none. -/
theorem resolve_nothing (registry : Registry) (name : String) :
    registry.resolve name [] =
      match (registry.overloads name).find? (·.accepts 0) with
      | some chosen => .ok ⟨chosen, chosen.omitted⟩
      | none => .error (.unresolved name 0) := by
  have first : (registry.candidates name 0).head? = (registry.overloads name).find? (·.accepts 0) :=
    List.head?_filter
  have direct : registry.resolve name [] = settle name 0 (chooseFrom [] (registry.candidates name 0)) := by
    simp [Registry.resolve, attempts]
  rw [direct, chooseFrom_nil, first]
  cases (registry.overloads name).find? (·.accepts 0) <;> rfl

/-- The overloads of a name after any sequence of operations. -/
theorem overloads_after (history : List Operation) (name : String) :
    (Memo.start.after history).registry.overloads name =
      (registeredBy history).filter (·.name == name) := by
  rw [(Memo.sound_after_start history).2, Registry.overloads_registerAll]
  rfl

/-- After any sequence of operations, every overload has its shape, with the default values that were given
for it or else those of its function.  A call without arguments goes to the first overload of the name that
takes none, and fails only if there is no such overload; there is one where a name is that of an operation
that takes no argument at all. -/
theorem shapes_after (history : List Operation) :
    (∀ declaration defaults implementation,
      .register declaration defaults implementation ∈ history →
        ∃ overload ∈ (Memo.start.after history).registry.overloads declaration.name,
          overload = .make declaration defaults implementation ∧
          ∀ place < declaration.parameterTypes.length,
            overload.defaults[place]? =
              some (defaults.getD (positionalDefaults (implementation.parameters.getD [])))[place]?.join) ∧
    ∀ name,
      (∀ overload ∈ (Memo.start.after history).registry.overloads name, overload.IsShaped) ∧
      ((Memo.start.after history).resolve name []).1 =
        (match ((Memo.start.after history).registry.overloads name).find? (·.accepts 0) with
        | some chosen => .ok ⟨chosen, chosen.omitted⟩
        | none => .error (.unresolved name 0)) ∧
      ((∃ resolution, ((Memo.start.after history).resolve name []).1 = .ok resolution) ↔
        ∃ overload ∈ (Memo.start.after history).registry.overloads name, overload.accepts 0 = true) ∧
      ((Memo.start.after history).registry.isZeroArity name = true →
        ∃ overload ∈ (Memo.start.after history).registry.overloads name, overload.accepts 0 = true) := by
  have fitted (name : String) : ∀ overload ∈ (Memo.start.after history).registry.overloads name,
      overload.IsFitted := by
    intro overload member
    rw [overloads_after] at member
    exact isFitted_of_mem_registeredBy (List.mem_of_mem_filter member)
  constructor
  · intro declaration defaults implementation member
    have registered : Overload.make declaration defaults implementation ∈ registeredBy history :=
      List.mem_filterMap.mpr ⟨_, member, rfl⟩
    refine ⟨_, ?_, rfl, fun place inside => Overload.fitDefaults_getElem? _ inside⟩
    rw [overloads_after]
    exact List.mem_filter.mpr ⟨registered, beq_self_eq_true declaration.name⟩
  · intro name
    have resolved := (Memo.sound_after_start history).1.resolve_fst name []
    rw [resolve_nothing] at resolved
    refine ⟨fun overload member => Overload.isShaped_of_isFitted (fitted name overload member), resolved,
      ?_, ?_⟩
    · rw [resolved, ← List.find?_isSome]
      cases ((Memo.start.after history).registry.overloads name).find? (·.accepts 0) <;> simp
    · intro zeroArity
      obtain ⟨overload, member, nullary⟩ := List.any_eq_true.mp zeroArity
      exact ⟨overload, member, Overload.accepts_of_isNullary (fitted name overload member) nullary⟩

end InputScript.Catalog
