/-
Module: InputScript.Proofs.Calls
Purpose: The calls that a search comes to are well typed.  Every token becomes a value of the type that
  stands at its place, a parameter without a token has its default value or the zero value of its type,
  and every overload that was passed over has a token that is no value of the type at its place.
Main exports: IntegerType.Spans, Enumeration.HasMember, resolve_takesAs
-/
import InputScript.Proofs.Resolution

namespace InputScript

open Text Number

/-! ### Values of a type -/

/-- The numbers of an integer type. -/
def IntegerType.Spans : IntegerType → Int → Prop
  | .int32, value => -(twoTo 31) ≤ value ∧ value < twoTo 31
  | .uint32, value => 0 ≤ value ∧ value < twoTo 32
  | .handle, value => -(twoTo 63) ≤ value ∧ value < twoTo 63
  | .unsignedHandle, value => 0 ≤ value ∧ value < twoTo 64

/-- The members of an enumeration are the entries whose value no earlier entry has. -/
def Enumeration.HasMember (enumeration : Enumeration) (member : Member) : Prop :=
  ∃ earlier name value later, enumeration.entries = earlier ++ (name, value) :: later ∧
    (∀ entry ∈ earlier, entry.2 ≠ value) ∧
    member = ⟨enumeration.name, name, value, enumeration.isNumeric⟩

/-- What a token can become where a type is wanted.  A text is the token as it stands; an enumeration
without entries has no member to give. -/
inductive ParameterType.Admits (token : String) : ParameterType → Value → Prop where
  | integer {type : IntegerType} {value : Int} (inRange : type.Spans value) :
      Admits token (.integer type) (.integer value)
  | float (value : Float) : Admits token .float (.float value)
  | boolean (value : Bool) : Admits token .boolean (.boolean value)
  | text : Admits token .text (.text token)
  | member {members : Enumeration} {member : Member} (isMember : members.HasMember member) :
      Admits token (.enumeration members) (.member member)
  | nothing {members : Enumeration} (empty : members.entries = []) :
      Admits token (.enumeration members) .none

/-! ### Conversions -/

variable {type : IntegerType} {value : Int}

theorem IntegerType.holds_iff :
    type.holds value = true ↔ type.Spans value := by
  cases type <;> simp [holds, least, limit, isSigned, bits, Spans]

theorem spans_of_inRange? {number : Int} (found : inRange? type number = some value) :
    type.Spans value := by
  rw [inRange?] at found
  split at found
  · next holds =>
      cases found
      exact IntegerType.holds_iff.mp holds
  · cases found

theorem IntegerType.twoTo_bits (type : IntegerType) :
    twoTo type.bits = 2 * twoTo (type.bits - 1) := by
  cases type <;> decide

/-- The upper half of the unsigned range is the negative half of the signed one. -/
theorem spans_of_hexInteger? {number : Nat} (found : hexInteger? type number = some value) :
    type.Spans value := by
  have double := type.twoTo_bits
  rw [← IntegerType.holds_iff, IntegerType.holds, IntegerType.least, IntegerType.limit,
    Bool.and_eq_true, decide_eq_true_eq, decide_eq_true_eq]
  rw [hexInteger?] at found
  split at found
  · cases found
  · next small =>
      cases signed : type.isSigned with
      | true =>
          rw [signed, Bool.true_and] at found
          rw [if_pos rfl, if_pos rfl]
          split at found
          · next upper =>
              cases found
              rw [decide_eq_true_eq] at upper
              omega
          · next lower =>
              cases found
              rw [decide_eq_true_eq] at lower
              omega
      | false =>
          rw [signed, Bool.false_and, if_neg (by decide)] at found
          cases found
          rw [if_neg (by decide), if_neg (by decide)]
          omega

variable {text : List Char}

/-- What holds of everything that a text can be read as holds of what it is read as. -/
theorem readsDecimals_ok {α : Type} {holds : α → Prop} {hex : Nat → Option α}
    {decimal : Int → Option α} {other : Option α} {value : α}
    (eachHex : ∀ number, ∀ value ∈ hex number, holds value)
    (eachDecimal : ∀ number, ∀ value ∈ decimal number, holds value)
    (eachOther : ∀ value ∈ other, holds value)
    (read : (match hexValue? text with
      | some number => Except.ok (hex number)
      | none =>
          match signedDigits? text with
          | some (negative, digits) => (limitedDecimal negative digits).map decimal
          | none => .ok other) = .ok (some value)) :
    holds value := by
  split at read
  · exact eachHex _ value (Except.ok.inj read)
  · split at read
    · next negative digits _ =>
        cases limited : limitedDecimal negative digits with
        | error refusal =>
            rw [limited] at read
            cases read
        | ok number =>
            rw [limited] at read
            exact eachDecimal number value (Except.ok.inj read)
    · exact eachOther value (Except.ok.inj read)

theorem spans_of_toInteger (read : toInteger type text = .ok (some value)) : type.Spans value := by
  refine readsDecimals_ok ?_ ?_ ?_ read
  · exact fun number value => spans_of_hexInteger?
  · exact fun number value => spans_of_inRange?
  · intro value found
    obtain ⟨number, _, whole⟩ := Option.bind_eq_some_iff.mp found
    obtain ⟨rounded, _, inRange⟩ := Option.bind_eq_some_iff.mp whole
    exact spans_of_inRange? inRange

namespace Enumeration

variable {enumeration : Enumeration} {member : Member}

theorem hasMember_of_memberOf? {value : MemberValue}
    (found : enumeration.memberOf? value = some member) : enumeration.HasMember member := by
  obtain ⟨⟨name, own⟩, first, rfl⟩ := Option.map_eq_some_iff.mp found
  obtain ⟨same, earlier, later, whole, before⟩ := List.find?_eq_some_iff_append.mp first
  refine ⟨earlier, name, own, later, whole, ?_, rfl⟩
  intro entry inside
  have differs := before entry inside
  rw [beq_iff_eq] at same
  rw [← same] at differs
  simpa using differs

theorem hasMember_of_namedFolded? {name : String}
    (found : enumeration.namedFolded? name = some member) : enumeration.HasMember member := by
  obtain ⟨entry, _, ofValue⟩ := Option.bind_eq_some_iff.mp found
  exact hasMember_of_memberOf? ofValue

theorem hasMember_of_zero? (found : enumeration.zero? = some member) :
    enumeration.HasMember member := by
  rw [zero?] at found
  split at found
  · next ofZero =>
      cases found
      exact hasMember_of_memberOf? ofZero
  · obtain ⟨entry, _, ofValue⟩ := Option.bind_eq_some_iff.mp found
    exact hasMember_of_memberOf? ofValue

/-- Only an enumeration without entries has no member for an omitted argument. -/
theorem entries_of_zero? (none : enumeration.zero? = none) : enumeration.entries = [] := by
  rw [zero?] at none
  split at none
  · cases none
  · cases whole : enumeration.entries with
    | nil => rfl
    | cons entry rest => simp [whole, memberOf?] at none

end Enumeration

variable {type : ParameterType}

theorem admits_zero (notText : type ≠ .text) (token : String) :
    type.Admits token type.zero := by
  cases type with
  | integer type => exact .integer (IntegerType.holds_iff.mp (by cases type <;> decide))
  | float => exact .float _
  | boolean => exact .boolean _
  | text => exact absurd rfl notText
  | enumeration members =>
      rw [ParameterType.zero]
      cases found : members.zero? with
      | some member => exact .member (Enumeration.hasMember_of_zero? found)
      | none => exact .nothing (Enumeration.entries_of_zero? found)

variable {value : Value}

theorem acceptOr_eq_ok {α : Type} {rejection : Rejection} {wrap : α → Value}
    {result : Except TooManyDigits (Option α)}
    (accepted : acceptOr rejection wrap result = .ok value) :
    ∃ inner, result = .ok (some inner) ∧ wrap inner = value := by
  cases result with
  | error refusal => cases accepted
  | ok found =>
      cases found with
      | none => cases accepted
      | some inner => exact ⟨inner, rfl, Except.ok.inj accepted⟩

theorem admits_convert (notText : type ≠ .text) (converted : convert type text = .ok value)
    (token : String) :
    type.Admits token value := by
  cases type with
  | text => exact absurd rfl notText
  | integer width =>
      obtain ⟨number, read, rfl⟩ := acceptOr_eq_ok converted
      exact .integer (spans_of_toInteger read)
  | float =>
      obtain ⟨number, _, rfl⟩ := acceptOr_eq_ok converted
      exact .float number
  | boolean =>
      obtain ⟨truth, _, rfl⟩ := acceptOr_eq_ok converted
      exact .boolean truth
  | enumeration members =>
      obtain ⟨member, read, rfl⟩ := acceptOr_eq_ok converted
      refine .member (readsDecimals_ok ?_ ?_ ?_ read)
      · exact fun number member => Enumeration.hasMember_of_memberOf?
      · exact fun number member => Enumeration.hasMember_of_memberOf?
      · exact fun member => Enumeration.hasMember_of_namedFolded?

/-- What a token is converted to is a value of the type. -/
theorem coerce_admits {token : String} (converted : coerce (some token) type = .ok value) :
    type.Admits token value := by
  by_cases isText : type = .text
  · subst isText
    cases converted
    exact .text
  · rw [coerce_converts isText] at converted
    split at converted
    · cases converted
      exact admits_zero isText token
    · exact admits_convert isText converted token

namespace Catalog

/-! ### Arguments by their places -/

theorem bind_eq_ok {ε α β : Type} {first : Except ε α} {next : α → Except ε β} {result : β}
    (succeeded : first >>= next = .ok result) :
    ∃ value, first = .ok value ∧ next value = .ok result := by
  cases first with
  | error error => cases succeeded
  | ok value => exact ⟨value, rfl, succeeded⟩

/-- What holds at each place of two lists holds of their heads and at each place of their tails. -/
theorem forall_places_cons {α β : Type} {holds : Nat → α → β → Prop} {first : α} {second : β}
    {firsts : List α} {seconds : List β} :
    (∀ (place : Nat) (a : α) (b : β), (first :: firsts)[place]? = some a →
      (second :: seconds)[place]? = some b → holds place a b) ↔
    holds 0 first second ∧ ∀ (place : Nat) (a : α) (b : β), firsts[place]? = some a →
      seconds[place]? = some b → holds (place + 1) a b := by
  constructor
  · intro each
    exact ⟨each 0 first second rfl rfl, fun place => each (place + 1)⟩
  · rintro ⟨head, tail⟩ place a b firstEq secondEq
    cases place with
    | zero =>
        cases firstEq
        cases secondEq
        exact head
    | succ place => exact tail place a b firstEq secondEq

/-- What stands at the place of a declared parameter: its token converted, or its default value or else
the zero value of its type. -/
inductive Fills (parameter : ParameterType × Option Value) : Option String → Value → Prop where
  | given {token : String} {value : Value} (converted : coerce (some token) parameter.1 = .ok value) :
      Fills parameter (some token) value
  | omitted : Fills parameter none (parameter.2.getD parameter.1.zero)

variable {tokens : List String}

theorem fills_bindDeclared {parameters : List (ParameterType × Option Value)}
    {values : List Value} (bound : bindDeclared parameters tokens = .ok values) :
    values.length = parameters.length ∧
      ∀ (place : Nat) (parameter : ParameterType × Option Value) (value : Value),
        parameters[place]? = some parameter → values[place]? = some value →
        Fills parameter tokens[place]? value := by
  induction parameters generalizing tokens values with
  | nil =>
      cases bound
      exact ⟨rfl, by simp⟩
  | cons parameter rest hypothesis =>
      cases tokens with
      | nil =>
          obtain ⟨later, boundLater, same⟩ := bind_eq_ok bound
          obtain ⟨length_eq, fills⟩ := hypothesis boundLater
          cases same
          refine ⟨by rw [List.length_cons, List.length_cons, length_eq], ?_⟩
          exact forall_places_cons.mpr ⟨.omitted, fills⟩
      | cons token tokens =>
          obtain ⟨first, converted, bound⟩ := bind_eq_ok bound
          obtain ⟨later, boundLater, same⟩ := bind_eq_ok bound
          obtain ⟨length_eq, fills⟩ := hypothesis boundLater
          cases same
          refine ⟨by rw [List.length_cons, List.length_cons, length_eq], ?_⟩
          exact forall_places_cons.mpr ⟨.given converted, fills⟩

theorem coerceAll_eq_ok {type : ParameterType} {values : List Value}
    (converted : coerceAll type tokens = .ok values) :
    values.length = tokens.length ∧
      ∀ (place : Nat) (token : String) (value : Value), tokens[place]? = some token →
        values[place]? = some value → coerce (some token) type = .ok value := by
  induction tokens generalizing values with
  | nil =>
      cases converted
      exact ⟨rfl, by simp⟩
  | cons token tokens hypothesis =>
      rw [coerceAll, List.mapM_cons] at converted
      obtain ⟨first, convertedFirst, converted⟩ := bind_eq_ok converted
      obtain ⟨later, convertedLater, same⟩ := bind_eq_ok converted
      obtain ⟨length_eq, each⟩ := hypothesis convertedLater
      cases same
      refine ⟨by rw [List.length_cons, List.length_cons, length_eq], ?_⟩
      exact forall_places_cons.mpr ⟨convertedFirst, each⟩

namespace Overload

/-- The type of the argument at a place: that of the declared parameter there, or else that of further
arguments. -/
def typeAt? (overload : Overload) (place : Nat) : Option ParameterType :=
  overload.declaration.parameterTypes[place]?.or overload.declaration.variadic

theorem typeAt?_declared {overload : Overload} {place : Nat} {type : ParameterType}
    (declared : overload.declaration.parameterTypes[place]? = some type) :
    overload.typeAt? place = some type := by
  rw [typeAt?, declared, Option.some_or]

theorem typeAt?_further {overload : Overload} {place : Nat} (beyond : overload.arity ≤ place) :
    overload.typeAt? place = overload.declaration.variadic := by
  rw [typeAt?, List.getElem?_eq_none beyond, Option.none_or]

/-- The arguments that an overload is called with for tokens. -/
structure TakesAs (overload : Overload) (tokens : List String) (arguments : List Value) : Prop where
  /-- There is an argument for each declared parameter and each token. -/
  length_eq : arguments.length = max overload.arity tokens.length
  /-- A token stands for a value of the type at its place. -/
  given : ∀ (place : Nat) (token : String), tokens[place]? = some token →
    ∃ type value, overload.typeAt? place = some type ∧ arguments[place]? = some value ∧
      coerce (some token) type = .ok value ∧ type.Admits token value
  /-- A parameter without a token has its default value, or else the zero value of its type. -/
  omitted : ∀ place : Nat, tokens.length ≤ place → place < overload.arity →
    ∃ type default, overload.declaration.parameterTypes[place]? = some type ∧
      overload.defaults[place]? = some default ∧
      arguments[place]? = some (default.getD type.zero)

variable {overload : Overload} {tokens : List String}

theorem le_arity_of_accepts (accepts : overload.accepts tokens.length = true)
    (fixed : overload.declaration.variadic = none) : tokens.length ≤ overload.arity := by
  simp only [Overload.accepts, isVariadic, fixed, Option.isSome_none, Bool.false_or, Bool.and_eq_true,
    decide_eq_true_eq] at accepts
  omega

/-- The arguments after those of the declared parameters. -/
theorem further_of_bindArguments {arguments : List Value}
    (accepts : overload.accepts tokens.length = true)
    (bound : bindArguments overload tokens = .ok arguments) :
    ∃ declared further,
      bindDeclared (overload.declaration.parameterTypes.zip overload.defaults) tokens =
        .ok declared ∧
      arguments = declared ++ further ∧ further.length = tokens.length - overload.arity ∧
      ∀ (place : Nat) (token : String) (value : Value),
        tokens[overload.arity + place]? = some token → further[place]? = some value →
        ∃ type, overload.declaration.variadic = some type ∧ coerce (some token) type = .ok value := by
  rw [bindArguments] at bound
  obtain ⟨declared, boundDeclared, bound⟩ := bind_eq_ok bound
  cases variadic : overload.declaration.variadic with
  | none =>
      rw [variadic] at bound
      cases bound
      have short := le_arity_of_accepts accepts variadic
      refine ⟨arguments, [], boundDeclared, (List.append_nil _).symm, ?_, by simp⟩
      rw [List.length_nil]
      omega
  | some type =>
      rw [variadic] at bound
      obtain ⟨further, converted, same⟩ := bind_eq_ok bound
      cases same
      obtain ⟨length_eq, each⟩ := coerceAll_eq_ok converted
      refine ⟨declared, further, boundDeclared, rfl, ?_, ?_⟩
      · rw [length_eq, List.length_drop]
      · intro place token value tokenEq valueEq
        refine ⟨type, rfl, each place token value ?_ valueEq⟩
        rw [List.getElem?_drop, tokenEq]

/-- The arguments of an overload that takes the number of tokens are well typed. -/
theorem takesAs_of_bindArguments {arguments : List Value} (fitted : overload.IsFitted)
    (accepts : overload.accepts tokens.length = true)
    (bound : bindArguments overload tokens = .ok arguments) : overload.TakesAs tokens arguments := by
  obtain ⟨declared, further, boundDeclared, rfl, furtherLength, furtherEach⟩ :=
    further_of_bindArguments accepts bound
  obtain ⟨length_eq, fills⟩ := fills_bindDeclared boundDeclared
  rw [List.length_zip, fitted, arity, Nat.min_self, ← arity] at length_eq
  -- What stands at the place of a declared parameter.
  have declaredAt (place : Nat) (inside : place < overload.arity) : ∃ type default value,
      overload.declaration.parameterTypes[place]? = some type ∧
      overload.defaults[place]? = some default ∧ declared[place]? = some value ∧
      Fills (type, default) tokens[place]? value := by
    have insideDefaults : place < overload.defaults.length := by rwa [fitted]
    have insideDeclared : place < declared.length := by rwa [length_eq]
    refine ⟨_, _, _, List.getElem?_eq_getElem inside, List.getElem?_eq_getElem insideDefaults,
      List.getElem?_eq_getElem insideDeclared, ?_⟩
    apply fills place
    · rw [List.getElem?_zip_eq_some]
      exact ⟨List.getElem?_eq_getElem inside, List.getElem?_eq_getElem insideDefaults⟩
    · exact List.getElem?_eq_getElem insideDeclared
  refine ⟨?_, ?_, ?_⟩
  · rw [List.length_append, length_eq, furtherLength]
    omega
  · intro place token tokenEq
    have insideTokens : place < tokens.length := (List.getElem?_eq_some_iff.mp tokenEq).1
    by_cases inside : place < overload.arity
    · obtain ⟨type, default, value, typeEq, _, valueEq, fills⟩ := declaredAt place inside
      rw [tokenEq] at fills
      cases fills with
      | given converted =>
          refine ⟨type, value, typeAt?_declared typeEq, ?_, converted, coerce_admits converted⟩
          rw [List.getElem?_append_left (by rwa [length_eq]), valueEq]
    · have insideFurther : place - overload.arity < further.length := by
        rw [furtherLength]
        omega
      have tokenAfter : tokens[overload.arity + (place - overload.arity)]? = some token := by
        rw [Nat.add_sub_cancel' (Nat.le_of_not_lt inside), tokenEq]
      obtain ⟨type, variadic, converted⟩ := furtherEach _ token _ tokenAfter
        (List.getElem?_eq_getElem insideFurther)
      refine ⟨type, _, ?_, ?_, converted, coerce_admits converted⟩
      · rw [typeAt?_further (Nat.le_of_not_lt inside), variadic]
      · rw [List.getElem?_append_right (by omega), length_eq, List.getElem?_eq_getElem insideFurther]
  · intro place beyond inside
    obtain ⟨type, default, value, typeEq, defaultEq, valueEq, fills⟩ := declaredAt place inside
    rw [List.getElem?_eq_none beyond] at fills
    cases fills with
    | omitted =>
        refine ⟨type, default, typeEq, defaultEq, ?_⟩
        rw [List.getElem?_append_left (by rwa [length_eq]), valueEq]

theorem typeAt?_of_mem_pairs {type : ParameterType} {token : String}
    (member : (type, token) ∈ overload.pairs tokens) :
    ∃ place : Nat, tokens[place]? = some token ∧ overload.typeAt? place = some type := by
  rw [pairs, List.mem_append] at member
  rcases member with declared | further
  · obtain ⟨place, found⟩ := List.mem_iff_getElem?.mp declared
    obtain ⟨typeEq, tokenEq⟩ := List.getElem?_zip_eq_some.mp found
    exact ⟨place, tokenEq, typeAt?_declared typeEq⟩
  · cases variadic : overload.declaration.variadic with
    | none =>
        rw [variadic] at further
        cases further
    | some furtherType =>
        rw [variadic] at further
        obtain ⟨_, dropped, same⟩ := List.mem_map.mp further
        cases same
        obtain ⟨place, found⟩ := List.mem_iff_getElem?.mp dropped
        rw [List.getElem?_drop] at found
        refine ⟨overload.arity + place, found, ?_⟩
        rw [typeAt?_further (Nat.le_add_right _ _), variadic]

/-- An overload that is passed over has a token that is no value of the type at its place. -/
theorem misfit_of_bindArguments (fitted : overload.IsFitted) {rejection : Rejection}
    (rejected : bindArguments overload tokens = .error (.rejected rejection)) :
    ∃ (place : Nat) (token : String) (type : ParameterType), tokens[place]? = some token ∧
      overload.typeAt? place = some type ∧
      coerce (some token) type = .error (.rejected rejection) := by
  rw [← errorOf_eq_some, errorOf_bindArguments fitted] at rejected
  obtain ⟨⟨type, token⟩, member, misfit⟩ := List.exists_of_findSome?_eq_some rejected
  obtain ⟨place, tokenEq, typeEq⟩ := typeAt?_of_mem_pairs member
  exact ⟨place, token, type, tokenEq, typeEq, errorOf_eq_some.mp misfit⟩

end Overload

/-! ### Searches that come to a call -/

/-- A search comes to the first overload that is not passed over. -/
theorem chooseFrom_eq_some {used : List String} {tried : List Overload} {resolution : Resolution}
    (found : chooseFrom used tried = .ok (some resolution)) :
    ∃ earlier later, tried = earlier ++ resolution.overload :: later ∧
      bindArguments resolution.overload used = .ok resolution.arguments ∧
      ∀ overload ∈ earlier, ∃ rejection,
        bindArguments overload used = .error (.rejected rejection) := by
  induction tried with
  | nil => cases found
  | cons overload rest hypothesis =>
      rw [chooseFrom] at found
      split at found
      · next arguments bound =>
          cases found
          exact ⟨[], rest, rfl, bound, List.forall_mem_nil _⟩
      · next rejection rejected =>
          obtain ⟨earlier, later, rfl, bound, passed⟩ := hypothesis found
          exact ⟨overload :: earlier, later, rfl, bound,
            List.forall_mem_cons.mpr ⟨⟨rejection, rejected⟩, passed⟩⟩
      · cases found

theorem settle_eq_ok {name : String} {count : Nat} {resolution : Resolution}
    {found : Except TooManyDigits (Option Resolution)}
    (called : settle name count found = .ok resolution) : found = .ok (some resolution) := by
  cases found with
  | error refusal => cases called
  | ok choice =>
      cases choice with
      | none => cases called
      | some chosen =>
          cases called
          rfl

/-- The overloads that are tried have the name and take the number of tokens that they are tried
with. -/
theorem Tries.accepts {registered tried : List Overload} {name : String} {used : List String}
    (tries : Tries registered name tokens used tried) {overload : Overload}
    (member : overload ∈ tried) : overload.name = name ∧ overload.accepts used.length = true := by
  have accepted {count : Int} (inside : overload ∈ accepting registered name count) :
      overload.name = name ∧ overload.accepts count = true := by
    simpa using List.of_mem_filter inside
  cases tries with
  | direct found => exact accepted member
  | joined none several isSorted => exact accepted (isSorted.subset member)

/-- After any sequence of operations, what is called for a name and tokens is an operation registered
under the name that takes the tokens, as many as they are or joined into one.  Its arguments are well
typed, it is handed the signal by name exactly if it is cancellable, and each of the overloads that
were tried before has a token that is no value of the type at its place. -/
theorem resolve_takesAs (history : List Operation) (name : String) (tokens : List String)
    {resolution : Resolution}
    (called : ((Memo.start.after history).resolve name tokens).1 = .ok resolution) :
    ∃ used tried earlier later, Tries (registeredBy history) name tokens used tried ∧
      tried = earlier ++ resolution.overload :: later ∧
      resolution.overload ∈ registeredBy history ∧ resolution.overload.name = name ∧
      resolution.overload.accepts used.length = true ∧
      resolution.overload.TakesAs used resolution.arguments ∧
      resolution.keywords =
        (if resolution.overload.declaration.cancellable = true then ["signal"] else []) ∧
      ∀ overload ∈ earlier, ∃ (place : Nat) (token : String) (type : ParameterType)
        (rejection : Rejection), used[place]? = some token ∧ overload.typeAt? place = some type ∧
          coerce (some token) type = .error (.rejected rejection) := by
  obtain ⟨sound, table⟩ := Memo.sound_after_start history
  rw [sound.resolve_fst, table, Registry.resolve, Registry.collapseCandidates,
    candidates_registerAll, candidates_registerAll] at called
  have tries := tries_attempts (sortByArity_isSorted (accepting (registeredBy history) name 1)) tokens
  generalize attempts _ _ tokens = attempted at tries called
  obtain ⟨used, tried⟩ := attempted
  obtain ⟨earlier, later, rfl, bound, passed⟩ := chooseFrom_eq_some (settle_eq_ok called)
  have fitted : ∀ overload ∈ earlier ++ resolution.overload :: later, overload.IsFitted :=
    fun overload member => isFitted_of_mem_registeredBy (tries.subset member)
  have chosen : resolution.overload ∈ earlier ++ resolution.overload :: later := by simp
  obtain ⟨named, accepts⟩ := tries.accepts chosen
  refine ⟨used, _, earlier, later, tries, rfl, tries.subset chosen, named, accepts, ?_, rfl, ?_⟩
  · exact Overload.takesAs_of_bindArguments (fitted _ chosen) accepts bound
  · intro overload member
    obtain ⟨rejection, rejected⟩ := passed overload member
    obtain ⟨place, token, type, misfit⟩ :=
      Overload.misfit_of_bindArguments (fitted overload (List.mem_append_left _ member)) rejected
    exact ⟨place, token, type, rejection, misfit⟩

/-- Two operations of one name.  The second has a text, a truth value, a number with a default value and
a text without one; it takes any number of further truth values, and the signal. -/
def putHistory : List Operation :=
  let implementation : Implementation :=
    { label := "Put", parameters := none, body := fun _ => pure .none }
  [.register { name := "Put", parameterTypes := [.boolean, .boolean] } none implementation,
    .register
      { name := "Put"
        parameterTypes := [.text, .boolean, .integer .uint32, .text]
        variadic := some .boolean
        cancellable := true }
      (some [none, none, some (.integer 9)]) implementation]

theorem resolve_takesAs_put :
    (∃ resolution used tried earlier later,
      ((Memo.start.after putHistory).resolve "Put" ["7", "TRUE"]).1 = .ok resolution ∧
      Tries (registeredBy putHistory) "Put" ["7", "TRUE"] used tried ∧
      tried = earlier ++ resolution.overload :: later ∧
      resolution.arguments = [.text "7", .boolean true, .integer 9, .none] ∧
      resolution.overload.TakesAs used resolution.arguments ∧ resolution.keywords = ["signal"]) ∧
    ∃ resolution used tried earlier later,
      ((Memo.start.after putHistory).resolve "Put" ["a", "", "0x10", " b", "false", "True"]).1 =
        .ok resolution ∧
      Tries (registeredBy putHistory) "Put" ["a", "", "0x10", " b", "false", "True"] used tried ∧
      tried = earlier ++ resolution.overload :: later ∧
      resolution.arguments = [.text "a", .boolean false, .integer 16, .text " b", .boolean false,
        .boolean true] ∧
      resolution.overload.TakesAs used resolution.arguments := by
  constructor
  · obtain ⟨used, tried, earlier, later, tries, split, _, _, _, takes, keywords, _⟩ :=
      resolve_takesAs putHistory "Put" ["7", "TRUE"] rfl
    exact ⟨_, used, tried, earlier, later, rfl, tries, split, rfl, takes, keywords⟩
  · obtain ⟨used, tried, earlier, later, tries, split, _, _, _, takes, _⟩ :=
      resolve_takesAs putHistory "Put" ["a", "", "0x10", " b", "false", "True"] rfl
    exact ⟨_, used, tried, earlier, later, rfl, tries, split, rfl, takes⟩

end Catalog

end InputScript
