/-
Module: InputScript.Proofs.Substitution
Purpose: The token that takes the place of a result is converted back to the result.  It is so for
  every integer in range, truth value and text, and for every member of an enumeration whose names can
  be told apart from each other and from numbers.
Main exports: IsLegible, ParameterType.Owns, coerce_token
-/
import InputScript.Proofs.Integers
import InputScript.Proofs.Trimming

namespace InputScript

open Text Number

/-! ### Results and their types -/

/-- The names of an enumeration, second names included, differ in more than letter case, and none is
empty, has blanks around it or is a number. -/
structure Enumeration.IsLegible (enumeration : Enumeration) : Prop where
  distinct : enumeration.entries.Pairwise fun first second => folded first.1 ≠ folded second.1
  nonempty : ∀ entry ∈ enumeration.entries, entry.1 ≠ ""
  tight : ∀ entry ∈ enumeration.entries, trim entry.1.toList = entry.1.toList
  notHex : ∀ entry ∈ enumeration.entries, ∀ number, ¬ SpellsHex entry.1.toList number
  notDecimal : ∀ entry ∈ enumeration.entries, ∀ count value, ¬ SpellsSigned entry.1.toList count value

/-- A name that is not empty, has no blanks around it and is no number. -/
def isPlainName (name : String) : Bool :=
  name != "" && trim name.toList == name.toList && (hexValue? name.toList).isNone &&
    (signedDigits? name.toList).isNone

theorem hexValue?_eq_none {text : List Char} :
    hexValue? text = none ↔ ∀ number, ¬ SpellsHex text number := by
  simp [Option.eq_none_iff_forall_ne_some, hexValue?_eq_some]

theorem signedDigits?_eq_none_iff {text : List Char} :
    signedDigits? text = none ↔ ∀ count value, ¬ SpellsSigned text count value := by
  rw [signedDigits?_eq_none]
  constructor
  · intro undecimal count value spelled
    obtain ⟨negative, digits, decimal, -⟩ := spelled.decimal
    exact undecimal negative digits decimal
  · intro unspelled negative digits decimal
    exact unspelled _ _ decimal.spellsSigned

theorem isPlainName_iff {name : String} :
    isPlainName name = true ↔ name ≠ "" ∧ trim name.toList = name.toList ∧
      (∀ number, ¬ SpellsHex name.toList number) ∧
        ∀ count value, ¬ SpellsSigned name.toList count value := by
  rw [← hexValue?_eq_none, ← signedDigits?_eq_none_iff]
  simp [isPlainName, and_assoc]

theorem Enumeration.isLegible_iff {enumeration : Enumeration} :
    enumeration.IsLegible ↔
      (enumeration.entries.Pairwise fun first second => folded first.1 ≠ folded second.1) ∧
        enumeration.entries.all (isPlainName ·.1) = true := by
  rw [List.all_eq_true]
  constructor
  · intro legible
    refine ⟨legible.distinct, fun entry member => isPlainName_iff.mpr ?_⟩
    exact ⟨legible.nonempty entry member, legible.tight entry member, legible.notHex entry member,
      legible.notDecimal entry member⟩
  · rintro ⟨distinct, plain⟩
    have each entry member := isPlainName_iff.mp (plain entry member)
    exact ⟨distinct, fun entry member => (each entry member).1,
      fun entry member => (each entry member).2.1, fun entry member => (each entry member).2.2.1,
      fun entry member => (each entry member).2.2.2⟩

instance (enumeration : Enumeration) : Decidable enumeration.IsLegible :=
  decidable_of_iff' _ Enumeration.isLegible_iff

/-- The values of a type that a token can stand for. -/
inductive ParameterType.Owns : ParameterType → Value → Prop where
  | integer {type : IntegerType} {value : Int} (inRange : type.Spans value) :
      Owns (.integer type) (.integer value)
  | boolean (value : Bool) : Owns .boolean (.boolean value)
  | text (value : String) : Owns .text (.text value)
  | member {members : Enumeration} {member : Member} (legible : members.IsLegible)
      (isMember : members.HasMember member) : Owns (.enumeration members) (.member member)

/-! ### Integers -/

/-- An integer in range is far from having too many digits. -/
theorem natAbs_lt_of_spans {type : IntegerType} {value : Int} (inRange : type.Spans value) :
    value.natAbs < tenTo digitLimit := by
  have powers : twoTo 31 ≤ twoTo 64 ∧ twoTo 32 ≤ twoTo 64 ∧ twoTo 63 ≤ twoTo 64 := by decide
  have small : value.natAbs ≤ twoTo 64 := by
    cases type <;> rw [IntegerType.Spans] at inRange <;> omega
  have large : twoTo 64 < tenTo 20 := by decide
  have larger : tenTo 20 ≤ tenTo digitLimit := tenTo_le_tenTo (by decide)
  omega

theorem coerce_integer_token {type : IntegerType} {value : Int} (inRange : type.Spans value) :
    coerce (some (toString value)) (.integer type) = .ok (.integer value) := by
  have spelled := spellsSigned_toString value
  have short : (Nat.toDigits 10 value.natAbs).length ≤ digitLimit :=
    length_toDigits_le (by decide) (natAbs_lt_of_spans inRange)
  obtain ⟨negative, digits, decimal, -⟩ := spelled.decimal
  rw [← trim_solid decimal.isBlank_eq_false] at spelled
  rw [spelled.coerce_eq short, inRange?_of_spans inRange]
  rfl

/-! ### Members -/

namespace Enumeration

variable {enumeration : Enumeration} {earlier later : List (String × MemberValue)} {name : String}
  {value : MemberValue}

/-- The first entry of a value is its member. -/
theorem memberOf?_eq (whole : enumeration.entries = earlier ++ (name, value) :: later)
    (first : ∀ entry ∈ earlier, entry.2 ≠ value) :
    enumeration.memberOf? value = some ⟨enumeration.name, name, value, enumeration.isNumeric⟩ := by
  have none : earlier.find? (·.2 == value) = none := by simpa using first
  rw [memberOf?, whole, List.find?_append, none, Option.none_or,
    List.find?_cons_of_pos (by simp)]
  rfl

/-- A name that differs in more than letter case from all names before it finds its own entry. -/
theorem namedFolded?_eq (whole : enumeration.entries = earlier ++ (name, value) :: later)
    (distinct : ∀ entry ∈ earlier, folded entry.1 ≠ folded name) :
    enumeration.namedFolded? name = enumeration.memberOf? value := by
  have none : earlier.find? (sameFolded ·.1 name) = none := by simpa [sameFolded] using distinct
  rw [namedFolded?, whole, List.find?_append, none, Option.none_or,
    List.find?_cons_of_pos (by simp [sameFolded])]
  rfl

theorem IsLegible.toMember_eq (legible : enumeration.IsLegible)
    (whole : enumeration.entries = earlier ++ (name, value) :: later) :
    toMember enumeration name.toList = .ok (enumeration.memberOf? value) := by
  have inside : (name, value) ∈ enumeration.entries := by simp [whole]
  have noHex : hexValue? name.toList = none := hexValue?_eq_none.mpr (legible.notHex _ inside)
  have noDecimal : signedDigits? name.toList = none :=
    signedDigits?_eq_none_iff.mpr (legible.notDecimal _ inside)
  have distinct : ∀ entry ∈ earlier, folded entry.1 ≠ folded name := by
    intro entry before
    have apart := legible.distinct
    rw [whole, List.pairwise_append] at apart
    exact apart.2.2 entry before (name, value) List.mem_cons_self
  rw [toMember, noHex, noDecimal]
  simp only [String.ofList_toList]
  rw [namedFolded?_eq whole distinct]

theorem IsLegible.coerce_name (legible : enumeration.IsLegible) {member : Member}
    (isMember : enumeration.HasMember member) :
    coerce (some member.name) (.enumeration enumeration) = .ok (.member member) := by
  obtain ⟨earlier, name, value, later, whole, first, rfl⟩ := isMember
  have inside : (name, value) ∈ enumeration.entries := by simp [whole]
  rw [coerce_converts (by simp), legible.tight _ inside]
  split
  · next nothing => exact absurd (String.toList_eq_nil_iff.mp nothing) (legible.nonempty _ inside)
  · rw [convert, legible.toMember_eq whole, memberOf?_eq whole first]
    rfl

end Enumeration

/-! ### Tokens -/

/-- A value that is substituted for a nested step reaches a parameter of its own type unchanged: it has
a token, and the token is converted to the value. -/
theorem coerce_token {type : ParameterType} {value : Value} (owns : type.Owns value)
    (signalSet : Bool) :
    ∃ token, value.token? signalSet = some token ∧ coerce (some token) type = .ok value := by
  cases owns with
  | @integer type value inRange =>
      have written : Number.decimalText? value = some (toString value) :=
        if_pos (natAbs_lt_of_spans inRange)
      exact ⟨toString value, written, coerce_integer_token inRange⟩
  | boolean value =>
      cases value with
      | true => exact ⟨"true", rfl, rfl⟩
      | false => exact ⟨"false", rfl, rfl⟩
  | text value => exact ⟨value, rfl, rfl⟩
  | @member members member legible isMember =>
      exact ⟨member.name, rfl, legible.coerce_name isMember⟩

/-- A second name, and names that look like numbers at first. -/
def modes : Enumeration :=
  ⟨"Mode", [("Off", .number 0), ("0xOn", .number 1), ("+", .text "1"), ("Straße", .number 0)]⟩

theorem coerce_token_samples :
    (∃ token, (Value.integer (-9223372036854775808)).token? false = some token ∧
      coerce (some token) (.integer .handle) = .ok (.integer (-9223372036854775808))) ∧
    ∃ token, (Value.member ⟨"Mode", "0xOn", .number 1, false⟩).token? true = some token ∧
      coerce (some token) (.enumeration modes) = .ok (.member ⟨"Mode", "0xOn", .number 1, false⟩) := by
  have least : IntegerType.handle.Spans (-9223372036854775808) :=
    IntegerType.holds_iff.mp (by decide)
  have isMember : modes.HasMember ⟨"Mode", "0xOn", .number 1, false⟩ :=
    ⟨[("Off", .number 0)], "0xOn", .number 1, _, rfl, by simp, rfl⟩
  constructor
  · exact coerce_token (.integer least) false
  · exact coerce_token (.member (by decide) isMember) true

end InputScript
