/-
Module: InputScript.Proofs.Written
Purpose: Which values have a written form.  A value is shown if none of its integers has too many
  digits, and a value that is shown has a token too.
Main exports: IsWritable, isSome_shown?, IsWritable.isSome_token?
-/
import InputScript.Value

namespace InputScript

/-- Whether the value of a member can be written. -/
def MemberValue.IsWritable : MemberValue → Prop
  | .number value => value.natAbs < Number.tenTo Number.digitLimit
  | .text _ => True

namespace Value

/-- Whether no integer of a value has more digits than are written. -/
inductive IsWritable : Value → Prop where
  | none : IsWritable .none
  | boolean (value : Bool) : IsWritable (.boolean value)
  | integer {value : Int} (short : value.natAbs < Number.tenTo Number.digitLimit) :
      IsWritable (.integer value)
  | float (value : Float) : IsWritable (.float value)
  | text (value : String) : IsWritable (.text value)
  | member {value : Member} (short : value.value.IsWritable) : IsWritable (.member value)
  | list {values : List Value} (each : ∀ value ∈ values, IsWritable value) :
      IsWritable (.list values)
  | signal : IsWritable .signal

theorem isWritable_integer {value : Int} :
    IsWritable (.integer value) ↔ value.natAbs < Number.tenTo Number.digitLimit := by
  constructor
  · intro writable
    cases writable with
    | integer short => exact short
  · exact .integer

theorem isWritable_list {values : List Value} :
    IsWritable (.list values) ↔ ∀ value ∈ values, value.IsWritable := by
  constructor
  · intro writable
    cases writable with
    | list each => exact each
  · exact .list

theorem isSome_decimalText? {value : Int} :
    (Number.decimalText? value).isSome ↔ value.natAbs < Number.tenTo Number.digitLimit := by
  simp [Number.decimalText?]

theorem isSome_shown?_member {member : Member} :
    member.shown?.isSome ↔ member.value.IsWritable := by
  cases member with
  | mk enumeration name value numeric =>
      cases value with
      | number value =>
          simp [Member.shown?, MemberValue.shown?, MemberValue.IsWritable, Number.decimalText?]
      | text value => simp [Member.shown?, MemberValue.shown?, MemberValue.IsWritable]

mutual

theorem isSome_shown? (signalSet : Bool) :
    (value : Value) → ((value.shown? signalSet).isSome ↔ value.IsWritable)
  | .none => by simp [shown?, IsWritable.none]
  | .boolean value => by simp [shown?, IsWritable.boolean]
  | .integer value => by
      rw [shown?, isSome_decimalText?, isWritable_integer]
  | .float value => by simp [shown?, IsWritable.float]
  | .text value => by simp [shown?, IsWritable.text]
  | .member value => by
      rw [shown?, isSome_shown?_member]
      constructor
      · exact .member
      · intro writable
        cases writable with
        | member short => exact short
  | .list values => by
      rw [shown?, isWritable_list, ← isSome_shownEach? signalSet values]
      simp
  | .signal => by simp [shown?, IsWritable.signal]

theorem isSome_shownEach? (signalSet : Bool) :
    (values : List Value) →
      ((shownEach? signalSet values).isSome ↔ ∀ value ∈ values, value.IsWritable)
  | [] => by simp [shownEach?]
  | value :: rest => by
      have head := isSome_shown? signalSet value
      have tail := isSome_shownEach? signalSet rest
      rw [shownEach?, List.forall_mem_cons, ← head, ← tail]
      cases shown? signalSet value <;> cases shownEach? signalSet rest <;> simp

end

theorem IsWritable.isSome_token? {value : Value} (writable : value.IsWritable) (signalSet : Bool) :
    (value.token? signalSet).isSome := by
  have shown := (isSome_shown? signalSet value).mpr writable
  cases value <;> simp_all [token?, plain?]

end Value

end InputScript
