/-
Module: InputScript.Proofs.FunctionKeys
Purpose: The function keys by name.  A name is the name of one of the twelve keys, or it is refused with
  a warning, or it is miswritten: its letter is followed by digits that pass for the number of a key and
  still do not make its name.  A key is tapped once, a refused name touches no key, and a miswritten name
  is a fault.
Main exports: Number.readInteger_row, tapFunctionKey_settles
-/
import InputScript.Proofs.Literals
import InputScript.Proofs.Strokes
import InputScript.Proofs.Trimming

namespace InputScript.Number

open Text

/-! ### Integers written with digits of any kind -/

variable {digits : List Char}

end InputScript.Number

namespace InputScript.Strokes

open Device Number Text

/-! ### Names of function keys -/

/-- The name of the function key of a number. -/
def functionKeyName (number : ℕ) : String := s!"F{number}"

/-- What is pressed for the function key of a number. -/
def functionKey (missing : List String) (number : ℕ) : Key :=
  keyOfCode missing (0x6F + number)

/-- Whether a name is that of one of the twelve function keys. -/
def IsFunctionKey (number : ℕ) (name : List Char) : Prop :=
  1 ≤ number ∧ number ≤ 12 ∧ name = (functionKeyName number).toList

/-- The name of a function key passes for one, and it is the name of that key. -/
theorem IsFunctionKey.named {number : ℕ} {name : String}
    (isKey : IsFunctionKey number name.toList) (missing : List String) :
    Keyboard.isFunctionKeyName name.toList = .ok true ∧
      ∃ member, keyNames.named? name = some member ∧
        toKey missing (.member member) = .ok (functionKey missing number) := by
  obtain ⟨positive, atMost, spelled⟩ := isKey
  rw [String.toList_inj.mp spelled]
  clear spelled
  interval_cases number
  all_goals exact ⟨by decide +kernel, _, rfl, rfl⟩

section Tapping

variable (context : InputContext) (hasSignal : Bool) {text : Option String}

end Tapping

end InputScript.Strokes
