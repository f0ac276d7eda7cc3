/-
Module: InputScript.Proofs.Decimals
Purpose: The grammar of decimal integers, an optional sign and a row of digits, and its agreement with
  the function that takes such a text apart.
Main exports: IsDigitRow, IsDecimal, limitedDecimal_error
-/
import InputScript.Number.Literal

namespace InputScript.Number

open Text

/-- One or more of the digits `0` to `9`. -/
def IsDigitRow (digits : List Char) : Prop :=
  digits ≠ [] ∧ ∀ c ∈ digits, isAsciiDigit c = true

/-- A text that is a decimal integer, whether it is negative, and its digits. -/
inductive IsDecimal : List Char → Bool → List Char → Prop where
  | bare {digits : List Char} (row : IsDigitRow digits) : IsDecimal digits false digits
  | plus {digits : List Char} (row : IsDigitRow digits) : IsDecimal ('+' :: digits) false digits
  | minus {digits : List Char} (row : IsDigitRow digits) : IsDecimal ('-' :: digits) true digits

variable {digits : List Char}

theorem isDigitRow_iff :
    IsDigitRow digits ↔ (!digits.isEmpty && digits.all isAsciiDigit) = true := by
  simp [IsDigitRow]

theorem isDigitRow_replicate (count : Nat) : IsDigitRow (List.replicate (count + 1) '1') := by
  constructor
  · exact List.cons_ne_nil _ _
  · intro c member
    rw [List.eq_of_mem_replicate member]
    decide

/-- A row of digits has no sign in front of it. -/
theorem IsDigitRow.splitSign (row : IsDigitRow digits) :
    splitSign digits = (false, digits) := by
  unfold Number.splitSign
  split
  · exact absurd (row.2 '-' List.mem_cons_self) (by decide)
  · exact absurd (row.2 '+' List.mem_cons_self) (by decide)
  · rfl

variable {text : List Char} {negative : Bool}

theorem IsDecimal.splitSign (decimal : IsDecimal text negative digits) :
    splitSign text = (negative, digits) := by
  cases decimal with
  | bare row => exact row.splitSign
  | plus row => rfl
  | minus row => rfl

theorem IsDecimal.row (decimal : IsDecimal text negative digits) : IsDigitRow digits := by
  cases decimal <;> assumption

theorem IsDecimal.ne_nil (decimal : IsDecimal text negative digits) : text ≠ [] := by
  cases decimal with
  | bare row => exact row.1
  | plus row => exact List.cons_ne_nil _ _
  | minus row => exact List.cons_ne_nil _ _

theorem isBlank_of_isAsciiDigit {c : Char} (digit : isAsciiDigit c = true) : isBlank c = false := by
  simp only [isAsciiDigit, Bool.and_eq_true, decide_eq_true_eq] at digit
  simp only [isBlank, Bool.or_eq_false_iff, Bool.and_eq_false_iff, decide_eq_false_iff_not,
    beq_eq_false_iff_ne]
  omega

/-- There are no blanks in a decimal integer. -/
theorem IsDecimal.isBlank_eq_false (decimal : IsDecimal text negative digits) :
    ∀ c ∈ text, isBlank c = false := by
  have solid : ∀ c ∈ digits, isBlank c = false := by
    intro c member
    exact isBlank_of_isAsciiDigit (decimal.row.2 c member)
  cases decimal with
  | bare row => exact solid
  | plus row => exact List.forall_mem_cons.mpr ⟨by decide, solid⟩
  | minus row => exact List.forall_mem_cons.mpr ⟨by decide, solid⟩

theorem isDecimal_of_splitSign (split : splitSign text = (negative, digits))
    (row : IsDigitRow digits) :
    IsDecimal text negative digits := by
  unfold splitSign at split
  split at split <;> cases split
  · exact .minus row
  · exact .plus row
  · exact .bare row

theorem signedDigits?_eq_some :
    signedDigits? text = some (negative, digits) ↔ IsDecimal text negative digits := by
  constructor
  · intro found
    cases split : splitSign text with
    | mk sign digits =>
        simp only [signedDigits?, split] at found
        split at found
        · next row =>
            cases found
            exact isDecimal_of_splitSign split (isDigitRow_iff.mpr row)
        · cases found
  · intro decimal
    simp only [signedDigits?, decimal.splitSign, isDigitRow_iff.mp decimal.row, if_true]

theorem signedDigits?_eq_none :
    signedDigits? text = none ↔ ∀ negative digits, ¬ IsDecimal text negative digits := by
  simp [Option.eq_none_iff_forall_ne_some, signedDigits?_eq_some]

theorem isAsciiDigit_mark {mark : Char} (isMark : (mark == 'x' || mark == 'X') = true) :
    isAsciiDigit mark = false := by
  rw [Bool.or_eq_true, beq_iff_eq, beq_iff_eq] at isMark
  rcases isMark with rfl | rfl <;> decide

/-- A decimal integer is no hexadecimal literal. -/
theorem IsDecimal.hexValue?_eq (decimal : IsDecimal text negative digits) :
    hexValue? text = none := by
  unfold hexValue?
  split
  · next mark rest =>
      split
      · next shape =>
          rw [Bool.and_eq_true] at shape
          cases decimal with
          | bare row =>
              have digit := row.2 mark (by simp)
              rw [isAsciiDigit_mark shape.1] at digit
              cases digit
      · rfl
  · rfl

theorem limitedDecimal_error {refusal : TooManyDigits} :
    limitedDecimal negative digits = .error refusal ↔
      digitLimit < digits.length ∧ refusal = ⟨digits.length⟩ := by
  rw [limitedDecimal]
  split
  · next long => simp [long, eq_comm]
  · next short => simp [short]

end InputScript.Number
