/-
Module: InputScript.Proofs.Numerals
Purpose: Rows of digits and the numbers that they spell to a base, the literals made of such rows, and
  the readers of literals, which give the spelled number back.  The text that is written for an integer
  is such a literal.
Main exports: IsDigit, Spells, SpellsHex, spellsSigned_toString
-/
import InputScript.Proofs.Decimals
import Mathlib.Data.List.Forall2
import Mathlib.Data.Nat.Digits.Defs
import Mathlib.Tactic.IntervalCases

namespace InputScript.Number

open Text

/-! ### Digits and the numbers they spell -/

/-- A character that is the digit of a value to a base; the letters among the digits are in either
case. -/
def IsDigit (base : Nat) (c : Char) (value : Nat) : Prop :=
  value < base ∧ (c = value.digitChar ∨ c = value.digitChar.toUpper)

instance (base : Nat) (c : Char) (value : Nat) : Decidable (IsDigit base c value) :=
  inferInstanceAs (Decidable (_ ∧ _))

/-- One or more digits to a base and the number that they spell, the last digit counting units. -/
def Spells (base : Nat) (row : List Char) (number : Nat) : Prop :=
  row ≠ [] ∧ ∃ values, List.Forall₂ (IsDigit base) row values ∧
    number = Nat.ofDigits base values.reverse

/-- A hexadecimal literal: `0x` or `0X` and digits to base sixteen. -/
inductive SpellsHex : List Char → Nat → Prop where
  | literal {mark : Char} {row : List Char} {number : Nat} (marked : mark = 'x' ∨ mark = 'X')
      (spelled : Spells 16 row number) : SpellsHex ('0' :: mark :: row) number

/-- A decimal integer: an optional sign and digits to base ten, with their count and the value. -/
inductive SpellsSigned : List Char → Nat → Int → Prop where
  | bare {row : List Char} {number : Nat} (spelled : Spells 10 row number) :
      SpellsSigned row row.length number
  | plus {row : List Char} {number : Nat} (spelled : Spells 10 row number) :
      SpellsSigned ('+' :: row) row.length number
  | minus {row : List Char} {number : Nat} (spelled : Spells 10 row number) :
      SpellsSigned ('-' :: row) row.length (-number)

theorem positional_eq_ofDigits (base : Nat) (values : List Nat) :
    positional base values = Nat.ofDigits base values.reverse := by
  rw [positional, Nat.ofDigits_eq_foldr, List.foldr_reverse]
  congr 1
  funext value digit
  exact Nat.add_comm _ _

/-! ### Reading hexadecimal literals -/

theorem hexDigitValue?_eq_some {c : Char} {value : Nat} :
    hexDigitValue? c = some value ↔ IsDigit 16 c value := by
  constructor
  · intro found
    have same := c.ofNat_toNat
    simp only [hexDigitValue?, Bool.and_eq_true, decide_eq_true_eq] at found
    generalize c.toNat = code at same found
    subst same
    -- The codes of each range are taken one by one.
    split at found
    · next range =>
        obtain ⟨low, high⟩ := range
        cases found
        interval_cases code <;> decide
    · split at found
      · next range =>
          obtain ⟨low, high⟩ := range
          cases found
          interval_cases code <;> decide
      · split at found
        · next range =>
            obtain ⟨low, high⟩ := range
            cases found
            interval_cases code <;> decide
        · cases found
  · rintro ⟨small, rfl | rfl⟩
    · interval_cases value <;> rfl
    · interval_cases value <;> rfl

variable {row : List Char} {values : List Nat}

theorem mapM_hexDigitValue?_eq_some :
    row.mapM hexDigitValue? = some values ↔ List.Forall₂ (IsDigit 16) row values := by
  constructor
  · intro found
    induction row generalizing values with
    | nil =>
        cases found
        exact .nil
    | cons c row hypothesis =>
        simp only [List.mapM_cons, Option.bind_eq_bind, Option.bind_eq_some_iff] at found
        obtain ⟨value, digit, others, rest, whole⟩ := found
        cases whole
        exact .cons (hexDigitValue?_eq_some.mp digit) (hypothesis rest)
  · intro digits
    induction digits with
    | nil => rfl
    | cons digit _ hypothesis =>
        rw [List.mapM_cons, hexDigitValue?_eq_some.mpr digit, hypothesis]
        rfl

variable {text : List Char} {number : Nat}

theorem hexValue?_eq_some :
    hexValue? text = some number ↔ SpellsHex text number := by
  constructor
  · intro found
    unfold hexValue? at found
    split at found
    · next mark row =>
        split at found
        · next shape =>
            simp only [Bool.and_eq_true, Bool.or_eq_true, beq_iff_eq, Bool.not_eq_true',
              List.isEmpty_eq_false_iff] at shape
            obtain ⟨values, digits, rfl⟩ := Option.map_eq_some_iff.mp found
            exact .literal shape.1 ⟨shape.2, values, mapM_hexDigitValue?_eq_some.mp digits,
              positional_eq_ofDigits 16 values⟩
        · cases found
    · cases found
  · rintro ⟨marked, nonempty, values, digits, rfl⟩
    rw [← positional_eq_ofDigits]
    rcases marked with rfl | rfl
    · simp [hexValue?, nonempty, mapM_hexDigitValue?_eq_some.mpr digits]
    · simp [hexValue?, nonempty, mapM_hexDigitValue?_eq_some.mpr digits]

/-! ### Reading decimal integers -/

theorem IsDigit.isAsciiDigit {c : Char} {value : Nat} (digit : IsDigit 10 c value) :
    isAsciiDigit c = true ∧ asciiDigitValue c = value := by
  obtain ⟨small, written⟩ := digit
  rcases written with rfl | rfl
  · interval_cases value <;> exact ⟨rfl, rfl⟩
  · interval_cases value <;> exact ⟨rfl, rfl⟩

theorem isDigit_of_isAsciiDigit {c : Char} (digit : isAsciiDigit c = true) :
    IsDigit 10 c (asciiDigitValue c) := by
  simp only [isAsciiDigit, Bool.and_eq_true, decide_eq_true_eq] at digit
  have small : asciiDigitValue c < 10 := by
    rw [asciiDigitValue]
    omega
  refine ⟨small, .inl (Char.toNat_inj.mp ?_)⟩
  rw [Nat.toNat_digitChar_of_lt_ten small, asciiDigitValue]
  omega

theorem map_asciiDigitValue (digits : List.Forall₂ (IsDigit 10) row values) :
    row.map asciiDigitValue = values := by
  induction digits with
  | nil => rfl
  | cons digit _ hypothesis =>
      rw [List.map_cons, digit.isAsciiDigit.2, hypothesis]

theorem Spells.decimalValue_eq (spelled : Spells 10 row number) :
    decimalValue row = number := by
  obtain ⟨_, values, digits, rfl⟩ := spelled
  rw [decimalValue, map_asciiDigitValue digits, positional_eq_ofDigits]

theorem isAsciiDigit_of_mem (digits : List.Forall₂ (IsDigit 10) row values) :
    ∀ c ∈ row, isAsciiDigit c = true := by
  induction digits with
  | nil => exact List.forall_mem_nil _
  | cons digit _ hypothesis =>
      exact List.forall_mem_cons.mpr ⟨digit.isAsciiDigit.1, hypothesis⟩

theorem Spells.isDigitRow (spelled : Spells 10 row number) :
    IsDigitRow row := by
  obtain ⟨nonempty, values, digits, _⟩ := spelled
  exact ⟨nonempty, isAsciiDigit_of_mem digits⟩

theorem IsDigitRow.spells (isRow : IsDigitRow row) :
    Spells 10 row (decimalValue row) := by
  refine ⟨isRow.1, row.map asciiDigitValue, ?_, positional_eq_ofDigits 10 _⟩
  rw [List.forall₂_map_right_iff, List.forall₂_same]
  intro c member
  exact isDigit_of_isAsciiDigit (isRow.2 c member)

/-- A decimal integer with its value is one by the grammar, and its sign and digits give the value. -/
theorem SpellsSigned.decimal {count : Nat} {value : Int} (spelled : SpellsSigned text count value) :
    ∃ negative digits, IsDecimal text negative digits ∧ digits.length = count ∧
      signed negative (decimalValue digits) = value := by
  cases spelled with
  | bare spelled =>
      refine ⟨false, _, .bare spelled.isDigitRow, rfl, ?_⟩
      rw [spelled.decimalValue_eq]
      rfl
  | plus spelled =>
      refine ⟨false, _, .plus spelled.isDigitRow, rfl, ?_⟩
      rw [spelled.decimalValue_eq]
      rfl
  | minus spelled =>
      refine ⟨true, _, .minus spelled.isDigitRow, rfl, ?_⟩
      rw [spelled.decimalValue_eq]
      rfl

theorem IsDecimal.spellsSigned {digits : List Char} {negative : Bool}
    (decimal : IsDecimal text negative digits) :
    SpellsSigned text digits.length (signed negative (decimalValue digits)) := by
  cases decimal with
  | bare row => exact .bare row.spells
  | plus row => exact .plus row.spells
  | minus row => exact .minus row.spells

/-! ### Writing integers -/

theorem spells_toDigits (number : Nat) : Spells 10 (Nat.toDigits 10 number) number := by
  have row : IsDigitRow (Nat.toDigits 10 number) := by
    refine ⟨Nat.toDigits_ne_nil, ?_⟩
    intro c member
    have digit := Nat.isDigit_of_mem_toDigits (by decide) (by decide) member
    simpa [Char.isDigit, isAsciiDigit, UInt32.le_iff_toNat_le] using digit
  have value : decimalValue (Nat.toDigits 10 number) = number := by
    rw [decimalValue, positional, List.foldl_map]
    exact Nat.ofDigitChars_ten_toDigits
  have spelled := row.spells
  rw [value] at spelled
  exact spelled

theorem tenTo_le_tenTo {less more : Nat} (le : less ≤ more) : tenTo less ≤ tenTo more :=
  Nat.pow_le_pow_right (by decide) le

theorem length_toDigits_le {count : Nat} (positive : 0 < count) (small : number < tenTo count) :
    (Nat.toDigits 10 number).length ≤ count :=
  (Nat.length_toDigits_le_iff (by decide) positive).mpr small

/-- The decimal text of an integer spells it. -/
theorem spellsSigned_toString (value : Int) :
    SpellsSigned (toString value).toList (Nat.toDigits 10 value.natAbs).length value := by
  rw [Int.toString_eq_repr]
  cases value with
  | ofNat number =>
      have text : (Int.ofNat number).repr.toList = Nat.toDigits 10 number := Nat.toList_repr
      rw [text]
      exact .bare (spells_toDigits number)
  | negSucc number =>
      have text : (Int.negSucc number).repr.toList = '-' :: Nat.toDigits 10 (number + 1) := by
        simp [Int.repr]
      rw [text]
      exact .minus (spells_toDigits (number + 1))

end InputScript.Number
