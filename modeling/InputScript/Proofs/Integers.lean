/-
Module: InputScript.Proofs.Integers
Purpose: Conversion to an integer type is exact.  What comes out is in range; a hexadecimal literal is
  taken as the bit pattern of a number of the type, and a decimal integer as the number itself, or else
  they are rejected.
Main exports: IntegerType.Wraps, coerce_integer_exact
-/
import InputScript.Proofs.Calls
import InputScript.Proofs.Numerals
import Mathlib.Data.Int.ModEq

namespace InputScript

open Text Number

/-! ### Numbers as bit patterns -/

/-- The number of a type that has the bits of a natural number: it is in range and congruent to the
natural number modulo the power of two of the width. -/
def IntegerType.Wraps (type : IntegerType) (number : Nat) (value : Int) : Prop :=
  type.Spans value ∧ value ≡ number [ZMOD twoTo type.bits]

/-- The range of a type is as long as the modulus. -/
theorem IntegerType.limit_eq (type : IntegerType) : type.limit = type.least + twoTo type.bits := by
  cases type <;> decide

variable {type : IntegerType} {number : Nat}

/-- Two numbers in range that are congruent modulo the power of two are equal. -/
theorem IntegerType.Wraps.unique {first second : Int} (wraps : type.Wraps number first)
    (other : type.Wraps number second) : first = second := by
  have long := type.limit_eq
  obtain ⟨inRange, congruent⟩ := wraps
  obtain ⟨otherInRange, otherCongruent⟩ := other
  simp only [← IntegerType.holds_iff, IntegerType.holds, Bool.and_eq_true, decide_eq_true_eq]
    at inRange otherInRange
  have difference := (congruent.trans otherCongruent.symm).dvd
  have zero := Int.eq_zero_of_abs_lt_dvd difference (by rw [abs_lt]; omega)
  omega

/-- A hexadecimal literal that is not too wide gives the number with its bits. -/
theorem hexInteger?_wraps (fits : number < twoTo type.bits) :
    ∃ value, hexInteger? type number = some value ∧ type.Wraps number value := by
  obtain ⟨value, found⟩ : ∃ value, hexInteger? type number = some value := by
    rw [hexInteger?, if_neg (by omega)]
    split
    · exact ⟨_, rfl⟩
    · exact ⟨_, rfl⟩
  refine ⟨value, found, spans_of_hexInteger? found, ?_⟩
  rw [hexInteger?, if_neg (by omega)] at found
  split at found
  · cases found
    exact Int.modEq_iff_dvd.mpr ⟨1, by omega⟩
  · cases found
    rfl

theorem hexInteger?_eq_none (wide : twoTo type.bits ≤ number) :
    hexInteger? type number = none := by
  rw [hexInteger?, if_pos wide]

/-! ### Tokens -/

/-- A token that is not blank is converted without the blanks around it. -/
theorem coerce_toInteger {token : String} (written : trim token.toList ≠ []) :
    coerce (some token) (.integer type) =
      acceptOr (.notAnInteger type) .integer (toInteger type (trim token.toList)) := by
  rw [coerce_converts (by simp)]
  split
  · next nothing => exact absurd nothing written
  · rfl

theorem Number.SpellsHex.toInteger_eq {text : List Char} (spelled : SpellsHex text number) :
    toInteger type text = .ok (hexInteger? type number) := by
  rw [toInteger, hexValue?_eq_some.mpr spelled]

/-- A decimal integer that is not too long is its value if that is in range. -/
theorem Number.SpellsSigned.coerce_eq {token : String} {count : Nat} {value : Int}
    (spelled : SpellsSigned (trim token.toList) count value) (short : count ≤ 4300) :
    coerce (some token) (.integer type) =
      acceptOr (.notAnInteger type) .integer (.ok (inRange? type value)) := by
  obtain ⟨negative, digits, decimal, rfl, rfl⟩ := spelled.decimal
  have limited : limitedDecimal negative digits = .ok (signed negative (decimalValue digits)) := by
    rw [limitedDecimal, if_neg]
    exact Nat.not_lt.mpr short
  rw [coerce_toInteger decimal.ne_nil, toInteger, decimal.hexValue?_eq,
    signedDigits?_eq_some.mpr decimal]
  simp only [limited]
  rfl

theorem inRange?_of_spans {value : Int} (inRange : type.Spans value) :
    inRange? type value = some value := by
  rw [inRange?, if_pos (IntegerType.holds_iff.mpr inRange)]

/-- Conversion to an integer type is exact.  Every value that comes out, also of a missing or a blank
token, is in range.  A hexadecimal literal gives the one number in range that is congruent to it modulo
the power of two of the width, unless it is too wide; a decimal integer of at most 4300 digits gives its
value if that is in range.  All others of these are rejected. -/
theorem coerce_integer_exact (type : IntegerType) :
    (∀ token value, coerce token (.integer type) = .ok value →
      ∃ number, value = .integer number ∧ type.Spans number) ∧
    (∀ token number, SpellsHex (trim token.toList) number →
      (number < twoTo type.bits →
        ∃ value, coerce (some token) (.integer type) = .ok (.integer value) ∧
          type.Wraps number value ∧ ∀ other, type.Wraps number other → other = value) ∧
      (twoTo type.bits ≤ number →
        coerce (some token) (.integer type) = .error (.rejected (.notAnInteger type)))) ∧
    (∀ token count value, SpellsSigned (trim token.toList) count value → count ≤ 4300 →
      (type.Spans value → coerce (some token) (.integer type) = .ok (.integer value)) ∧
      (¬ type.Spans value →
        coerce (some token) (.integer type) = .error (.rejected (.notAnInteger type)))) := by
  refine ⟨?_, ?_, ?_⟩
  · intro token value converted
    cases token with
    | none =>
        cases converted
        exact ⟨0, rfl, IntegerType.holds_iff.mp (by cases type <;> decide)⟩
    | some token =>
        cases coerce_admits converted with
        | integer inRange => exact ⟨_, rfl, inRange⟩
  · intro token number spelled
    have written : trim token.toList ≠ [] := by
      intro nothing
      rw [nothing] at spelled
      cases spelled
    rw [coerce_toInteger written, spelled.toInteger_eq]
    constructor
    · intro fits
      obtain ⟨value, found, wraps⟩ := hexInteger?_wraps fits
      rw [found]
      exact ⟨value, rfl, wraps, fun other otherWraps => otherWraps.unique wraps⟩
    · intro wide
      rw [hexInteger?_eq_none wide]
      rfl
  · intro token count value spelled short
    rw [spelled.coerce_eq short]
    constructor
    · intro inRange
      rw [inRange?_of_spans inRange]
      rfl
    · intro outOfRange
      rw [inRange?, if_neg (fun holds => outOfRange (IntegerType.holds_iff.mp holds))]
      rfl

theorem coerce_integer_exact_samples :
    (∃ value, coerce (some " 0XffffFFFF") (.integer .int32) = .ok (.integer value) ∧
      IntegerType.int32.Wraps 4294967295 value ∧
      ∀ other, IntegerType.int32.Wraps 4294967295 other → other = value) ∧
    coerce (some "0x100000000") (.integer .int32) = .error (.rejected (.notAnInteger .int32)) ∧
    coerce (some "-02147483648") (.integer .int32) = .ok (.integer (-2147483648)) ∧
    coerce (some "+2147483648 ") (.integer .int32) = .error (.rejected (.notAnInteger .int32)) := by
  obtain ⟨-, hexadecimal, decimal⟩ := coerce_integer_exact .int32
  have ones : SpellsHex (trim " 0XffffFFFF".toList) 4294967295 :=
    .literal (.inr rfl) ⟨by decide, List.replicate 8 15, by decide, by decide⟩
  have wide : SpellsHex (trim "0x100000000".toList) 4294967296 :=
    .literal (.inl rfl) ⟨by decide, 1 :: List.replicate 8 0, by decide, by decide⟩
  have least : SpellsSigned (trim "-02147483648".toList) 11 (-2147483648) :=
    .minus ⟨by decide, [0, 2, 1, 4, 7, 4, 8, 3, 6, 4, 8], by decide, by decide⟩
  have limit : SpellsSigned (trim "+2147483648 ".toList) 10 2147483648 :=
    .plus ⟨by decide, [2, 1, 4, 7, 4, 8, 3, 6, 4, 8], by decide, by decide⟩
  refine ⟨(hexadecimal _ _ ones).1 (by decide), (hexadecimal _ _ wide).2 (by decide), ?_, ?_⟩
  · exact (decimal _ _ _ least (by decide)).1 (IntegerType.holds_iff.mp (by decide))
  · exact (decimal _ _ _ limit (by decide)).2 fun spans =>
      absurd (IntegerType.holds_iff.mpr spans) (by decide)

end InputScript
