/-
Module: InputScript.Proofs.Fractions
Purpose: Decimal literals with a fraction or an exponent where an integer is wanted.  Such a literal is
  rounded to double precision first, and what counts is whether the rounded number is whole.  Where the
  exact value is a double precision number or has few digits, it decides by itself.
Main exports: whole?_finite, Rounds.whole?_eq_some, coerce_fraction
-/
import InputScript.Proofs.Integers
import InputScript.Proofs.Literals
import InputScript.Proofs.Trimming

namespace InputScript.Number

/-! ### Whole numbers -/

theorem cast_signed (negative : Bool) (magnitude : ℕ) :
    ((signed negative magnitude : ℤ) : ℚ) = signedBy negative magnitude := by
  cases negative with
  | true =>
      rw [signed, signedBy]
      push_cast
      rfl
  | false => rfl

theorem signedBy_signedBy (negative : Bool) (x : ℚ) : signedBy negative (signedBy negative x) = x := by
  cases negative with
  | true => exact neg_neg x
  | false => rfl

/-- A mantissa that is not cut off gives the number. -/
theorem wholePart_eq {mantissa : ℕ} {exponent : ℤ}
    (whole : 0 ≤ exponent ∨ mantissa % twoTo (-exponent).toNat = 0) :
    (wholePart mantissa exponent : ℚ) = mantissa * 2 ^ exponent := by
  rw [wholePart]
  split
  · next up => rw [Nat.cast_mul, twoTo_eq, Int.toNat_of_nonneg up]
  · next down =>
      have divides := Nat.dvd_of_mod_eq_zero (whole.resolve_left down)
      have nonzero : (twoTo (-exponent).toNat : ℚ) ≠ 0 := by
        exact_mod_cast (Nat.two_pow_pos _).ne'
      rw [Nat.cast_div divides nonzero, twoTo_eq, Int.toNat_of_nonneg (by omega), zpow_neg,
        div_inv_eq_mul]

/-- A mantissa that gives a whole number is not cut off. -/
theorem not_cut {mantissa : ℕ} {exponent number : ℤ} (whole : (mantissa * 2 ^ exponent : ℚ) = number) :
    0 ≤ exponent ∨ mantissa % twoTo (-exponent).toNat = 0 := by
  by_cases up : 0 ≤ exponent
  · exact .inl up
  · right
    have product : (mantissa : ℤ) = number * twoTo (-exponent).toNat := by
      have scaled := exact_eq mantissa (-exponent)
      rw [neg_neg, whole, ← Int.toNat_of_nonneg (by omega : 0 ≤ -exponent), ← twoTo_eq] at scaled
      exact_mod_cast scaled
    have divides : ((twoTo (-exponent).toNat : ℕ) : ℤ) ∣ mantissa := Dvd.intro_left number product.symm
    exact Nat.mod_eq_zero_of_dvd (Int.natCast_dvd_natCast.mp divides)

/-- A double precision number is taken as the whole number that it is, if it is one. -/
theorem whole?_finite {negative : Bool} {mantissa : ℕ} {exponent number : ℤ} :
    (Binary.finite negative mantissa exponent).whole? = some number ↔
      signedBy negative (mantissa * 2 ^ exponent) = number := by
  have condition : (0 ≤ exponent || mantissa % twoTo (-exponent).toNat == 0) = true ↔
      (0 ≤ exponent ∨ mantissa % twoTo (-exponent).toNat = 0) := by simp
  by_cases whole : 0 ≤ exponent ∨ mantissa % twoTo (-exponent).toNat = 0
  · rw [Binary.whole?, if_pos (condition.mpr whole), Option.some_inj, ← wholePart_eq whole,
      ← cast_signed, Int.cast_inj]
  · rw [Binary.whole?, if_neg (fun holds => whole (condition.mp holds))]
    constructor
    · intro found
      cases found
    · intro same
      have magnitude : (mantissa * 2 ^ exponent : ℚ) = (if negative then -number else number : ℤ) := by
        rw [← signedBy_signedBy negative (mantissa * 2 ^ exponent), same]
        cases negative with
        | true => simp [signedBy]
        | false => rfl
      exact absurd (not_cut magnitude) whole

theorem Rounds.whole?_eq_some {exact : ℚ} {binary : Binary} (rounds : Rounds exact binary) {number : ℤ} :
    binary.whole? = some number ↔ RoundsTo exact number := by
  cases rounds with
  | finite nearest =>
      rw [whole?_finite]
      constructor
      · intro same
        rwa [same] at nearest
      · intro other
        exact nearest.unique other
  | infinite negative beyond =>
      constructor
      · intro found
        cases found
      · intro other
        exact absurd other.bounded (not_lt.mpr beyond)

end InputScript.Number

namespace InputScript

open Text Number

/-! ### Tokens -/

/-- A literal gives the whole number in range that it is rounded to, or else it is rejected. -/
theorem Number.FractionLiteral.coerce_settles {literal : FractionLiteral} {token : String}
    (written : trim token.toList = literal.text) (type : IntegerType) :
    (∃ number : ℤ, coerce (some token) (.integer type) = .ok (.integer number) ∧ type.Spans number ∧
      RoundsTo literal.value number) ∨
    coerce (some token) (.integer type) = .error (.rejected (.notAnInteger type)) ∧
      ∀ number : ℤ, type.Spans number → ¬ RoundsTo literal.value number := by
  have tight : trim literal.text = literal.text := by rw [← written, trim_trim]
  have nonempty : trim token.toList ≠ [] := by
    obtain ⟨c, member, -⟩ := literal.exists_mark
    rw [written]
    exact List.ne_nil_of_mem member
  obtain ⟨float, read, rounds⟩ := literal.plainFloat?_text tight
  rw [coerce_toInteger nonempty, written, toInteger, literal.hexValue?_text, literal.signedDigits?_text]
  simp only [read, Option.bind_some]
  cases whole : (decode float).whole? with
  | none =>
      refine .inr ⟨rfl, fun number _ nearest => ?_⟩
      rw [rounds.whole?_eq_some.mpr nearest] at whole
      cases whole
  | some number =>
      have nearest := rounds.whole?_eq_some.mp whole
      by_cases inRange : type.Spans number
      · refine .inl ⟨number, ?_, inRange, nearest⟩
        rw [Option.bind_some, inRange?_of_spans inRange]
        rfl
      · refine .inr ⟨?_, fun other otherInRange otherNearest => inRange ?_⟩
        · rw [Option.bind_some, inRange?, if_neg (fun holds => inRange (IntegerType.holds_iff.mp holds))]
          rfl
        · have same : other = number := by exact_mod_cast otherNearest.unique nearest
          rwa [← same]

/-- A decimal literal with a fraction or an exponent gives the whole number in range that its exact value
is rounded to, and it is rejected if there is none.  The number that it gives is the exact value just if
this is a double precision number.  If it is one, or has few digits, then the literal is accepted just if
the exact value is whole and in range, and gives this value. -/
theorem coerce_fraction (literal : FractionLiteral) (type : IntegerType) {token : String}
    (written : trim token.toList = literal.text) :
    ((∃ number : ℤ, coerce (some token) (.integer type) = .ok (.integer number) ∧
        type.Spans number ∧ RoundsTo literal.value number ∧
          (literal.value = number ↔ IsDouble literal.value)) ∨
      coerce (some token) (.integer type) = .error (.rejected (.notAnInteger type)) ∧
        ∀ number : ℤ, type.Spans number → ¬ RoundsTo literal.value number) ∧
    (IsDouble literal.value ∨ IsShort literal.value → ∀ result,
      coerce (some token) (.integer type) = .ok result ↔
        ∃ number : ℤ, result = .integer number ∧ type.Spans number ∧ literal.value = number) := by
  rcases literal.coerce_settles written type with ⟨number, given, inRange, nearest⟩ | ⟨rejected, missed⟩
  · constructor
    · refine .inl ⟨number, given, inRange, nearest, ?_, ?_⟩
      · intro same
        rw [same]
        exact nearest.isDouble
      · intro double
        exact (nearest.eq_of_isDouble double).symm
    · intro kept result
      have same : literal.value = number := by
        rcases kept with double | short
        · exact (nearest.eq_of_isDouble double).symm
        · exact nearest.eq_of_isShort short
      rw [given]
      constructor
      · intro accepted
        cases accepted
        exact ⟨number, rfl, inRange, same⟩
      · rintro ⟨other, rfl, -, otherSame⟩
        have : other = number := by exact_mod_cast otherSame.symm.trans same
        rw [this]
  · refine ⟨.inr ⟨rejected, missed⟩, ?_⟩
    intro kept result
    rw [rejected]
    constructor
    · intro accepted
      cases accepted
    · rintro ⟨number, rfl, inRange, same⟩
      rw [same] at kept missed
      have double : IsDouble number := kept.elim id IsShort.isDouble
      exact absurd double.roundsTo_self (missed number inRange)

/-- `+12.5E1` with Arabic digits before the exponent. -/
def arabicLiteral : FractionLiteral where
  sign := .plus
  whole := ⟨['\u0661', '\u0662'], by decide⟩
  fraction := some ⟨['\u0665'], by decide⟩
  exponent := some ⟨'E', .absent, ⟨['1'], by decide⟩, .inr rfl, by decide⟩
  hasDigit := by decide
  isMarked := by decide

/-- `.5`. -/
def halfLiteral : FractionLiteral where
  sign := .absent
  whole := .empty
  fraction := some ⟨['5'], by decide⟩
  exponent := none
  hasDigit := by decide
  isMarked := by decide

theorem coerce_fraction_samples :
    coerce (some " +\u0661\u0662.\u0665E1") (.integer .int32) = .ok (.integer 125) ∧
      coerce (some ".5 ") (.integer .unsignedHandle) =
        .error (.rejected (.notAnInteger .unsignedHandle)) := by
  have whole : arabicLiteral.value = 125 := by decide +kernel
  have short : IsShort arabicLiteral.value := ⟨0, 125, by norm_num, by norm_num, by norm_num [whole]⟩
  have written : trim " +\u0661\u0662.\u0665E1".toList = arabicLiteral.text := by decide
  have half : halfLiteral.value = 1 / 2 := by decide +kernel
  have shortHalf : IsShort halfLiteral.value := ⟨1, 5, by norm_num, by norm_num, by norm_num [half]⟩
  have writtenHalf : trim ".5 ".toList = halfLiteral.text := by decide
  constructor
  · obtain ⟨-, decides⟩ := coerce_fraction arabicLiteral .int32 written
    exact (decides (.inr short) _).mpr ⟨125, rfl, IntegerType.holds_iff.mp (by decide), whole⟩
  · obtain ⟨⟨number, given, -⟩ | rejected, decides⟩ :=
      coerce_fraction halfLiteral .unsignedHandle writtenHalf
    · obtain ⟨other, -, -, same⟩ := (decides (.inr shortHalf) _).mp given
      rw [half, div_eq_iff two_ne_zero] at same
      have odd : (1 : ℤ) = other * 2 := by exact_mod_cast same
      omega
    · exact rejected.1

/-- `1.00000000000000000001`. -/
def closeLiteral : FractionLiteral where
  sign := .absent
  whole := ⟨['1'], by decide⟩
  fraction := some ⟨List.replicate 19 '0' ++ ['1'], by decide⟩
  exponent := none
  hasDigit := by decide
  isMarked := by decide

/-- `9007199254740993.0`, one more than the fifty-third power of two. -/
def oddLiteral : FractionLiteral where
  sign := .absent
  whole := ⟨['9', '0', '0', '7', '1', '9', '9', '2', '5', '4', '7', '4', '0', '9', '9', '3'], by decide⟩
  fraction := some ⟨['0'], by decide⟩
  exponent := none
  hasDigit := by decide
  isMarked := by decide

/-- A literal that is not whole gives an integer, and one that is whole gives another integer. -/
theorem coerce_fraction_rounded :
    ("1.00000000000000000001".toList = closeLiteral.text ∧ (∀ number : ℤ, closeLiteral.value ≠ number) ∧
      coerce (some "1.00000000000000000001") (.integer .int32) = .ok (.integer 1)) ∧
    ("9007199254740993.0".toList = oddLiteral.text ∧ oddLiteral.value = 9007199254740993 ∧
      coerce (some "9007199254740993.0") (.integer .handle) = .ok (.integer 9007199254740992)) := by
  have close : closeLiteral.value = 100000000000000000001 / 100000000000000000000 := by decide +kernel
  refine ⟨⟨by decide, ?_, rfl⟩, by decide, by decide +kernel, rfl⟩
  intro number same
  rw [close, div_eq_iff (by norm_num)] at same
  have multiple : (100000000000000000001 : ℤ) = number * 100000000000000000000 := by
    exact_mod_cast same
  omega

end InputScript
