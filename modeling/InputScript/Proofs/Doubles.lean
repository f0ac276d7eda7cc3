/-
Module: InputScript.Proofs.Doubles
Purpose: The bit patterns of double precision numbers.  They are made of the fields that they are taken
  apart into, and the pattern made for a fraction or for decimal digits is that of the number that the
  exact value is rounded to.
Main exports: decode_ofFields, Rounds, rounds_nearestDecimal
-/
import InputScript.Proofs.Rounding

namespace InputScript.Number

open Float.Model Float.Model.UnpackedFloat

/-! ### Bit patterns -/

theorem toNat_unpackExponent (bits : BitVec Format.binary64.numBits) :
    (unpackExponent bits).toNat = bits.toNat / 2 ^ 52 % 2 ^ 11 := by
  have extracted : (unpackExponent bits).toNat = (bits.extractLsb 62 52).toNat := rfl
  rw [extracted, BitVec.extractLsb_toNat, Nat.shiftRight_eq_div_pow]

theorem toNat_unpackMantissa (bits : BitVec Format.binary64.numBits) :
    (unpackMantissa bits).toNat = bits.toNat % 2 ^ 52 := by
  have extracted : (unpackMantissa bits).toNat = (bits.extractLsb 51 0).toNat := rfl
  rw [extracted, BitVec.extractLsb_toNat, Nat.shiftRight_zero]

/-- A bit pattern that stands for a number or an infinity is kept. -/
theorem toBits_ofBits {bits : UInt64}
    (number : bits.toNat / 2 ^ 52 % 2 ^ 11 = 2047 → bits.toNat % 2 ^ 52 = 0) :
    (Float.ofBits bits).toBits = bits := by
  have valid : Format.binary64.Valid bits.toBitVec := by
    constructor
    intro exponent mantissa
    have all := congrArg BitVec.toNat exponent
    rw [toNat_unpackExponent] at all
    have zero : (@unpackMantissa Format.binary64 bits.toBitVec).toNat = 0 := by
      rw [toNat_unpackMantissa]
      exact number all
    exact absurd (BitVec.eq_of_toNat_eq zero) mantissa
  exact congrArg Float.toBits (Float.ofBits_toBits (Float.ofModel ⟨bits, valid⟩))

/-- The bit of the sign. -/
def signBit (negative : Bool) : ℕ := if negative then twoTo 63 else 0

/-- A bit pattern is taken apart into the fields that it is made of. -/
theorem decodeBits_fields (negative : Bool) {exponent fraction : ℕ} (short : exponent < 2048)
    (small : fraction < twoTo 52) :
    decodeBits (signBit negative + (exponent * twoTo 52 + fraction)) =
      if exponent == 2047 then if fraction == 0 then .infinite negative else .notANumber
      else if exponent == 0 then .finite negative fraction leastExponent
      else .finite negative (fraction + twoTo 52) ((exponent : ℤ) - 1075) := by
  have twoTo52 : twoTo 52 = 4503599627370496 := by decide
  have twoTo11 : twoTo 11 = 2048 := by decide
  have twoTo63 : twoTo 63 = 9223372036854775808 := by decide
  rw [twoTo52] at small
  simp only [decodeBits, signBit, twoTo52, twoTo11, twoTo63]
  obtain ⟨sign, signEq, bit⟩ :
      ∃ sign, (if negative = true then 9223372036854775808 else 0) = sign * 9223372036854775808 ∧
        (sign = 1 ∧ negative = true ∨ sign = 0 ∧ negative = false) := by
    cases negative with
    | true => exact ⟨1, rfl, .inl ⟨rfl, rfl⟩⟩
    | false => exact ⟨0, rfl, .inr ⟨rfl, rfl⟩⟩
  rw [signEq]
  have signBits : (sign * 9223372036854775808 + (exponent * 4503599627370496 + fraction)) /
      9223372036854775808 % 2 = sign := by omega
  have exponentBits : (sign * 9223372036854775808 + (exponent * 4503599627370496 + fraction)) /
      4503599627370496 % 2048 = exponent := by omega
  have fractionBits : (sign * 9223372036854775808 + (exponent * 4503599627370496 + fraction)) %
      4503599627370496 = fraction := by omega
  rw [signBits, exponentBits, fractionBits]
  rcases bit with ⟨rfl, rfl⟩ | ⟨rfl, rfl⟩
  · rfl
  · rfl

/-- The number of a sign, exponent bits and a fraction that do not stand for no number. -/
def ofFields (negative : Bool) (exponent fraction : ℕ) : Float :=
  Float.ofBits (UInt64.ofNat (signBit negative + (exponent * twoTo 52 + fraction)))

theorem decode_ofFields (negative : Bool) {exponent fraction : ℕ} (short : exponent < 2048)
    (small : fraction < twoTo 52) (number : exponent = 2047 → fraction = 0) :
    decode (ofFields negative exponent fraction) =
      if exponent == 2047 then .infinite negative
      else if exponent == 0 then .finite negative fraction leastExponent
      else .finite negative (fraction + twoTo 52) ((exponent : ℤ) - 1075) := by
  have twoTo52 : twoTo 52 = 4503599627370496 := by decide
  have sign : signBit negative = 0 ∨ signBit negative = 9223372036854775808 := by
    cases negative <;> decide
  have bits : (UInt64.ofNat (signBit negative + (exponent * twoTo 52 + fraction))).toNat =
      signBit negative + (exponent * twoTo 52 + fraction) := by
    apply UInt64.toNat_ofNat_of_lt'
    rw [twoTo52] at small ⊢
    have size : UInt64.size = 18446744073709551616 := rfl
    omega
  have kept : (UInt64.ofNat (signBit negative + (exponent * twoTo 52 + fraction))).toNat / 2 ^ 52 %
        2 ^ 11 = 2047 →
      (UInt64.ofNat (signBit negative + (exponent * twoTo 52 + fraction))).toNat % 2 ^ 52 = 0 := by
    rw [bits]
    rw [twoTo52] at small ⊢
    intro all
    have zero := number (by omega)
    omega
  rw [ofFields, decode, toBits_ofBits kept, bits, decodeBits_fields negative short small]
  split
  · next all =>
      rw [number (beq_iff_eq.mp all)]
      rfl
  · rfl

/-- A sign put in front of a number. -/
def signedBy (negative : Bool) (x : ℚ) : ℚ :=
  if negative then -x else x

theorem RoundsTo.signedBy {exact x : ℚ} (rounds : RoundsTo exact x) (negative : Bool) :
    RoundsTo (signedBy negative exact) (signedBy negative x) := by
  cases negative with
  | true => exact rounds.neg
  | false => exact rounds

@[simp] theorem abs_signedBy (negative : Bool) (x : ℚ) : |signedBy negative x| = |x| := by
  cases negative with
  | true => exact abs_neg x
  | false => rfl

/-- What a number is rounded to: a double precision number, or infinity from the overflow bound on. -/
inductive Rounds (exact : ℚ) : Binary → Prop where
  | finite {negative : Bool} {mantissa : ℕ} {exponent : ℤ}
      (rounds : RoundsTo exact (signedBy negative (mantissa * 2 ^ exponent))) :
      Rounds exact (.finite negative mantissa exponent)
  | infinite (negative : Bool) (beyond : overflowBound ≤ |exact|) : Rounds exact (.infinite negative)

/-- The bits of a rounded mantissa, put over those of its exponent. -/
def magnitudeBits (exponent : ℤ) (mantissa : ℕ) : ℕ :=
  min (if mantissa < twoTo 52 then mantissa
    else (exponent - leastExponent).toNat * twoTo 52 + mantissa) (2047 * twoTo 52)

theorem rounds_magnitudeBits (negative : Bool) {exact : ℚ} {exponent : ℤ} {mantissa : ℕ}
    (nonnegative : 0 ≤ exact) (scaled : IsMantissaExponent exact exponent)
    (rounds : RoundsWhole (exact * 2 ^ (-exponent)) mantissa) :
    Rounds (signedBy negative exact)
      (decode (Float.ofBits (UInt64.ofNat (signBit negative + magnitudeBits exponent mantissa)))) := by
  have twoTo52 : twoTo 52 = 4503599627370496 := by decide
  have leastEq : leastExponent = -1074 := rfl
  have least := scaled.least
  have atMost := mantissa_le scaled rounds
  have atLeast := le_mantissa scaled rounds
  have finite (range : exponent ≤ 970 ∨ exponent = 971 ∧ (mantissa : ℤ) < 2 ^ 53) :=
    (roundsTo_rounded scaled rounds nonnegative range).signedBy negative
  -- The cases are a small mantissa, a full one, one rounded up to a power of two, and an overflow.
  by_cases small : mantissa < twoTo 52
  · have bits : magnitudeBits exponent mantissa = 0 * twoTo 52 + mantissa := by
      rw [magnitudeBits, if_pos small]
      omega
    have lowest : exponent = -1074 := by omega
    rw [bits, ← ofFields, decode_ofFields negative (by omega) small (by omega)]
    subst lowest
    exact .finite (finite (by omega))
  · by_cases overflow : 971 < exponent ∨ exponent = 971 ∧ (2 : ℤ) ^ 53 ≤ mantissa
    · have bits : magnitudeBits exponent mantissa = 2047 * twoTo 52 + 0 := by
        rw [magnitudeBits, if_neg small, leastEq, twoTo52]
        omega
      rw [bits, ← ofFields, decode_ofFields negative (by omega) (by decide) (by omega)]
      refine .infinite negative ?_
      rw [abs_signedBy, abs_of_nonneg nonnegative]
      exact overflowBound_le scaled rounds overflow
    · have rounded := finite (by omega)
      rcases lt_or_eq_of_le atMost with short | carried
      · have bits : magnitudeBits exponent mantissa =
            (exponent + 1075).toNat * twoTo 52 + (mantissa - twoTo 52) := by
          rw [magnitudeBits, if_neg small, leastEq, twoTo52]
          omega
        have mantissaEq : mantissa - twoTo 52 + twoTo 52 = mantissa := by omega
        have exponentEq : ((exponent + 1075).toNat : ℤ) - 1075 = exponent := by omega
        have below : mantissa - twoTo 52 < twoTo 52 := by omega
        rw [bits, ← ofFields, decode_ofFields negative (by omega) below (by omega),
          if_neg (by simp; omega), if_neg (by simp; omega), mantissaEq, exponentEq]
        exact .finite rounded
      · have bits : magnitudeBits exponent mantissa = (exponent + 1076).toNat * twoTo 52 + 0 := by
          rw [magnitudeBits, if_neg small, leastEq, twoTo52]
          omega
        have exponentEq : ((exponent + 1076).toNat : ℤ) - 1075 = exponent + 1 := by omega
        have value : ((mantissa : ℤ) * 2 ^ exponent : ℚ) = (0 + twoTo 52 : ℕ) * 2 ^ (exponent + 1) := by
          rw [carried, zpow_add_one₀ (by norm_num), twoTo52]
          push_cast
          ring
        rw [bits, ← ofFields, decode_ofFields negative (by omega) (by decide) (by omega),
          if_neg (by simp; omega), if_neg (by simp; omega), exponentEq]
        rw [value] at rounded
        exact .finite rounded

/-- What is nearer to zero than half of the least number is rounded to the zero of its sign. -/
theorem rounds_nearest_zero (negative : Bool) (denominator : ℕ) {exact : ℚ}
    (tiny : |exact| < 2 ^ (-1075 : ℤ)) :
    Rounds (signedBy negative exact) (decode (nearest negative 0 denominator)) := by
  have fields : nearest negative 0 denominator = ofFields negative 0 0 := by
    simp [nearest, nearestBits, ofFields, signBit]
  have zero := (roundsTo_zero tiny).signedBy negative
  rw [fields, decode_ofFields negative (by decide) (by decide) (by decide)]
  apply Rounds.finite
  rwa [Nat.cast_zero, zero_mul]

/-- The number that is nearest to a fraction is the one that the fraction is rounded to. -/
theorem rounds_nearest (negative : Bool) (numerator : ℕ) {denominator : ℕ}
    (nonzero : 0 < denominator) :
    Rounds (signedBy negative (numerator / denominator))
      (decode (nearest negative numerator denominator)) := by
  rcases Nat.eq_zero_or_pos numerator with rfl | positive
  · apply rounds_nearest_zero
    rw [Nat.cast_zero, zero_div, abs_zero]
    exact two_zpow_pos _
  · obtain ⟨exponent, exponentEq⟩ : ∃ exponent, mantissaExponent numerator denominator = exponent :=
      ⟨_, rfl⟩
    have scaled := isMantissaExponent positive nonzero
    have rounds := roundsWhole_scaledFraction numerator nonzero (-exponent)
    rw [exponentEq] at scaled
    have bits := rounds_magnitudeBits negative (by positivity) scaled rounds
    rw [nearest, nearestBits, if_neg (by simpa using positive.ne'), exponentEq]
    exact bits

theorem tenTo_eq (count : ℕ) : (tenTo count : ℚ) = 10 ^ (count : ℤ) := by
  rw [zpow_natCast]
  exact_mod_cast (rfl : tenTo count = 10 ^ count)

/-- A power of ten is at least the third power of the power of two. -/
theorem two_zpow_le_ten_zpow (count : ℕ) : (2 : ℚ) ^ (3 * count : ℤ) ≤ 10 ^ (count : ℤ) := by
  rw [zpow_mul, zpow_natCast, zpow_natCast]
  exact pow_le_pow_left₀ (by norm_num) (by norm_num) count

theorem overflowBound_le_ten_zpow {exponent : ℤ} (huge : 400 < exponent) :
    overflowBound ≤ 10 ^ exponent := by
  calc overflowBound ≤ 2 ^ (54 : ℤ) * (2 : ℚ) ^ (970 : ℤ) :=
        mul_le_mul_of_nonneg_right (by norm_num) (two_zpow_pos _).le
    _ = 2 ^ (54 + 970 : ℤ) := (zpow_add₀ two_ne_zero 54 970).symm
    _ ≤ 2 ^ (3 * exponent.toNat : ℤ) := zpow_le_zpow_right₀ (by norm_num) (by omega)
    _ ≤ 10 ^ (exponent.toNat : ℤ) := two_zpow_le_ten_zpow _
    _ = 10 ^ exponent := by rw [Int.toNat_of_nonneg (by omega)]

/-- The logarithm of the digits tells how large they are at most. -/
theorem digits_lt_ten_zpow (digits : ℕ) : (digits : ℚ) < 10 ^ ((digits.log2 / 3 : ℕ) + 1 : ℤ) := by
  calc (digits : ℚ) < 2 ^ ((digits.log2 : ℤ) + 1) := lt_two_zpow_log2 digits
    _ ≤ 2 ^ (3 * (digits.log2 / 3 + 1 : ℕ) : ℤ) := zpow_le_zpow_right₀ (by norm_num) (by omega)
    _ ≤ 10 ^ ((digits.log2 / 3 + 1 : ℕ) : ℤ) := two_zpow_le_ten_zpow _
    _ = 10 ^ ((digits.log2 / 3 : ℕ) + 1 : ℤ) := by push_cast; rfl

theorem tiny_of_magnitude {digits : ℕ} {exponent : ℤ}
    (tiny : exponent + (digits.log2 / 3 : ℕ) < -400) :
    (digits * 10 ^ exponent : ℚ) < 2 ^ (-1075 : ℤ) := by
  have positive (power : ℤ) : (0 : ℚ) < 10 ^ power := zpow_pos (by norm_num) power
  calc (digits * 10 ^ exponent : ℚ) < 10 ^ ((digits.log2 / 3 : ℕ) + 1 : ℤ) * 10 ^ exponent :=
        mul_lt_mul_of_pos_right (digits_lt_ten_zpow digits) (positive exponent)
    _ = 10 ^ ((digits.log2 / 3 : ℕ) + 1 + exponent : ℤ) := (zpow_add₀ (by norm_num) _ _).symm
    _ ≤ 10 ^ (-(400 : ℕ) : ℤ) := zpow_le_zpow_right₀ (by norm_num) (by omega)
    _ ≤ 2 ^ (-(3 * (400 : ℕ)) : ℤ) := by
        rw [zpow_neg, zpow_neg]
        exact inv_anti₀ (two_zpow_pos _) (two_zpow_le_ten_zpow 400)
    _ ≤ 2 ^ (-1075 : ℤ) := zpow_le_zpow_right₀ (by norm_num) (by norm_num)

/-- The double precision number of decimal digits is the one that they are rounded to. -/
theorem rounds_nearestDecimal (negative : Bool) (digits : ℕ) (exponent : ℤ) :
    Rounds (signedBy negative (digits * 10 ^ exponent))
      (decode (nearestDecimal negative digits exponent)) := by
  rw [nearestDecimal]
  split
  · next zero =>
      apply rounds_nearest_zero
      rw [beq_iff_eq.mp zero, Nat.cast_zero, zero_mul, abs_zero]
      exact two_zpow_pos _
  · next nonzero =>
      have atLeast : (1 : ℚ) ≤ digits := by
        have : digits ≠ 0 := by simpa using nonzero
        exact_mod_cast Nat.one_le_iff_ne_zero.mpr this
      split
      · next huge =>
          have fields : Float.ofBits (if negative then 0xFFF0000000000000 else 0x7FF0000000000000) =
              ofFields negative 2047 0 := by
            cases negative <;> rfl
          rw [fields, decode_ofFields negative (by decide) (by decide) (by decide)]
          refine .infinite negative ?_
          rw [abs_signedBy, abs_of_nonneg (by positivity)]
          exact (overflowBound_le_ten_zpow huge).trans (le_mul_of_one_le_left (by positivity) atLeast)
      · split
        · next tiny =>
            apply rounds_nearest_zero
            rw [abs_of_nonneg (by positivity)]
            exact tiny_of_magnitude tiny
        · split
          · next whole =>
              have rounds := rounds_nearest negative (digits * tenTo exponent.toNat) Nat.one_pos
              have value : ((digits * tenTo exponent.toNat : ℕ) : ℚ) / (1 : ℕ) =
                  digits * 10 ^ exponent := by
                rw [Nat.cast_mul, tenTo_eq, Int.toNat_of_nonneg whole]
                simp
              rwa [value] at rounds
          · next fraction =>
              have positive : 0 < tenTo (-exponent).toNat := Nat.pow_pos (by decide)
              have rounds := rounds_nearest negative digits positive
              have value : (digits : ℚ) / (tenTo (-exponent).toNat) = digits * 10 ^ exponent := by
                rw [tenTo_eq, Int.toNat_of_nonneg (by omega), zpow_neg, div_inv_eq_mul]
              rwa [value] at rounds

end InputScript.Number
