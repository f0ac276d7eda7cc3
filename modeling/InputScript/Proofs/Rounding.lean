/-
Module: InputScript.Proofs.Rounding
Purpose: Rounding to double precision over the exact fractions: which double precision number a number
  is rounded to, that there is only one, and that a mantissa rounded to a whole number gives it.  A
  whole number that a short decimal is rounded to is the decimal itself.
Main exports: IsDouble, RoundsTo, roundsTo_rounded
-/
import InputScript.Number.Binary
import Mathlib

namespace InputScript.Number

/-! ### Double precision numbers and rounding to them -/

/-- The finite double precision numbers: a mantissa of fifty-three bits times a power of two. -/
def IsDouble (x : ℚ) : Prop :=
  ∃ mantissa exponent : ℤ, |mantissa| < 2 ^ 53 ∧ -1074 ≤ exponent ∧ exponent ≤ 971 ∧
    x = mantissa * 2 ^ exponent

/-- From here on a number is rounded to infinity: the middle between the largest double precision number
and what would be the next one. -/
def overflowBound : ℚ := (2 ^ 54 - 1) * 2 ^ (970 : ℤ)

/-- A number is rounded to the nearest double precision number.  Of two equally near ones it is the even
one, which is an even multiple of the distance between them. -/
structure RoundsTo (exact x : ℚ) : Prop where
  isDouble : IsDouble x
  nearest : ∀ y, IsDouble y → |exact - x| ≤ |exact - y|
  even : ∀ y, IsDouble y → y ≠ x → |exact - y| = |exact - x| → ∃ k : ℤ, x = 2 * k * (x - y)
  bounded : |exact| < overflowBound

/-- Half of the least number. -/
theorem two_zpow_least : (2 : ℚ) ^ (-1074 : ℤ) = 2 ^ (-1075 : ℤ) * 2 :=
  zpow_add_one₀ two_ne_zero (-1075)

theorem isDouble_zero : IsDouble 0 :=
  ⟨0, 0, by norm_num, by norm_num, by norm_num, by simp⟩

theorem IsDouble.neg {x : ℚ} (double : IsDouble x) : IsDouble (-x) := by
  obtain ⟨mantissa, exponent, short, low, high, rfl⟩ := double
  refine ⟨-mantissa, exponent, ?_, low, high, ?_⟩
  · rwa [abs_neg]
  · push_cast
    ring

namespace RoundsTo

variable {exact x y : ℚ}

/-- There is one number that another is rounded to. -/
theorem unique (first : RoundsTo exact x) (second : RoundsTo exact y) : x = y := by
  by_contra differ
  have tie : |exact - x| = |exact - y| :=
    le_antisymm (first.nearest y second.isDouble) (second.nearest x first.isDouble)
  obtain ⟨k, xEven⟩ := first.even y second.isDouble (Ne.symm differ) tie.symm
  obtain ⟨l, yEven⟩ := second.even x first.isDouble differ tie
  -- The distance would be an even multiple of itself.
  have multiple : (x - y) * (2 * (k + l) - 1) = 0 := by linear_combination yEven - xEven
  have odd : (2 * (k + l) - 1 : ℚ) ≠ 0 := by
    exact_mod_cast show 2 * (k + l) - 1 ≠ 0 by omega
  exact differ (sub_eq_zero.mp ((mul_eq_zero.mp multiple).resolve_right odd))

theorem neg (rounds : RoundsTo exact x) : RoundsTo (-exact) (-x) := by
  have mirrored (z : ℚ) : |-exact - z| = |exact - -z| := by
    rw [← abs_neg, neg_sub', neg_neg]
  refine ⟨rounds.isDouble.neg, ?_, ?_, ?_⟩
  · intro y double
    rw [mirrored, mirrored, neg_neg]
    exact rounds.nearest (-y) double.neg
  · intro y double differ tie
    rw [mirrored, mirrored, neg_neg] at tie
    obtain ⟨k, even⟩ := rounds.even (-y) double.neg (fun same => differ (neg_eq_iff_eq_neg.mp same)) tie
    exact ⟨k, by linear_combination -even⟩
  · rw [abs_neg]
    exact rounds.bounded

/-- A double precision number is rounded to itself only. -/
theorem eq_of_isDouble (rounds : RoundsTo exact x) (double : IsDouble exact) : x = exact := by
  have near := rounds.nearest exact double
  rw [sub_self, abs_zero] at near
  exact (sub_eq_zero.mp (abs_nonpos_iff.mp near)).symm

end RoundsTo

/-! ### Rounding a quotient -/

/-- A quotient is rounded to a whole number that is not farther than a half from it, and to an even one
if it is just as far. -/
structure RoundsWhole (exact : ℚ) (whole : ℤ) : Prop where
  error : |exact - whole| ≤ 1 / 2
  even : |exact - whole| = 1 / 2 → ∃ half : ℤ, whole = 2 * half

/-- Two whole numbers are not both near to a number. -/
theorem one_le_distances (exact : ℚ) {whole other : ℤ} (differs : other ≠ whole) :
    1 ≤ |exact - other| + |exact - whole| ∧
      |(other : ℚ) - whole| ≤ |exact - other| + |exact - whole| := by
  have apart : (1 : ℚ) ≤ |(other : ℚ) - whole| := by
    exact_mod_cast Int.one_le_abs (sub_ne_zero.mpr differs)
  have triangle := abs_sub_le (other : ℚ) exact whole
  rw [abs_sub_comm (other : ℚ) exact] at triangle
  exact ⟨apart.trans triangle, triangle⟩

variable {exact : ℚ}

/-- No other whole number is nearer. -/
theorem RoundsWhole.nearest {whole : ℤ} (rounds : RoundsWhole exact whole) (other : ℤ) :
    |exact - whole| ≤ |exact - other| := by
  by_cases same : other = whole
  · rw [same]
  · have apart := (one_le_distances exact same).1
    have error := rounds.error
    linarith

/-- Another whole number just as near is the next one, and then the chosen one is even. -/
theorem RoundsWhole.tie {whole other : ℤ} (rounds : RoundsWhole exact whole)
    (differs : other ≠ whole) (tie : |exact - other| = |exact - whole|) :
    (whole - other = 1 ∨ whole - other = -1) ∧ ∃ half : ℤ, whole = 2 * half := by
  obtain ⟨apart, triangle⟩ := one_le_distances exact differs
  have error := rounds.error
  have half : |exact - whole| = 1 / 2 := by linarith
  have close : |other - whole| ≤ 1 := by
    have : |(other : ℚ) - whole| ≤ 1 := by linarith
    exact_mod_cast this
  refine ⟨?_, rounds.even half⟩
  rw [abs_le] at close
  omega

section Part

variable {whole : ℤ} {part : ℚ}

theorem roundsWhole_below (low : 0 ≤ part) (less : part < 1 / 2) : RoundsWhole (whole + part) whole := by
  have error : |whole + part - whole| = part := by rw [add_sub_cancel_left, abs_of_nonneg low]
  refine ⟨error.le.trans less.le, ?_⟩
  intro half
  exact absurd (error.symm.trans half) less.ne

theorem roundsWhole_above (more : 1 / 2 < part) (high : part < 1) :
    RoundsWhole (whole + part) (whole + 1 : ℤ) := by
  have error : |whole + part - (whole + 1 : ℤ)| = 1 - part := by
    rw [abs_sub_comm, Int.cast_add, Int.cast_one, add_sub_add_left_eq_sub, abs_of_pos (sub_pos.mpr high)]
  constructor
  · rw [error]
    linarith
  · intro half
    rw [error] at half
    linarith

/-- A half is rounded to the even neighbour. -/
theorem roundsWhole_half : RoundsWhole (whole + 1 / 2) (whole + whole % 2 : ℤ) := by
  constructor
  · rcases Int.emod_two_eq_zero_or_one whole with even | odd
    · rw [even, add_zero, add_sub_cancel_left, abs_of_pos (by norm_num)]
    · rw [odd, Int.cast_add, Int.cast_one, add_sub_add_left_eq_sub]
      norm_num
  · intro _
    exact ⟨(whole + whole % 2) / 2, by omega⟩

end Part

variable {denominator : ℕ}

/-- A fraction is the whole quotient and the part that the remainder is of the denominator. -/
theorem quotient_add_part (numerator : ℕ) (positive : 0 < denominator) :
    (numerator : ℚ) / denominator =
      ((numerator / denominator : ℕ) : ℤ) + (numerator % denominator : ℕ) / denominator := by
  have cast : (denominator : ℚ) ≠ 0 := by exact_mod_cast positive.ne'
  have divided : (numerator : ℚ) =
      denominator * (numerator / denominator : ℕ) + (numerator % denominator : ℕ) := by
    exact_mod_cast (Nat.div_add_mod numerator denominator).symm
  rw [Int.cast_natCast, div_eq_iff cast, add_mul, div_mul_cancel₀ _ cast, mul_comm]
  exact divided

variable {numerator : ℕ}

theorem roundsWhole_roundQuotient (positive : 0 < denominator) :
    RoundsWhole ((numerator : ℚ) / denominator) (roundQuotient numerator denominator : ℤ) := by
  have cast : (0 : ℚ) < denominator := by exact_mod_cast positive
  have short : ((numerator % denominator : ℕ) : ℚ) < denominator := by
    exact_mod_cast Nat.mod_lt numerator positive
  rw [quotient_add_part numerator positive, roundQuotient]
  -- The cases are the branches of the rounding: below, at and above the half.
  split
  · next below =>
      have twice : (2 * (numerator % denominator : ℕ) : ℚ) < denominator := by exact_mod_cast below
      apply roundsWhole_below
      · positivity
      · rw [div_lt_iff₀ cast]
        linarith
  · next notBelow =>
      split
      · next half =>
          have twice : (2 * (numerator % denominator : ℕ) : ℚ) = denominator := by
            exact_mod_cast beq_iff_eq.mp half
          have isHalf : ((numerator % denominator : ℕ) : ℚ) / denominator = 1 / 2 := by
            rw [div_eq_iff cast.ne']
            linarith
          rw [isHalf]
          exact_mod_cast @roundsWhole_half (numerator / denominator : ℕ)
      · next notHalf =>
          have twice : (denominator : ℚ) < 2 * (numerator % denominator : ℕ) := by
            have apart : 2 * (numerator % denominator) ≠ denominator := by simpa using notHalf
            exact_mod_cast lt_of_le_of_ne (not_lt.mp notBelow) (Ne.symm apart)
          apply roundsWhole_above
          · rw [lt_div_iff₀ cast]
            linarith
          · rw [div_lt_one cast]
            exact short

theorem twoTo_eq (count : ℕ) : (twoTo count : ℚ) = 2 ^ (count : ℤ) := by
  rw [zpow_natCast]
  exact_mod_cast (rfl : twoTo count = 2 ^ count)

theorem snd_scaledFraction_pos (numerator : ℕ) (positive : 0 < denominator) (shift : ℤ) :
    0 < (scaledFraction numerator denominator shift).2 := by
  rw [scaledFraction]
  split
  · exact positive
  · exact Nat.mul_pos positive (Nat.two_pow_pos _)

theorem scaledFraction_eq (numerator denominator : ℕ) (shift : ℤ) :
    ((scaledFraction numerator denominator shift).1 : ℚ) /
        (scaledFraction numerator denominator shift).2 =
      numerator / denominator * 2 ^ shift := by
  rw [scaledFraction]
  split
  · next up =>
      rw [Nat.cast_mul, twoTo_eq, Int.toNat_of_nonneg up]
      ring
  · next down =>
      rw [Nat.cast_mul, twoTo_eq, Int.toNat_of_nonneg (by omega), zpow_neg]
      field_simp

/-- The rounded quotient of a scaled fraction. -/
theorem roundsWhole_scaledFraction (numerator : ℕ) (positive : 0 < denominator) (shift : ℤ) :
    RoundsWhole (numerator / denominator * 2 ^ shift)
      (roundQuotient (scaledFraction numerator denominator shift).1
        (scaledFraction numerator denominator shift).2 : ℤ) := by
  rw [← scaledFraction_eq]
  exact roundsWhole_roundQuotient (snd_scaledFraction_pos numerator positive shift)

/-! ### The exponent of the mantissa -/

theorem two_zpow_pos (exponent : ℤ) : (0 : ℚ) < 2 ^ exponent :=
  zpow_pos (by norm_num) exponent

theorem two_zpow_log2_le {number : ℕ} (positive : 0 < number) : (2 : ℚ) ^ (number.log2 : ℤ) ≤ number := by
  rw [zpow_natCast]
  exact_mod_cast Nat.log2_self_le positive.ne'

theorem lt_two_zpow_log2 (number : ℕ) : (number : ℚ) < 2 ^ ((number.log2 : ℤ) + 1) := by
  rw [← Nat.cast_succ, zpow_natCast]
  exact_mod_cast Nat.lt_log2_self

/-- The logarithms of numerator and denominator fix a fraction up to a factor of four. -/
theorem fraction_bounds (positive : 0 < numerator) (nonzero : 0 < denominator) :
    (2 : ℚ) ^ ((numerator.log2 : ℤ) - denominator.log2 - 1) < numerator / denominator ∧
      (numerator / denominator : ℚ) < 2 ^ ((numerator.log2 : ℤ) - denominator.log2 + 1) := by
  have cast : (0 : ℚ) < denominator := by exact_mod_cast nonzero
  constructor
  · rw [lt_div_iff₀ cast]
    calc (2 : ℚ) ^ ((numerator.log2 : ℤ) - denominator.log2 - 1) * denominator
        < 2 ^ ((numerator.log2 : ℤ) - denominator.log2 - 1) * 2 ^ ((denominator.log2 : ℤ) + 1) :=
          mul_lt_mul_of_pos_left (lt_two_zpow_log2 denominator) (two_zpow_pos _)
      _ = 2 ^ (numerator.log2 : ℤ) := by
          rw [← zpow_add₀ (by norm_num)]
          congr 1
          ring
      _ ≤ numerator := two_zpow_log2_le positive
  · rw [div_lt_iff₀ cast]
    calc (numerator : ℚ) < 2 ^ ((numerator.log2 : ℤ) + 1) := lt_two_zpow_log2 numerator
      _ = 2 ^ ((numerator.log2 : ℤ) - denominator.log2 + 1) * 2 ^ (denominator.log2 : ℤ) := by
          rw [← zpow_add₀ (by norm_num)]
          congr 1
          ring
      _ ≤ 2 ^ ((numerator.log2 : ℤ) - denominator.log2 + 1) * denominator :=
          mul_le_mul_of_nonneg_left (two_zpow_log2_le nonzero) (two_zpow_pos _).le

/-- The exponent that gives a number a mantissa of fifty-three bits, or the least one. -/
structure IsMantissaExponent (exact : ℚ) (exponent : ℤ) : Prop where
  least : -1074 ≤ exponent
  short : exact * 2 ^ (-exponent) < 2 ^ 53
  full : exponent = -1074 ∨ 2 ^ 52 ≤ exact * 2 ^ (-exponent)

section Guess

variable {exact : ℚ} {guess : ℤ}

theorem full_guess (lower : 2 ^ (guess + 52) < exact) : 2 ^ 52 ≤ exact * 2 ^ (-guess) := by
  have product := mul_lt_mul_of_pos_right lower (two_zpow_pos (-guess))
  have sum : guess + 52 + -guess = 52 := by omega
  rw [← zpow_add₀ (by norm_num), sum] at product
  exact product.le

/-- A guess that is too low is one too low. -/
theorem next_guess (upper : exact < 2 ^ (guess + 54)) (large : 2 ^ 53 ≤ exact * 2 ^ (-guess)) :
    2 ^ 52 ≤ exact * 2 ^ (-(guess + 1)) ∧ exact * 2 ^ (-(guess + 1)) < 2 ^ 53 := by
  constructor
  · have halved : (2 : ℚ) ^ (-guess) = 2 ^ (-(guess + 1)) * 2 := by
      rw [← zpow_add_one₀ (by norm_num)]
      congr 1
      ring
    rw [halved] at large
    linarith
  · have product := mul_lt_mul_of_pos_right upper (two_zpow_pos (-(guess + 1)))
    have sum : guess + 54 + -(guess + 1) = 53 := by omega
    rw [← zpow_add₀ (by norm_num), sum] at product
    exact product

end Guess

theorem isMantissaExponent (positive : 0 < numerator) (nonzero : 0 < denominator) :
    IsMantissaExponent (numerator / denominator) (mantissaExponent numerator denominator) := by
  obtain ⟨guess, guessEq⟩ :
      ∃ guess : ℤ, (numerator.log2 : ℤ) - (denominator.log2 : ℤ) - 53 = guess := ⟨_, rfl⟩
  obtain ⟨lower, upper⟩ := fraction_bounds positive nonzero
  rw [show (numerator.log2 : ℤ) - denominator.log2 - 1 = guess + 52 by omega] at lower
  rw [show (numerator.log2 : ℤ) - denominator.log2 + 1 = guess + 54 by omega] at upper
  have scaledPositive := snd_scaledFraction_pos numerator nonzero (-guess)
  have cast : (0 : ℚ) < (scaledFraction numerator denominator (-guess)).2 := by
    exact_mod_cast scaledPositive
  have tested : (scaledFraction numerator denominator (-guess)).1 /
      (scaledFraction numerator denominator (-guess)).2 < twoTo 53 ↔
      (numerator / denominator * 2 ^ (-guess) : ℚ) < 2 ^ 53 := by
    rw [← scaledFraction_eq, div_lt_iff₀ cast, Nat.div_lt_iff_lt_mul scaledPositive]
    exact_mod_cast Iff.rfl
  -- Without regard to the least exponent the mantissa has fifty-three bits.
  obtain ⟨exponent, exponentEq⟩ :
      ∃ exponent : ℤ, (if (scaledFraction numerator denominator (-guess)).1 /
        (scaledFraction numerator denominator (-guess)).2 < twoTo 53 then guess else guess + 1) =
        exponent := ⟨_, rfl⟩
  have normal : (2 : ℚ) ^ 52 ≤ numerator / denominator * 2 ^ (-exponent) ∧
      (numerator / denominator * 2 ^ (-exponent) : ℚ) < 2 ^ 53 := by
    split at exponentEq
    · next small =>
        subst exponentEq
        exact ⟨full_guess lower, tested.mp small⟩
    · next large =>
        subst exponentEq
        rw [tested, not_lt] at large
        exact next_guess upper large
  have result : mantissaExponent numerator denominator = max exponent (-1074) := by
    rw [← exponentEq, ← guessEq]
    rfl
  rw [result]
  rcases le_total (-1074) exponent with high | low
  · rw [max_eq_left high]
    exact ⟨high, normal.2, .inr normal.1⟩
  · rw [max_eq_right low]
    refine ⟨le_rfl, lt_of_le_of_lt ?_ normal.2, .inl rfl⟩
    have fraction : (0 : ℚ) ≤ numerator / denominator := by positivity
    apply mul_le_mul_of_nonneg_left _ fraction
    exact zpow_le_zpow_right₀ (by norm_num) (by omega)

/-! ### The nearest number -/

theorem abs_mul_of_pos {factor : ℚ} (positive : 0 < factor) (x : ℚ) :
    |x * factor| = |x| * factor := by
  rw [abs_mul, abs_of_pos positive]

/-- A double precision number is a multiple of a power of two, unless it is too small to be near a number
with a mantissa over this power. -/
theorem IsDouble.multiple_or_small {x : ℚ} (double : IsDouble x) (exponent : ℤ) :
    (∃ multiple : ℤ, x = multiple * 2 ^ exponent) ∨ -1074 < exponent ∧ x < 2 ^ 52 * 2 ^ exponent := by
  obtain ⟨mantissa, own, short, low, -, rfl⟩ := double
  rcases le_or_gt exponent own with coarse | fine
  · left
    refine ⟨mantissa * 2 ^ (own - exponent).toNat, ?_⟩
    have split : (2 : ℚ) ^ own = 2 ^ (own - exponent).toNat * 2 ^ exponent := by
      rw [← zpow_natCast, Int.toNat_of_nonneg (by omega), ← zpow_add₀ (by norm_num)]
      congr 1
      ring
    rw [split]
    push_cast
    ring
  · right
    refine ⟨by omega, ?_⟩
    have below : (mantissa : ℚ) < 2 ^ 53 := by exact_mod_cast (abs_lt.mp short).2
    calc (mantissa : ℚ) * 2 ^ own < 2 ^ 53 * 2 ^ own := mul_lt_mul_of_pos_right below (two_zpow_pos _)
      _ = 2 ^ 52 * 2 ^ (own + 1) := by
          rw [zpow_add_one₀ (by norm_num)]
          ring
      _ ≤ 2 ^ 52 * 2 ^ exponent := by
          apply mul_le_mul_of_nonneg_left _ (by norm_num)
          exact zpow_le_zpow_right₀ (by norm_num) (by omega)

theorem overflowBound_eq : overflowBound = (2 ^ 53 - 1 / 2) * 2 ^ (971 : ℤ) := by
  have step : (2 : ℚ) ^ (971 : ℤ) = 2 ^ (970 : ℤ) * 2 := zpow_add_one₀ (by norm_num) 970
  rw [overflowBound, step]
  ring

/-- A double precision number is rounded to itself. -/
theorem IsDouble.roundsTo_self {x : ℚ} (double : IsDouble x) : RoundsTo x x := by
  refine ⟨double, ?_, ?_, ?_⟩
  · intro y _
    rw [sub_self, abs_zero]
    exact abs_nonneg _
  · intro y _ differs tie
    rw [sub_self, abs_zero, abs_eq_zero, sub_eq_zero] at tie
    exact absurd tie.symm differs
  · obtain ⟨mantissa, exponent, short, -, high, rfl⟩ := double
    have atMost : |(mantissa : ℚ)| ≤ 2 ^ 53 - 1 := by exact_mod_cast Int.le_sub_one_of_lt short
    rw [abs_mul_of_pos (two_zpow_pos exponent), overflowBound_eq]
    calc |(mantissa : ℚ)| * 2 ^ exponent ≤ (2 ^ 53 - 1) * 2 ^ (971 : ℤ) := by
          apply mul_le_mul atMost _ (two_zpow_pos _).le (by norm_num)
          exact zpow_le_zpow_right₀ (by norm_num) high
      _ < (2 ^ 53 - 1 / 2) * 2 ^ (971 : ℤ) := mul_lt_mul_of_pos_right (by norm_num) (two_zpow_pos _)

section Nearest

variable {exact : ℚ} {exponent mantissa : ℤ} (scaled : IsMantissaExponent exact exponent)
  (rounds : RoundsWhole (exact * 2 ^ (-exponent)) mantissa)

theorem exact_eq (exact : ℚ) (exponent : ℤ) : exact = exact * 2 ^ (-exponent) * 2 ^ exponent := by
  rw [mul_assoc, ← zpow_add₀ (by norm_num), neg_add_cancel, zpow_zero, mul_one]

/-- The distance to a multiple of the power of two. -/
theorem abs_exact_sub (exact : ℚ) (exponent multiple : ℤ) :
    |exact - multiple * 2 ^ exponent| = |exact * 2 ^ (-exponent) - multiple| * 2 ^ exponent := by
  rw [← abs_mul_of_pos (two_zpow_pos exponent), sub_mul, ← exact_eq]

include scaled rounds

theorem mantissa_le : mantissa ≤ 2 ^ 53 := by
  have error := (abs_le.mp rounds.error).1
  have short := scaled.short
  have bound : (mantissa : ℚ) < 2 ^ 53 + 1 := by linarith
  exact Int.lt_add_one_iff.mp (by exact_mod_cast bound)

theorem le_mantissa (large : -1074 < exponent) : 2 ^ 52 ≤ mantissa := by
  have error := (abs_le.mp rounds.error).2
  have full := scaled.full.resolve_left (by omega)
  have bound : (2 ^ 52 - 1 : ℚ) < mantissa := by linarith
  have : (2 ^ 52 - 1 : ℤ) < mantissa := by exact_mod_cast bound
  omega

/-- A double precision number that is no multiple of the power of two is farther away. -/
theorem farther {y : ℚ} (large : -1074 < exponent) (small : y < 2 ^ 52 * 2 ^ exponent) :
    |exact - mantissa * 2 ^ exponent| < |exact - y| := by
  have full := scaled.full.resolve_left (by omega)
  have least : 2 ^ 52 * 2 ^ exponent ≤ exact := by
    conv_rhs => rw [exact_eq exact exponent]
    exact mul_le_mul_of_nonneg_right full (two_zpow_pos _).le
  have near := rounds.nearest (2 ^ 52)
  calc |exact - mantissa * 2 ^ exponent| ≤ |exact - ((2 ^ 52 : ℤ) : ℚ) * 2 ^ exponent| := by
        rw [abs_exact_sub, abs_exact_sub]
        exact mul_le_mul_of_nonneg_right near (two_zpow_pos _).le
    _ = exact - 2 ^ 52 * 2 ^ exponent := by
        push_cast
        exact abs_of_nonneg (by linarith)
    _ < exact - y := by linarith
    _ ≤ |exact - y| := le_abs_self _

theorem isDouble_rounded (nonnegative : 0 ≤ exact)
    (finite : exponent ≤ 970 ∨ exponent = 971 ∧ mantissa < 2 ^ 53) :
    IsDouble (mantissa * 2 ^ exponent) := by
  have atMost := mantissa_le scaled rounds
  have atLeast : 0 ≤ mantissa := by
    have error := (abs_le.mp rounds.error).2
    have scaledNonnegative : 0 ≤ exact * 2 ^ (-exponent) := mul_nonneg nonnegative (two_zpow_pos _).le
    have bound : (-1 : ℚ) < mantissa := by linarith
    have : (-1 : ℤ) < mantissa := by exact_mod_cast bound
    omega
  have low := scaled.least
  rcases lt_or_eq_of_le atMost with short | carried
  · exact ⟨mantissa, exponent, by rwa [abs_of_nonneg atLeast], low, by omega, rfl⟩
  · -- The mantissa was rounded up to the next power of two.
    refine ⟨2 ^ 52, exponent + 1, by norm_num, by omega, by omega, ?_⟩
    rw [carried, zpow_add_one₀ (by norm_num)]
    push_cast
    ring

theorem bounded_rounded (nonnegative : 0 ≤ exact)
    (finite : exponent ≤ 970 ∨ exponent = 971 ∧ mantissa < 2 ^ 53) : |exact| < overflowBound := by
  rw [abs_of_nonneg nonnegative, exact_eq exact exponent]
  rcases finite with low | ⟨rfl, short⟩
  · calc exact * 2 ^ (-exponent) * 2 ^ exponent < 2 ^ 53 * 2 ^ exponent :=
          mul_lt_mul_of_pos_right scaled.short (two_zpow_pos _)
      _ ≤ 2 ^ 53 * 2 ^ (970 : ℤ) := by
          apply mul_le_mul_of_nonneg_left _ (by norm_num)
          exact zpow_le_zpow_right₀ (by norm_num) low
      _ < overflowBound := mul_lt_mul_of_pos_right (by norm_num) (two_zpow_pos _)
  · have below : exact * 2 ^ (-971 : ℤ) < 2 ^ 53 - 1 / 2 := by
      have error := (abs_le.mp rounds.error).2
      have atMost : (mantissa : ℚ) ≤ 2 ^ 53 - 1 := by exact_mod_cast Int.le_sub_one_of_lt short
      refine lt_of_le_of_ne (by linarith) ?_
      intro same
      -- The largest mantissa is odd.
      have largest : (mantissa : ℚ) = 2 ^ 53 - 1 := by linarith
      obtain ⟨half, even⟩ := rounds.even (by rw [same, largest]; norm_num)
      have : mantissa = 2 ^ 53 - 1 := by exact_mod_cast largest
      omega
    calc exact * 2 ^ (-971 : ℤ) * 2 ^ (971 : ℤ) < (2 ^ 53 - 1 / 2) * 2 ^ (971 : ℤ) :=
          mul_lt_mul_of_pos_right below (two_zpow_pos _)
      _ = overflowBound := overflowBound_eq.symm

theorem roundsTo_rounded (nonnegative : 0 ≤ exact)
    (finite : exponent ≤ 970 ∨ exponent = 971 ∧ mantissa < 2 ^ 53) :
    RoundsTo exact (mantissa * 2 ^ exponent) where
  isDouble := isDouble_rounded scaled rounds nonnegative finite
  bounded := bounded_rounded scaled rounds nonnegative finite
  nearest y double := by
    rcases double.multiple_or_small exponent with ⟨multiple, rfl⟩ | ⟨large, small⟩
    · rw [abs_exact_sub, abs_exact_sub]
      exact mul_le_mul_of_nonneg_right (rounds.nearest multiple) (two_zpow_pos _).le
    · exact (farther scaled rounds large small).le
  even y double differs tie := by
    rcases double.multiple_or_small exponent with ⟨multiple, rfl⟩ | ⟨large, small⟩
    · have other : multiple ≠ mantissa := by
        rintro rfl
        exact differs rfl
      rw [abs_exact_sub, abs_exact_sub] at tie
      have scaledTie := mul_right_cancel₀ (two_zpow_pos exponent).ne' tie
      obtain ⟨next, half, even⟩ := rounds.tie other scaledTie
      have distance : (mantissa * 2 ^ exponent - multiple * 2 ^ exponent : ℚ) =
          (mantissa - multiple : ℤ) * 2 ^ exponent := by
        push_cast
        ring
      rw [distance]
      rcases next with up | down
      · exact ⟨half, by rw [up, even]; push_cast; ring⟩
      · exact ⟨-half, by rw [down, even]; push_cast; ring⟩
    · exact absurd tie (farther scaled rounds large small).ne'

/-- A number whose rounded mantissa is out of range is rounded to infinity. -/
theorem overflowBound_le (infinite : 971 < exponent ∨ exponent = 971 ∧ 2 ^ 53 ≤ mantissa) :
    overflowBound ≤ exact := by
  rw [exact_eq exact exponent]
  rcases infinite with high | ⟨rfl, carried⟩
  · have full := scaled.full.resolve_left (by omega)
    calc overflowBound ≤ 2 ^ 54 * (2 : ℚ) ^ (970 : ℤ) :=
          mul_le_mul_of_nonneg_right (by norm_num) (two_zpow_pos _).le
      _ = 2 ^ 52 * 2 ^ (970 + 2 : ℤ) := by
          rw [zpow_add₀ (by norm_num)]
          ring
      _ ≤ 2 ^ 52 * 2 ^ exponent := by
          apply mul_le_mul_of_nonneg_left _ (by norm_num)
          exact zpow_le_zpow_right₀ (by norm_num) (by omega)
      _ ≤ exact * 2 ^ (-exponent) * 2 ^ exponent :=
          mul_le_mul_of_nonneg_right full (two_zpow_pos _).le
  · have error := (abs_le.mp rounds.error).1
    have atLeast : (2 ^ 53 : ℚ) ≤ mantissa := by exact_mod_cast carried
    rw [overflowBound_eq]
    exact mul_le_mul_of_nonneg_right (by linarith) (two_zpow_pos _).le

end Nearest

/-! ### Numbers near zero -/

/-- A double precision number other than zero is not below the least exponent. -/
theorem IsDouble.le_abs {x : ℚ} (double : IsDouble x) (nonzero : x ≠ 0) : 2 ^ (-1074 : ℤ) ≤ |x| := by
  obtain ⟨mantissa, exponent, -, low, -, rfl⟩ := double
  have some : (1 : ℚ) ≤ |(mantissa : ℚ)| := by
    have : mantissa ≠ 0 := by
      rintro rfl
      simp at nonzero
    exact_mod_cast Int.one_le_abs this
  rw [abs_mul_of_pos (two_zpow_pos exponent)]
  calc (2 : ℚ) ^ (-1074 : ℤ) ≤ 2 ^ exponent := zpow_le_zpow_right₀ (by norm_num) low
    _ ≤ |(mantissa : ℚ)| * 2 ^ exponent := le_mul_of_one_le_left (two_zpow_pos _).le some

/-- A number that is nearer to zero than half of the least number is rounded to zero. -/
theorem roundsTo_zero (tiny : |exact| < 2 ^ (-1075 : ℤ)) : RoundsTo exact 0 := by
  have farther {y : ℚ} (isDouble : IsDouble y) (nonzero : y ≠ 0) : |exact - 0| < |exact - y| := by
    have large := isDouble.le_abs nonzero
    have triangle := abs_sub_abs_le_abs_sub y exact
    rw [sub_zero, abs_sub_comm exact y]
    linarith [two_zpow_least]
  refine ⟨isDouble_zero, ?_, ?_, ?_⟩
  · intro y isDouble
    by_cases zero : y = 0
    · rw [zero]
    · exact (farther isDouble zero).le
  · intro y isDouble nonzero tie
    exact absurd tie (farther isDouble nonzero).ne'
  · calc |exact| < 2 ^ (-1075 : ℤ) := tiny
      _ ≤ 1 * 2 ^ (970 : ℤ) := by
          rw [one_mul]
          exact zpow_le_zpow_right₀ (by norm_num) (by norm_num)
      _ ≤ overflowBound := mul_le_mul_of_nonneg_right (by norm_num) (two_zpow_pos _).le

/-! ### The error of rounding -/

theorem exists_mantissa (positive : 0 < exact) :
    ∃ exponent mantissa : ℤ, IsMantissaExponent exact exponent ∧
      RoundsWhole (exact * 2 ^ (-exponent)) mantissa := by
  obtain ⟨numerator, numeratorEq⟩ := Int.eq_ofNat_of_zero_le (Rat.num_nonneg.mpr positive.le)
  have fraction : (numerator : ℚ) / exact.den = exact := by
    rw [← Int.cast_natCast, ← numeratorEq, Rat.num_div_den]
  have numeratorPositive : 0 < numerator := by
    have := Rat.num_pos.mpr positive
    omega
  have scaled := isMantissaExponent numeratorPositive exact.den_pos
  have rounds := roundsWhole_scaledFraction numerator exact.den_pos
    (-mantissaExponent numerator exact.den)
  rw [fraction] at scaled rounds
  exact ⟨_, _, scaled, rounds⟩

/-- The error is at most half a unit in the last place: a part of the number, or half of the least
number. -/
theorem RoundsTo.error {x : ℚ} (rounds : RoundsTo exact x) :
    |exact - x| * 2 ^ 53 ≤ |exact| ∨ |exact - x| ≤ 2 ^ (-1075 : ℤ) := by
  wlog positive : 0 < exact generalizing exact x with mirrored
  · rcases eq_or_lt_of_le (not_lt.mp positive) with rfl | negative
    · rw [rounds.eq_of_isDouble isDouble_zero]
      simp
    · have opposite := mirrored rounds.neg (neg_pos.mpr negative)
      rwa [← neg_sub', abs_neg, abs_neg] at opposite
  obtain ⟨exponent, mantissa, scaled, whole⟩ := exists_mantissa positive
  have bounded := rounds.bounded
  rw [abs_of_pos positive] at bounded ⊢
  have finite : exponent ≤ 970 ∨ exponent = 971 ∧ mantissa < 2 ^ 53 := by
    by_contra infinite
    exact absurd (overflowBound_le scaled whole (by omega)) (not_le.mpr bounded)
  have half : |exact - x| ≤ 1 / 2 * 2 ^ exponent := by
    refine (rounds.nearest _ (isDouble_rounded scaled whole positive.le finite)).trans ?_
    rw [abs_exact_sub]
    exact mul_le_mul_of_nonneg_right whole.error (two_zpow_pos _).le
  rcases scaled.full with rfl | full
  · right
    linarith [two_zpow_least]
  · left
    have least := mul_le_mul_of_nonneg_right full (two_zpow_pos exponent).le
    rw [← exact_eq] at least
    linarith

/-- A decimal of few digits: with at most 323 places after the point, and without the point a whole
number of at most fifty-three bits. -/
def IsShort (x : ℚ) : Prop :=
  ∃ (places : ℕ) (whole : ℤ), places ≤ 323 ∧ |whole| < 2 ^ 53 ∧ x * 10 ^ places = whole

/-- A short decimal that is whole is a double precision number. -/
theorem IsShort.isDouble {number : ℤ} (short : IsShort number) : IsDouble number := by
  obtain ⟨places, whole, -, small, scaled⟩ := short
  refine ⟨number, 0, lt_of_le_of_lt ?_ small, by norm_num, by norm_num, by simp⟩
  have product : whole = number * 10 ^ places := by exact_mod_cast scaled.symm
  rw [product, abs_mul, abs_of_pos (by positivity : (0 : ℤ) < 10 ^ places)]
  exact le_mul_of_one_le_right (abs_nonneg _) (one_le_pow₀ (by norm_num))

/-- A short decimal that is rounded to a whole number is this number. -/
theorem RoundsTo.eq_of_isShort {number : ℤ} (rounds : RoundsTo exact number)
    (short : IsShort exact) : exact = number := by
  obtain ⟨places, whole, few, small, scaled⟩ := short
  have power : (0 : ℚ) < 10 ^ places := by positivity
  have near : |exact - number| * 10 ^ places < 1 := by
    rcases rounds.error with relative | absolute
    · have magnitude : |exact| * 10 ^ places < 2 ^ 53 := by
        rw [← abs_mul_of_pos power, scaled]
        exact_mod_cast small
      have product := mul_le_mul_of_nonneg_right relative power.le
      linarith
    · calc |exact - number| * 10 ^ places ≤ 2 ^ (-1075 : ℤ) * 10 ^ 323 := by
            apply mul_le_mul absolute _ power.le (two_zpow_pos _).le
            exact pow_le_pow_right₀ (by norm_num) few
        _ < 1 := by
            have less : (10 : ℚ) ^ 323 < 2 ^ 1075 := by
              exact_mod_cast (by decide +kernel : 10 ^ 323 < 2 ^ 1075)
            rw [zpow_neg, inv_mul_lt_iff₀ (two_zpow_pos _), mul_one]
            exact less
  -- Both are whole numbers of the last place, and less than one of it apart.
  have apart : |whole - number * 10 ^ places| < 1 := by
    rw [← abs_mul_of_pos power, sub_mul, scaled] at near
    exact_mod_cast near
  have same : whole = number * 10 ^ places := by
    have := Int.abs_lt_one_iff.mp apart
    omega
  apply mul_right_cancel₀ power.ne'
  rw [scaled, same]
  push_cast
  rfl

end InputScript.Number
