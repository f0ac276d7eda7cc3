/-
Module: InputScript.Proofs.Nap
Purpose: Naps without end.  A nap adds up the parts that it has slept.  A sum of chunks grows only
  until a chunk is less than half a unit in its last place, and then stays as it is; so it never
  becomes infinite, and a nap of infinite length is over only when the signal is set.
Main exports: NapElapses, Modest, not_napElapses_infinity
-/
import InputScript.Rehearsal.Stretch
import Mathlib

namespace InputScript.Rehearsal

open Float.Model Float.Model.UnpackedFloat

/-- Whether the time of a nap can elapse, part by part, while the signal stays unset. -/
inductive NapElapses (chunk seconds : Float) : Float → Prop where
  | ended {elapsed : Float} (ends : napStep false chunk elapsed seconds = .over false) :
      NapElapses chunk seconds elapsed
  | part {elapsed time later : Float} (sleeps : napStep false chunk elapsed seconds = .part time later)
      (elapses : NapElapses chunk seconds later) : NapElapses chunk seconds elapsed

/-! ### Rounding -/

theorem shiftRight_mantissa (extended : ExtendedMantissa) (places : Nat) :
    (extended >>> places).mantissa = extended.mantissa / 2 ^ places := by
  induction places with
  | zero => exact (Nat.div_one _).symm
  | succ places hypothesis =>
      change (extended >>> places).mantissa / 2 = _
      rw [hypothesis, Nat.div_div_eq_div_mul, Nat.pow_succ]

theorem shiftRight_succ_roundBit (extended : ExtendedMantissa) (places : Nat) :
    (extended >>> (places + 1)).roundBit = (extended.mantissa / 2 ^ places % 2 != 0) := by
  change ((extended >>> places).mantissa % 2 != 0) = _
  rw [shiftRight_mantissa]

theorem roundedMantissa_le (extended : ExtendedMantissa) :
    extended.roundedMantissa ≤ extended.mantissa + 1 := by
  obtain ⟨mantissa, _ | _, _ | _⟩ := extended <;>
    simp only [ExtendedMantissa.roundedMantissa, ExtendedMantissa.accuracy,
      Accuracy.roundToNearestEven] <;> omega

/-- Less than half a unit is rounded off. -/
theorem roundedMantissa_of_not_roundBit {extended : ExtendedMantissa}
    (low : extended.roundBit = false) : extended.roundedMantissa = extended.mantissa := by
  obtain ⟨mantissa, _ | _, _ | _⟩ := extended
  case false.false => rfl
  case false.true => rfl
  all_goals cases low

theorem binary64_targetExponent (total : Int) :
    Format.binary64.targetExponent total = max (total - 53) (-1074) := rfl

/-- A positive number whose unit in the last place is at most one. -/
def IsModest : UnpackedFloat → Prop
  | .zero .positive => True
  | .finite .positive _ exponent _ => exponent ≤ 0
  | _ => False

variable {mantissa : Nat} {exponent : Int}

/-- A number is modest after rounding if its mantissa, rounded off once, still fits. -/
theorem roundWithAccuracy_isModest {places : Nat}
    (reaches : Format.binary64.targetExponent (totalExponent mantissa exponent) = exponent + places)
    (low : exponent + places ≤ 0)
    (fits : totalExponent (ExtendedMantissa.mk mantissa false false >>> places).roundedMantissa
      (exponent + places) ≤ 53) :
    IsModest (roundWithAccuracy Format.binary64 .positive mantissa exponent .exact) := by
  have shifts : (exponent + places - exponent).toNat = places := by omega
  simp only [roundWithAccuracy, shiftToTargetExponent, shiftToExponent, reaches, shifts,
    ExtendedMantissa.ofMantissaAndAccuracy]
  split
  · trivial
  · change _ + _ ≤ _
    rw [binary64_targetExponent]
    omega

/-- A mantissa that is long enough is not made longer before it is rounded. -/
theorem round_of_long (long : 2 ^ 52 ≤ mantissa) (sign : Sign) (exponent : Int) :
    UnpackedFloat.round Format.binary64 sign mantissa exponent =
      roundWithAccuracy Format.binary64 sign mantissa exponent .exact := by
  have digits : 52 ≤ mantissa.log2 := (Nat.le_log2 (by omega)).mpr long
  have longer : (exponent - Format.binary64.targetExponent (totalExponent mantissa exponent)).toNat =
      0 := by
    rw [binary64_targetExponent, totalExponent]
    omega
  simp [UnpackedFloat.round, decreaseExponent, longer]

/-- A number below `2 ^ 52` is modest after rounding. -/
theorem round_isModest_of_small (long : 2 ^ 52 ≤ mantissa)
    (small : totalExponent mantissa exponent ≤ 52) :
    IsModest (UnpackedFloat.round Format.binary64 .positive mantissa exponent) := by
  have digits : 52 ≤ mantissa.log2 := (Nat.le_log2 (by omega)).mpr long
  rw [round_of_long long]
  have target := binary64_targetExponent (totalExponent mantissa exponent)
  obtain ⟨places, reaches⟩ : ∃ places : Nat,
      exponent + places = Format.binary64.targetExponent (totalExponent mantissa exponent) := by
    refine Int.le.dest ?_
    rw [target, totalExponent]
    omega
  rw [← reaches] at target
  have bounded : mantissa < 2 ^ 53 * 2 ^ places := by
    rw [← Nat.pow_add, ← Nat.log2_lt (by omega)]
    unfold totalExponent at target small
    omega
  have rounded : (ExtendedMantissa.mk mantissa false false >>> places).roundedMantissa ≤
      mantissa / 2 ^ places + 1 := by
    simpa only [shiftRight_mantissa] using
      roundedMantissa_le (ExtendedMantissa.mk mantissa false false >>> places)
  have fits : mantissa / 2 ^ places < 2 ^ 53 := Nat.div_lt_of_lt_mul (by rwa [Nat.mul_comm])
  refine roundWithAccuracy_isModest reaches.symm (by omega) ?_
  generalize (ExtendedMantissa.mk mantissa false false >>> places).roundedMantissa = result at rounded
  have roundedDigits : result.log2 < 54 := by
    by_cases isZero : result = 0
    · simp [isZero]
    · exact (Nat.log2_lt isZero).mpr (by omega)
  unfold totalExponent
  omega

/-- A number with a unit of one in its last place stays modest when less than half of that is
added. -/
theorem round_isModest_of_absorbed {part : Nat} (long : 2 ^ 52 ≤ mantissa)
    (fits : mantissa < 2 ^ 53) (absorbed : part < 2 ^ 56) :
    IsModest (UnpackedFloat.round Format.binary64 .positive (mantissa * 2 ^ 57 + part) (-57)) := by
  have digits : (mantissa * 2 ^ 57 + part).log2 = 109 :=
    (Nat.log2_eq_iff (by omega)).mpr ⟨by omega, by omega⟩
  have reaches : Format.binary64.targetExponent
      (totalExponent (mantissa * 2 ^ 57 + part) (-57)) = -57 + (57 : Nat) := by
    rw [binary64_targetExponent, totalExponent, digits]
    rfl
  have rounds : (ExtendedMantissa.mk (mantissa * 2 ^ 57 + part) false false >>> 57).roundedMantissa =
      mantissa := by
    rw [roundedMantissa_of_not_roundBit, shiftRight_mantissa]
    · change (mantissa * 2 ^ 57 + part) / 2 ^ 57 = mantissa
      omega
    · rw [shiftRight_succ_roundBit]
      have even : (mantissa * 2 ^ 57 + part) / 2 ^ 56 % 2 = 0 := by omega
      rw [even]
      rfl
  rw [round_of_long (by omega)]
  refine roundWithAccuracy_isModest reaches (by decide) ?_
  rw [rounds, totalExponent, (Nat.log2_eq_iff (by omega)).mpr ⟨long, fits⟩]
  decide

/-- The chunk of a nap, taken apart. -/
theorem napChunk_unpack : Action.napChunk.toModel.unpack =
    .finite .positive 7205759403792794 (-57) (by decide) := by
  rfl

theorem infinity_unpack : Number.infinity.toModel.unpack = .infinity .positive := by
  rfl

/-- The sum of two positive numbers is the sum of their mantissas over one exponent, rounded. -/
theorem add_positive {first second : Nat} {other : Int} (firstPositive : 0 < first)
    (secondPositive : 0 < second) :
    UnpackedFloat.add Format.binary64 (.finite .positive first exponent firstPositive)
        (.finite .positive second other secondPositive) =
      UnpackedFloat.round Format.binary64 .positive
        (first * 2 ^ (exponent - min exponent other).toNat +
          second * 2 ^ (other - min exponent other).toNat) (min exponent other) := by
  have positive : 0 < first * 2 ^ (exponent - min exponent other).toNat +
      second * 2 ^ (other - min exponent other).toNat :=
    Nat.add_pos_left (Nat.mul_pos firstPositive (Nat.two_pow_pos _)) _
  simp only [UnpackedFloat.add, decreaseExponent, Sign.apply, UnpackedFloat.normalize,
    Nat.shiftLeft_eq]
  rw [← Int.natCast_add, Int.compare_eq_gt.mpr (by omega)]
  rfl

/-- A modest sum stays modest when a chunk is added. -/
theorem add_isModest (positive : 0 < mantissa) (fits : mantissa < 2 ^ 53) (low : exponent ≤ 0)
    (long : exponent = 0 → 2 ^ 52 ≤ mantissa) :
    IsModest (UnpackedFloat.add Format.binary64 (.finite .positive mantissa exponent positive)
      (.finite .positive 7205759403792794 (-57) (by decide))) := by
  rw [add_positive]
  obtain rfl | below : exponent = 0 ∨ exponent ≤ -1 := by omega
  · exact round_isModest_of_absorbed (long rfl) fits (by decide)
  · obtain ⟨places, isPlaces⟩ : ∃ places, (-57 - min exponent (-57)).toNat = places := ⟨_, rfl⟩
    have short : (exponent - min exponent (-57)).toNat ≤ 56 + places := by omega
    have bounded : mantissa * 2 ^ (exponent - min exponent (-57)).toNat ≤
        (2 ^ 53 - 1) * (2 ^ 56 * 2 ^ places) := by
      rw [← Nat.pow_add]
      exact Nat.mul_le_mul (Nat.le_pred_of_lt fits) (Nat.pow_le_pow_right Nat.two_pos short)
    have positivePower := Nat.two_pow_pos places
    rw [isPlaces]
    generalize mantissa * 2 ^ (exponent - min exponent (-57)).toNat = first at bounded
    have long : 2 ^ 52 ≤ first + 7205759403792794 * 2 ^ places := by omega
    have digits : (first + 7205759403792794 * 2 ^ places).log2 < 109 + places := by
      rw [Nat.log2_lt (by omega), Nat.pow_add]
      omega
    refine round_isModest_of_small long ?_
    unfold totalExponent
    omega

/-! ### Sums of chunks -/

theorem unpackSign_packComponents {spec : Format} {sign : Sign} {exponent : BitVec spec.exponentBits}
    {mantissa : BitVec spec.mantissaBitsWithoutImplicit} :
    unpackSign (packComponents spec sign exponent mantissa) = sign.toBitVec := by
  ext place bound
  obtain rfl : place = 0 := by omega
  simp [unpackSign, packComponents, BitVec.getLsbD_append, BitVec.getElem_append]

/-- The bit pattern of a number. -/
def bitPattern (x : Float) : BitVec Format.binary64.numBits :=
  x.toModel.toBits.toBitVec

/-- A positive number whose unit in the last place is at most one. -/
def Modest (x : Float) : Prop :=
  unpackSign (bitPattern x) = 0#1 ∧ (unpackExponent (bitPattern x)).toNat ≤ 1075

variable {x : Float}

/-- A modest number is zero or has a short mantissa, of full length if its unit in the last place is
one. -/
theorem Modest.unpack (modest : Modest x) :
    x.toModel.unpack = .zero .positive ∨ ∃ mantissa exponent positive,
      x.toModel.unpack = .finite .positive mantissa exponent positive ∧ mantissa < 2 ^ 53 ∧
        exponent ≤ 0 ∧ (exponent = 0 → 2 ^ 52 ≤ mantissa) := by
  obtain ⟨positive, low⟩ := modest
  have unpacks : x.toModel.unpack = UnpackedFloat.unpack Format.binary64 (bitPattern x) := rfl
  have sign : Sign.ofBitVec (unpackSign (bitPattern x)) = .positive := by rw [positive]; rfl
  have finite : unpackExponent (bitPattern x) ≠ -1#_ := by
    intro same
    rw [same] at low
    exact absurd low (by decide)
  have bound : (unpackMantissa (bitPattern x)).toNat < 2 ^ 52 := (unpackMantissa (bitPattern x)).isLt
  have bias : (Format.binary64.exponentBias + Format.binary64.mantissaBitsWithoutImplicit : Int) =
      1075 := rfl
  have exponentBound : ((unpackExponent (bitPattern x)).toNat : Int) - 1075 ≤ 0 := by omega
  simp only [unpacks, UnpackedFloat.unpack, if_neg finite, sign, bias]
  split
  case isTrue subnormal =>
      split
      case isTrue => exact .inl rfl
      case isFalse nonzero =>
          have positive : 0 < (unpackMantissa (bitPattern x)).toNat :=
            Nat.pos_of_ne_zero fun isZero => nonzero (BitVec.eq_of_toNat_eq isZero)
          rw [subnormal]
          exact .inr ⟨_, _, positive, rfl, by omega, by decide,
            fun normal => absurd normal (by decide)⟩
  case isFalse =>
      have implicit : (1#1 ++ unpackMantissa (bitPattern x)).toNat =
          2 ^ 52 + (unpackMantissa (bitPattern x)).toNat := by
        rw [BitVec.toNat_append, ← Nat.shiftLeft_add_eq_or_of_lt (unpackMantissa (bitPattern x)).isLt]
        rfl
      exact .inr ⟨_, _, by omega, rfl, by omega, exponentBound, fun _ => by omega⟩

theorem modest_pack {number : UnpackedFloat} (modest : IsModest number) :
    Modest (.ofModel (.pack number)) := by
  change unpackSign (UnpackedFloat.pack Format.binary64 number) = 0#1 ∧
    (unpackExponent (UnpackedFloat.pack Format.binary64 number)).toNat ≤ 1075
  unfold IsModest at modest
  split at modest
  · decide
  · next mantissa exponent positive =>
      have biased : exponent + Format.binary64.exponentBias +
          Format.binary64.mantissaBitsWithoutImplicit = exponent + 1075 := by
        change exponent + 1023 + 52 = _
        omega
      have fits : ¬ 2 ^ Format.binary64.exponentBits ≤ (exponent + 1075).toNat + 1 := by
        change ¬ 2048 ≤ _
        omega
      simp only [UnpackedFloat.pack, biased, if_neg fits]
      split
      · rw [unpackSign_packComponents, unpackExponent_packComponents, BitVec.toNat_ofNat]
        exact ⟨rfl, Nat.le_trans (Nat.mod_le _ _) (by omega)⟩
      · rw [unpackSign_packComponents, unpackExponent_packComponents]
        exact ⟨rfl, by decide⟩
  · exact modest.elim

/-- A sum of chunks never becomes large: from a unit of one in its last place on, a chunk more makes
no difference. -/
theorem Modest.add_napChunk (modest : Modest x) : Modest (x + Action.napChunk) := by
  have sum : x + Action.napChunk = .ofModel (.pack
      (UnpackedFloat.add Format.binary64 x.toModel.unpack Action.napChunk.toModel.unpack)) := rfl
  rw [sum, napChunk_unpack]
  refine modest_pack ?_
  obtain isZero | ⟨mantissa, exponent, positive, same, fits, low, long⟩ := modest.unpack
  · rw [isZero]
    change (-57 : Int) ≤ 0
    decide
  · rw [same]
    exact add_isModest positive fits low long

theorem modest_zero : Modest 0 := by
  have bits : bitPattern 0 = 0 := by decide +kernel
  rw [Modest, bits]
  decide

/-! ### Naps without end -/

theorem lt_iff_unpack {y : Float} : x < y ↔ x.toModel.unpack.lt y.toModel.unpack = true :=
  decide_eq_true_iff

/-- While the signal is unset, a nap without end goes on with a chunk. -/
theorem napStep_infinity {elapsed : Float} (modest : Modest elapsed) :
    napStep false Action.napChunk elapsed Number.infinity =
      .part Action.napChunk (elapsed + Action.napChunk) := by
  have below : elapsed < Number.infinity := by
    rw [lt_iff_unpack, infinity_unpack]
    obtain isZero | ⟨mantissa, exponent, positive, same, -⟩ := modest.unpack
    · rw [isZero]
      rfl
    · rw [same]
      rfl
  have left : Number.infinity - elapsed = Number.infinity := by
    have difference : Number.infinity - elapsed = .ofModel (.pack
      (UnpackedFloat.sub Format.binary64 Number.infinity.toModel.unpack elapsed.toModel.unpack)) := rfl
    rw [difference, infinity_unpack]
    have infinite : Float.ofModel (.pack (.infinity .positive)) = Number.infinity := by decide +kernel
    obtain isZero | ⟨mantissa, exponent, positive, same, -⟩ := modest.unpack
    · rw [isZero]
      exact infinite
    · rw [same]
      exact infinite
  have above : ¬ Number.infinity < Action.napChunk := by decide +kernel
  simp [napStep, below, left, above]

/-- A nap without end is over only when the signal is set. -/
theorem not_napElapses_infinity : ¬ NapElapses Action.napChunk Number.infinity 0 := by
  suffices never : ∀ elapsed, NapElapses Action.napChunk Number.infinity elapsed → ¬ Modest elapsed from
    fun elapses => never 0 elapses modest_zero
  intro elapsed elapses modest
  induction elapses with
  | ended ends =>
      rw [napStep_infinity modest] at ends
      cases ends
  | part sleeps _ hypothesis =>
      rw [napStep_infinity modest] at sleeps
      cases sleeps
      exact hypothesis modest.add_napChunk

end InputScript.Rehearsal
