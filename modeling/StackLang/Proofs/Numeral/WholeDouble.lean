import Mathlib
import StackLang.Numeral.Binary64
import StackLang.Numeral.Decimal
import StackLang.Proofs.Numeral.Rounding

/-!
# Doubles of whole numbers

The double that a whole number is converted to is the nearest one, and two such
doubles are ordered like the numbers that they stand for.
-/

namespace StackLang.Numeral

open Float.Model Float.Model.UnpackedFloat

/-- An unpacked double stands for a whole number.  Its mantissa has all 53 digits. -/
inductive Denotes : UnpackedFloat → Int → Prop
  | zero (sign : Sign) : Denotes (.zero sign) 0
  | finite {sign : Sign} {mantissa place number : Nat} {exponent : Int} {positive : 0 < mantissa}
      (low : 2 ^ 52 ≤ mantissa) (high : mantissa < 2 ^ 53) (scale : exponent = place - 52)
      (value : mantissa * 2 ^ place = number * 2 ^ 52) :
      Denotes (.finite sign mantissa exponent positive) (sign.apply number)

/-! ### Cutting off binary digits -/

/-- The bits behind the ones that are kept tell on which side of the half the rest is. -/
theorem shifted (mantissa places : Nat) :
    ExtendedMantissa.ofMantissaAndAccuracy mantissa .exact >>> places =
      ⟨mantissa / 2 ^ places, decide (2 ^ places ≤ 2 * (mantissa % 2 ^ places)),
        decide (2 * (mantissa % 2 ^ places) % 2 ^ places ≠ 0)⟩ := by
  induction places with
  | zero =>
      simp [HShiftRight.hShiftRight, Nat.repeat, ExtendedMantissa.ofMantissaAndAccuracy, Nat.mod_one]
  | succ places ih =>
      have step : ExtendedMantissa.ofMantissaAndAccuracy mantissa .exact >>> (places + 1) =
          (ExtendedMantissa.ofMantissaAndAccuracy mantissa .exact >>> places).shiftRightOne := rfl
      have low := Nat.mod_lt mantissa (Nat.two_pow_pos places)
      have remainder : mantissa % 2 ^ (places + 1) =
          mantissa % 2 ^ places + 2 ^ places * (mantissa / 2 ^ places % 2) := Nat.mod_pow_succ
      have power : 2 ^ (places + 1) = 2 * 2 ^ places := Nat.pow_succ'
      have roundBit : (mantissa / 2 ^ places % 2 != 0) =
          decide (2 ^ (places + 1) ≤ 2 * (mantissa % 2 ^ (places + 1))) := by
        apply Bool.eq_iff_iff.mpr
        rw [bne_iff_ne, decide_eq_true_iff, remainder, power]
        rcases Nat.mod_two_eq_zero_or_one (mantissa / 2 ^ places) with zero | one
        · rw [zero]
          omega
        · rw [one]
          omega
      have stickyBit : (decide (2 ^ places ≤ 2 * (mantissa % 2 ^ places)) ||
          decide (2 * (mantissa % 2 ^ places) % 2 ^ places ≠ 0)) =
            decide (2 * (mantissa % 2 ^ (places + 1)) % 2 ^ (places + 1) ≠ 0) := by
        apply Bool.eq_iff_iff.mpr
        rw [Bool.or_eq_true, decide_eq_true_iff, decide_eq_true_iff, decide_eq_true_iff, remainder,
          power, Nat.mul_mod_mul_left, Nat.add_mul_mod_self_left, Nat.mod_eq_of_lt low]
        rcases Nat.lt_or_ge (2 * (mantissa % 2 ^ places)) (2 ^ places) with below | above
        · rw [Nat.mod_eq_of_lt below]
          omega
        · omega
      rw [step, ih, ExtendedMantissa.shiftRightOne, Nat.div_div_eq_div_mul, ← Nat.pow_succ, roundBit,
        stickyBit]

theorem roundedMantissa_shifted (mantissa places : Nat) :
    (ExtendedMantissa.ofMantissaAndAccuracy mantissa .exact >>> places).roundedMantissa =
      halfEven mantissa places := by
  have low := Nat.mod_lt mantissa (Nat.two_pow_pos places)
  rw [shifted]
  rcases Nat.lt_trichotomy (2 * (mantissa % 2 ^ places)) (2 ^ places) with below | half | above
  · rw [halfEven_of_lt below, decide_eq_false (Nat.not_le.mpr below)]
    cases decide (2 * (mantissa % 2 ^ places) % 2 ^ places ≠ 0) <;> rfl
  · rw [halfEven_of_eq half, decide_eq_true (Nat.le_of_eq half.symm),
      decide_eq_false (by rw [half, Nat.mod_self]; exact not_not_intro rfl)]
    rfl
  · have rest : 2 * (mantissa % 2 ^ places) % 2 ^ places ≠ 0 := by
      rw [Nat.mod_eq_sub_mod (Nat.le_of_lt above), Nat.mod_eq_of_lt (by omega)]
      omega
    rw [halfEven_of_gt above, decide_eq_true (Nat.le_of_lt above), decide_eq_true rest]
    rfl

/-! ### Rounding of an unpacked number -/

theorem targetExponent_eq (mantissa : Nat) (exponent : Int) :
    Format.binary64.targetExponent (totalExponent mantissa exponent) =
      max (mantissa.log2 + exponent - 52) (-1074) := by
  have bits : Format.binary64.mantissaBits = 53 := rfl
  have least : Format.binary64.minExponent = -1074 := by decide
  rw [Format.targetExponent, totalExponent, bits, least]
  congr 1
  omega

/-- Nothing is cut off from a mantissa that is short enough. -/
theorem shiftToTargetExponent_short {mantissa : Nat} {exponent : Int} (short : mantissa < 2 ^ 53)
    (least : -1074 ≤ exponent) :
    shiftToTargetExponent Format.binary64 mantissa exponent .exact =
      (⟨mantissa, false, false⟩, exponent) := by
  have digits : mantissa.log2 ≤ 52 := by
    rcases Nat.eq_zero_or_pos mantissa with rfl | positive
    · decide
    · exact Nat.le_of_lt_succ ((Nat.log2_lt (Nat.ne_of_gt positive)).mpr short)
  have still : (Format.binary64.targetExponent (totalExponent mantissa exponent) - exponent).toNat = 0 := by
    rw [targetExponent_eq]
    omega
  rw [shiftToTargetExponent, shiftToExponent, still]
  show (_, exponent + 0) = _
  rw [Int.add_zero]
  rfl

/-- A mantissa that was rounded up to one digit more gives up a zero. -/
theorem shiftToTargetExponent_carry {exponent : Int} (least : -1074 ≤ exponent) :
    shiftToTargetExponent Format.binary64 (2 ^ 53) exponent .exact =
      (⟨2 ^ 52, false, false⟩, exponent + 1) := by
  have target : Format.binary64.targetExponent (totalExponent (2 ^ 53) exponent) = exponent + 1 := by
    rw [targetExponent_eq, Nat.log2_two_pow]
    omega
  have once : (exponent + 1 - exponent).toNat = 1 := by omega
  rw [shiftToTargetExponent, shiftToExponent, target, once]
  rfl

section

variable {mantissa number : Nat} {grow shrink : Nat}

/-- The places of the first digits of `mantissa · 2 ^ grow` and `number · 2 ^ shrink`. -/
theorem log2_eq_of_scaled (nonzero : number ≠ 0)
    (value : mantissa * 2 ^ grow = number * 2 ^ shrink) :
    mantissa.log2 + grow = number.log2 + shrink := by
  have other : mantissa ≠ 0 := by
    rintro rfl
    rw [Nat.zero_mul] at value
    exact absurd value.symm (Nat.mul_ne_zero nonzero (Nat.ne_of_gt (Nat.two_pow_pos _)))
  have scaled {factor : Nat} (positive : factor ≠ 0) (places : Nat) :
      (factor * 2 ^ places).log2 = factor.log2 + places := by
    have whole : factor * 2 ^ places ≠ 0 :=
      Nat.mul_ne_zero positive (Nat.ne_of_gt (Nat.two_pow_pos _))
    apply (Nat.log2_eq_iff whole).mpr
    have low := Nat.log2_self_le positive
    have high := Nat.lt_log2_self (n := factor)
    rw [Nat.add_right_comm, Nat.pow_add, Nat.pow_add]
    exact ⟨Nat.mul_le_mul_right _ low, Nat.mul_lt_mul_of_pos_right high (Nat.two_pow_pos _)⟩
  rw [← scaled other, ← scaled nonzero, value]

/-- The digits kept of a mantissa are those of the nearest number. -/
theorem halfEven_mantissa (long : 52 ≤ mantissa.log2) (nonzero : number ≠ 0)
    (value : mantissa * 2 ^ grow = number * 2 ^ shrink) :
    halfEven mantissa (excess mantissa) * 2 ^ number.log2 = nearest number * 2 ^ 52 := by
  have place := log2_eq_of_scaled nonzero value
  have scaled : halfEven mantissa (excess mantissa) =
      halfEven (number * 2 ^ shrink) (excess mantissa + grow) := by
    rw [← value, halfEven_scaled]
  rcases Nat.lt_or_ge number.log2 52 with small | large
  · have room : HasRoom number := by
      apply hasRoom_of_le
      exact Nat.le_of_lt (Nat.lt_of_lt_of_le Nat.lt_log2_self (Nat.pow_le_pow_right (by decide) (by omega)))
    have zeros : shrink = 52 - number.log2 + (excess mantissa + grow) := by
      rw [excess]
      omega
    rw [scaled, zeros, Nat.pow_add, ← Nat.mul_assoc, halfEven_mul, nearest_of_hasRoom room,
      Nat.mul_assoc, ← Nat.pow_add, Nat.sub_add_cancel (Nat.le_of_lt small)]
  · have places : excess mantissa + grow = excess number + shrink := by
      rw [excess, excess]
      omega
    have digits : number.log2 = excess number + 52 := by
      rw [excess]
      omega
    rw [scaled, places, halfEven_scaled, digits, Nat.pow_add, ← Nat.mul_assoc, nearest]

theorem le_halfEven_mantissa (long : 52 ≤ mantissa.log2) :
    2 ^ 52 ≤ halfEven mantissa (excess mantissa) := by
  have nonzero : mantissa ≠ 0 := by
    rintro rfl
    rw [Nat.log2_zero] at long
    contradiction
  have first : 2 ^ 52 * 2 ^ excess mantissa ≤ mantissa := by
    rw [← Nat.pow_add, excess, Nat.add_sub_cancel' long]
    exact Nat.log2_self_le nonzero
  calc
    2 ^ 52 = halfEven (2 ^ 52 * 2 ^ excess mantissa) (excess mantissa) := (halfEven_mul _ _).symm
    _ ≤ halfEven mantissa (excess mantissa) := halfEven_mono _ first

/-- A number whose mantissa has digits to spare is rounded to the nearest one. -/
theorem denotes_round (long : 52 ≤ mantissa.log2) (nonzero : number ≠ 0)
    (value : mantissa * 2 ^ grow = number * 2 ^ shrink) (sign : Sign) :
    Denotes (roundWithAccuracy Format.binary64 sign mantissa (grow - shrink) .exact)
      (sign.apply (nearest number)) := by
  have place := log2_eq_of_scaled nonzero value
  have digits := halfEven_mantissa long nonzero value
  have low := le_halfEven_mantissa long
  have amount : (Format.binary64.targetExponent (totalExponent mantissa (grow - shrink)) -
      (grow - shrink)).toNat = excess mantissa := by
    rw [targetExponent_eq, excess]
    omega
  have exponent : (grow - shrink : Int) + excess mantissa = number.log2 - 52 := by
    rw [excess]
    omega
  have first : shiftToTargetExponent Format.binary64 mantissa (grow - shrink) .exact =
      (ExtendedMantissa.ofMantissaAndAccuracy mantissa .exact >>> excess mantissa,
        (number.log2 : Int) - 52) := by
    rw [shiftToTargetExponent, shiftToExponent, amount, exponent]
  rw [roundWithAccuracy, first]
  dsimp only
  rw [roundedMantissa_shifted]
  rcases Nat.lt_or_eq_of_le (halfEven_excess_le mantissa) with short | carry
  · have nonzero : halfEven mantissa (excess mantissa) ≠ 0 := by omega
    rw [shiftToTargetExponent_short short (by omega)]
    dsimp only
    rw [dif_neg nonzero]
    exact .finite low short rfl digits
  · have nonzero : 2 ^ 52 ≠ 0 := by decide
    have carried : 2 ^ 52 * 2 ^ (number.log2 + 1) = nearest number * 2 ^ 52 := by
      rw [← digits, carry]
      ring
    rw [carry, shiftToTargetExponent_carry (by omega)]
    dsimp only
    rw [dif_neg nonzero]
    exact .finite (by decide) (by decide) (by omega) carried

end

/-! ### Packing -/

theorem toNat_packComponents (sign : Sign) (exponent : BitVec 11) (mantissa : BitVec 52) :
    (packComponents Format.binary64 sign exponent mantissa).toNat =
      (sign.toBitVec.toNat * 2 ^ 11 + exponent.toNat) * 2 ^ 52 + mantissa.toNat := by
  have halves {high low : Nat} (left : BitVec high) (right : BitVec low) :
      (left ++ right).toNat = left.toNat * 2 ^ low + right.toNat := by
    rw [BitVec.toNat_append, ← Nat.shiftLeft_add_eq_or_of_lt right.isLt, Nat.shiftLeft_eq]
  exact (halves (sign.toBitVec ++ exponent) mantissa).trans (by rw [halves])

theorem unpackSign_packComponents (sign : Sign) (exponent : BitVec 11) (mantissa : BitVec 52) :
    unpackSign (packComponents Format.binary64 sign exponent mantissa) = sign.toBitVec := by
  have whole : (packComponents Format.binary64 sign exponent mantissa).toNat / 2 ^ 63 =
      sign.toBitVec.toNat := by
    rw [toNat_packComponents]
    have := exponent.isLt
    have := mantissa.isLt
    omega
  apply BitVec.eq_of_toNat_eq
  rw [unpackSign, BitVec.toNat_cast, BitVec.extractLsb_toNat, Nat.shiftRight_eq_div_pow]
  exact (congrArg (· % 2) whole).trans (Nat.mod_eq_of_lt sign.toBitVec.isLt)

section

variable {sign : Sign} {mantissa place : Nat} {exponent : Int} {positive : 0 < mantissa}

/-- The exponent field of a normal double. -/
theorem biased_eq (scale : exponent = place - 52) :
    (exponent + Format.binary64.exponentBias + (52 : Nat)).toNat = place + 1023 := by
  have bias : Format.binary64.exponentBias = 1023 := rfl
  rw [bias]
  omega

/-- The fields of a normal double. -/
theorem pack_normal (low : 2 ^ 52 ≤ mantissa) (high : mantissa < 2 ^ 53)
    (scale : exponent = place - 52) (fits : place < 1024) :
    UnpackedFloat.pack Format.binary64 (.finite sign mantissa exponent positive) =
      packComponents Format.binary64 sign (BitVec.ofNat 11 (place + 1023))
        (BitVec.ofNat 52 mantissa) := by
  have digits : mantissa.log2 = 52 := (Nat.log2_eq_iff (Nat.ne_of_gt positive)).mpr ⟨low, high⟩
  have bits : 52 + 1 = Format.binary64.mantissaBits := rfl
  rw [UnpackedFloat.pack]
  simp only [biased_eq scale, digits]
  rw [if_neg (by omega), if_pos bits]

/-- A double that is too large is infinite. -/
theorem pack_overflow (scale : exponent = place - 52) (large : 1024 ≤ place) :
    UnpackedFloat.pack Format.binary64 (.finite sign mantissa exponent positive) =
      packedInfinity Format.binary64 sign := by
  rw [UnpackedFloat.pack]
  simp only [biased_eq scale]
  rw [if_pos (by omega)]

theorem unpack_pack_normal (low : 2 ^ 52 ≤ mantissa) (high : mantissa < 2 ^ 53)
    (scale : exponent = place - 52) (fits : place < 1024) :
    (Float.Model.pack (.finite sign mantissa exponent positive)).unpack =
      .finite sign mantissa exponent positive := by
  rw [Float.Model.unpack, Float.Model.pack]
  show UnpackedFloat.unpack Format.binary64 (UnpackedFloat.pack Format.binary64 _) = _
  rw [pack_normal low high scale fits, UnpackedFloat.unpack]
  simp only [unpackMantissa_packComponents, unpackExponent_packComponents, unpackSign_packComponents]
  have field : (BitVec.ofNat 11 (place + 1023)).toNat = place + 1023 :=
    Nat.mod_eq_of_lt (by omega)
  have notLast : BitVec.ofNat 11 (place + 1023) ≠ -1#11 := by
    intro same
    have last := congrArg BitVec.toNat same
    rw [field] at last
    change place + 1023 = 2047 at last
    omega
  have notFirst : BitVec.ofNat 11 (place + 1023) ≠ 0#11 := by
    intro same
    have first := congrArg BitVec.toNat same
    rw [field] at first
    change place + 1023 = 0 at first
    omega
  have digits : (1#1 ++ BitVec.ofNat 52 mantissa).toNat = mantissa := by
    rw [BitVec.toNat_append, ← Nat.shiftLeft_add_eq_or_of_lt (BitVec.isLt _)]
    change 2 ^ 52 + mantissa % 2 ^ 52 = mantissa
    omega
  have unbiased : ((BitVec.ofNat 11 (place + 1023)).toNat : Int) -
      (Format.binary64.exponentBias + (52 : Nat)) = exponent := by
    have bias : Format.binary64.exponentBias = 1023 := rfl
    rw [field, bias]
    omega
  have signs : Sign.ofBitVec sign.toBitVec = sign := by
    cases sign
    · rfl
    · rfl
  rw [if_neg notLast, if_neg notFirst]
  simp only [digits, unbiased, signs]

/-- The place of the first digit tells how large the number is. -/
theorem place_lt_iff {number size : Nat} (low : 2 ^ 52 ≤ mantissa) (high : mantissa < 2 ^ 53)
    (value : mantissa * 2 ^ place = number * 2 ^ 52) : place < size ↔ number < 2 ^ size := by
  constructor
  · intro before
    have bound : mantissa * 2 ^ place < 2 ^ size * 2 ^ 52 := by
      calc
        mantissa * 2 ^ place < 2 ^ 53 * 2 ^ place :=
          Nat.mul_lt_mul_of_pos_right high (Nat.two_pow_pos _)
        _ = 2 ^ (place + 1) * 2 ^ 52 := by ring
        _ ≤ 2 ^ size * 2 ^ 52 := Nat.mul_le_mul_right _ (Nat.pow_le_pow_right (by decide) before)
    rw [value] at bound
    exact Nat.lt_of_mul_lt_mul_right bound
  · intro small
    have bound : 2 ^ place * 2 ^ 52 < 2 ^ size * 2 ^ 52 := by
      calc
        2 ^ place * 2 ^ 52 = 2 ^ 52 * 2 ^ place := Nat.mul_comm _ _
        _ ≤ mantissa * 2 ^ place := Nat.mul_le_mul_right _ low
        _ = number * 2 ^ 52 := value
        _ < 2 ^ size * 2 ^ 52 := Nat.mul_lt_mul_of_pos_right small (Nat.two_pow_pos _)
    exact (Nat.pow_lt_pow_iff_right (by decide)).mp (Nat.lt_of_mul_lt_mul_right bound)

end

/-! ### What doubles of whole numbers tell -/

section

variable {unpacked other : UnpackedFloat} {number second : Int}

theorem natAbs_apply (sign : Sign) (magnitude : Nat) : (sign.apply magnitude).natAbs = magnitude := by
  cases sign
  · exact (Int.natAbs_neg _).trans (Int.natAbs_natCast _)
  · exact Int.natAbs_natCast _

theorem Denotes.unpack_pack (denotes : Denotes unpacked number)
    (small : number.natAbs < 2 ^ 64) : (Float.Model.pack unpacked).unpack = unpacked := by
  cases denotes with
  | zero sign => cases sign <;> rfl
  | finite low high scale value =>
      rw [natAbs_apply] at small
      have place := (place_lt_iff low high value).mpr small
      exact unpack_pack_normal low high scale (by omega)

theorem Denotes.neg (denotes : Denotes unpacked number) : Denotes unpacked.neg (-number) := by
  cases denotes with
  | zero sign => exact .zero (-sign)
  | @finite sign mantissa place magnitude exponent positive low high scale value =>
      have opposite : -(sign.apply magnitude) = (-sign).apply magnitude := by
        cases sign
        · exact Int.neg_neg _
        · rfl
      rw [opposite]
      exact .finite low high scale value

/-- Numbers of 53 digits are compared by their exponents first. -/
theorem compare_normal {mantissa place magnitude mantissa₂ place₂ magnitude₂ : Nat}
    {exponent exponent₂ : Int} (low : 2 ^ 52 ≤ mantissa) (high : mantissa < 2 ^ 53)
    (low₂ : 2 ^ 52 ≤ mantissa₂) (high₂ : mantissa₂ < 2 ^ 53) (scale : exponent = place - 52)
    (scale₂ : exponent₂ = place₂ - 52) (value : mantissa * 2 ^ place = magnitude * 2 ^ 52)
    (value₂ : mantissa₂ * 2 ^ place₂ = magnitude₂ * 2 ^ 52) :
    (compare exponent exponent₂).then (compare mantissa mantissa₂) =
      compare magnitude magnitude₂ := by
  have less {first last firstPlace lastPlace : Nat} (top : first < 2 ^ 53) (bottom : 2 ^ 52 ≤ last)
      (before : firstPlace < lastPlace) : first * 2 ^ firstPlace < last * 2 ^ lastPlace := by
    calc
      first * 2 ^ firstPlace < 2 ^ 53 * 2 ^ firstPlace :=
        Nat.mul_lt_mul_of_pos_right top (Nat.two_pow_pos _)
      _ = 2 ^ 52 * 2 ^ (firstPlace + 1) := by ring
      _ ≤ 2 ^ 52 * 2 ^ lastPlace := Nat.mul_le_mul_left _ (Nat.pow_le_pow_right (by decide) before)
      _ ≤ last * 2 ^ lastPlace := Nat.mul_le_mul_right _ bottom
  rcases Nat.lt_trichotomy place place₂ with before | rfl | behind
  · have ordered := less high low₂ before
    rw [value, value₂] at ordered
    rw [Int.compare_eq_lt.mpr (by omega), Nat.compare_eq_lt.mpr (Nat.lt_of_mul_lt_mul_right ordered)]
    rfl
  · rw [Int.compare_eq_eq.mpr (by omega)]
    have scaled {first last : Nat} : first < last ↔ first * 2 ^ place < last * 2 ^ place :=
      (Nat.mul_lt_mul_right (Nat.two_pow_pos place)).symm
    show compare mantissa mantissa₂ = compare magnitude magnitude₂
    have forward : mantissa < mantissa₂ ↔ magnitude < magnitude₂ := by
      rw [scaled, value, value₂, Nat.mul_lt_mul_right (Nat.two_pow_pos 52)]
    have backward : mantissa₂ < mantissa ↔ magnitude₂ < magnitude := by
      rw [scaled, value, value₂, Nat.mul_lt_mul_right (Nat.two_pow_pos 52)]
    simp only [Nat.compare_eq_ite_lt, forward, backward]
  · have ordered := less high₂ low behind
    rw [value, value₂] at ordered
    rw [Int.compare_eq_gt.mpr (by omega), Nat.compare_eq_gt.mpr (Nat.lt_of_mul_lt_mul_right ordered)]
    rfl

theorem magnitude_pos {mantissa place magnitude : Nat} (low : 2 ^ 52 ≤ mantissa)
    (value : mantissa * 2 ^ place = magnitude * 2 ^ 52) : 0 < magnitude := by
  rcases Nat.eq_zero_or_pos magnitude with rfl | positive
  · rw [Nat.zero_mul] at value
    exact absurd value (Nat.mul_ne_zero (by omega) (Nat.ne_of_gt (Nat.two_pow_pos _)))
  · exact positive

theorem compare_natCast (left right : Nat) : compare (left : Int) right = compare left right := by
  simp only [Int.compare_eq_ite_lt, Nat.compare_eq_ite_lt, Int.ofNat_lt]

theorem compare_neg_natCast (left right : Nat) :
    compare (-(left : Int)) (-(right : Int)) = (compare left right).swap := by
  rw [Nat.compare_swap]
  simp only [Int.compare_eq_ite_lt, Nat.compare_eq_ite_lt, Int.neg_lt_neg_iff, Int.ofNat_lt]

/-- Doubles of whole numbers are ordered like the numbers. -/
theorem Denotes.compare (first : Denotes unpacked number) (last : Denotes other second) :
    unpacked.compare other = some (Ord.compare number second) := by
  cases first with
  | zero sign =>
      cases last with
      | zero sign₂ => rfl
      | @finite sign₂ mantissa place magnitude exponent positive low high scale value =>
          have nonzero := magnitude_pos low value
          cases sign₂ with
          | negative =>
              exact congrArg some (Int.compare_eq_gt.mpr (show -(magnitude : Int) < 0 by omega)).symm
          | positive =>
              exact congrArg some (Int.compare_eq_lt.mpr (show 0 < (magnitude : Int) by omega)).symm
  | @finite sign mantissa place magnitude exponent positive low high scale value =>
      have nonzero := magnitude_pos low value
      cases last with
      | zero sign₂ =>
          cases sign with
          | negative =>
              exact congrArg some (Int.compare_eq_lt.mpr (show -(magnitude : Int) < 0 by omega)).symm
          | positive =>
              exact congrArg some (Int.compare_eq_gt.mpr (show 0 < (magnitude : Int) by omega)).symm
      | @finite sign₂ mantissa₂ place₂ magnitude₂ exponent₂ positive₂ low₂ high₂ scale₂ value₂ =>
          have nonzero₂ := magnitude_pos low₂ value₂
          have digits := compare_normal low high low₂ high₂ scale scale₂ value value₂
          cases sign with
          | negative =>
              cases sign₂ with
              | negative =>
                  show some ((Ord.compare exponent exponent₂).then _).swap = _
                  rw [digits]
                  exact congrArg some (compare_neg_natCast _ _).symm
              | positive =>
                  exact congrArg some (Int.compare_eq_lt.mpr (show -(magnitude : Int) < magnitude₂ by omega)).symm
          | positive =>
              cases sign₂ with
              | negative =>
                  exact congrArg some (Int.compare_eq_gt.mpr (show -(magnitude₂ : Int) < magnitude by omega)).symm
              | positive =>
                  show some ((Ord.compare exponent exponent₂).then _) = _
                  rw [digits]
                  exact congrArg some (compare_natCast _ _).symm

/-- The parts of a normal double. -/
theorem ofBits_normal (sign : Sign) {place mantissa : Nat} (low : 2 ^ 52 ≤ mantissa)
    (high : mantissa < 2 ^ 53) (fits : place < 1024) :
    Binary64.ofBits (packComponents Format.binary64 sign (BitVec.ofNat 11 (place + 1023))
        (BitVec.ofNat 52 mantissa)).toNat =
      .finite (sign == .negative) mantissa (place - 52) := by
  have field : (BitVec.ofNat 11 (place + 1023)).toNat = place + 1023 :=
    Nat.mod_eq_of_lt (by omega)
  have fraction : (BitVec.ofNat 52 mantissa).toNat = mantissa - 2 ^ 52 := by
    rw [BitVec.toNat_ofNat]
    omega
  have bits := toNat_packComponents sign (BitVec.ofNat 11 (place + 1023)) (BitVec.ofNat 52 mantissa)
  rw [field, fraction] at bits
  have signBit := sign.toBitVec.isLt
  have top : (packComponents Format.binary64 sign (BitVec.ofNat 11 (place + 1023))
      (BitVec.ofNat 52 mantissa)).toNat >>> 63 % 2 = sign.toBitVec.toNat := by
    rw [bits, Nat.shiftRight_eq_div_pow]
    omega
  have middle : (packComponents Format.binary64 sign (BitVec.ofNat 11 (place + 1023))
      (BitVec.ofNat 52 mantissa)).toNat >>> 52 % 2048 = place + 1023 := by
    rw [bits, Nat.shiftRight_eq_div_pow]
    omega
  have bottom : (packComponents Format.binary64 sign (BitVec.ofNat 11 (place + 1023))
      (BitVec.ofNat 52 mantissa)).toNat % Nat.pow 2 52 = mantissa - 2 ^ 52 := by
    rw [bits, Nat.pow_eq]
    omega
  have whole : Nat.pow 2 52 + (mantissa - 2 ^ 52) = mantissa := by
    rw [Nat.pow_eq]
    omega
  have exponent : ((place + 1023 : Nat) : Int) - 1075 = place - 52 := by omega
  have negative : (sign.toBitVec.toNat == 1) = (sign == .negative) := by
    cases sign
    · rfl
    · rfl
  rw [Binary64.ofBits]
  simp only [top, middle, bottom]
  rw [if_neg (by omega), if_neg (by omega), whole, exponent, negative]

theorem wholePart_scaled {mantissa place magnitude : Nat}
    (value : mantissa * 2 ^ place = magnitude * 2 ^ 52) :
    Binary64.wholePart mantissa (place - 52) = magnitude := by
  rw [Binary64.wholePart, Nat.pow_eq, Nat.pow_eq]
  rcases Nat.le_total 52 place with large | small
  · have grow : ((place : Int) - 52).toNat = place - 52 := by omega
    have shrink : (-((place : Int) - 52)).toNat = 0 := by omega
    have split : place = place - 52 + 52 := by omega
    rw [split, Nat.pow_add, ← Nat.mul_assoc] at value
    rw [grow, shrink, Nat.pow_zero, Nat.div_one]
    exact Nat.eq_of_mul_eq_mul_right (Nat.two_pow_pos 52) value
  · have grow : ((place : Int) - 52).toNat = 0 := by omega
    have shrink : (-((place : Int) - 52)).toNat = 52 - place := by omega
    have power : 2 ^ 52 = 2 ^ (52 - place) * 2 ^ place := by
      rw [← Nat.pow_add, Nat.sub_add_cancel small]
    rw [power, ← Nat.mul_assoc] at value
    rw [grow, shrink, Nat.pow_zero, Nat.mul_one,
      Nat.eq_of_mul_eq_mul_right (Nat.two_pow_pos place) value,
      Nat.mul_div_cancel _ (Nat.two_pow_pos _)]

/-- The whole part of a double that stands for a whole number is that number, unless the
double overflows. -/
theorem Denotes.truncated? (denotes : Denotes unpacked number) :
    (Binary64.ofBits (UnpackedFloat.pack Format.binary64 unpacked).toNat).truncated? =
      if number.natAbs < 2 ^ 1024 then some number else none := by
  cases denotes with
  | zero sign =>
      split
      · cases sign
        · rfl
        · rfl
      · next large => exact absurd (Nat.two_pow_pos _) large
  | @finite sign mantissa place magnitude exponent positive low high scale value =>
      rw [natAbs_apply]
      by_cases fits : place < 1024
      · rw [if_pos ((place_lt_iff low high value).mp fits), pack_normal low high scale fits,
          ofBits_normal sign low high fits, Binary64.truncated?, wholePart_scaled value]
        cases sign
        · rfl
        · rfl
      · rw [if_neg (fits ∘ (place_lt_iff low high value).mpr),
          pack_overflow scale (Nat.le_of_not_lt fits)]
        cases sign
        · rfl
        · rfl

/-! ### Operations on doubles of whole numbers -/

/-- The whole number that a double of the nearest number stands for. -/
def nearestInt (number : Int) : Int := number.sign * nearest number.natAbs

theorem nearestInt_apply (sign : Sign) (magnitude : Nat) :
    nearestInt (sign.apply magnitude) = sign.apply (nearest magnitude) := by
  rcases Nat.eq_zero_or_pos magnitude with rfl | positive
  · rw [nearest_eq_zero.mpr rfl]
    cases sign
    · rfl
    · rfl
  · rw [nearestInt, natAbs_apply]
    cases sign with
    | negative =>
        rw [Sign.apply, Int.sign_neg, Int.sign_eq_one_of_pos (by omega), Int.neg_mul, Int.one_mul]
        rfl
    | positive =>
        rw [Sign.apply, Int.sign_eq_one_of_pos (by omega), Int.one_mul]
        rfl

theorem apply_mul (left right : Sign) (first last : Nat) :
    left.apply first * right.apply last = (left * right).apply (first * last : Nat) := by
  rw [Int.natCast_mul]
  cases left with
  | negative =>
      cases right with
      | negative => exact Int.neg_mul_neg _ _
      | positive => exact Int.neg_mul _ _
  | positive =>
      cases right with
      | negative => exact Int.mul_neg _ _
      | positive => rfl

/-- The product of two doubles of whole numbers is the double nearest to their product. -/
theorem Denotes.mul (first : Denotes unpacked number) (last : Denotes other second) :
    Denotes (UnpackedFloat.mul Format.binary64 unpacked other) (nearestInt (number * second)) := by
  have nothing : nearestInt 0 = 0 := rfl
  cases first with
  | zero sign =>
      rw [Int.zero_mul, nothing]
      cases last with
      | zero sign₂ => exact .zero (sign * sign₂)
      | @finite sign₂ => exact .zero (sign * sign₂)
  | @finite sign mantissa place magnitude exponent positive low high scale value =>
      cases last with
      | zero sign₂ =>
          rw [Int.mul_zero, nothing]
          exact .zero (sign * sign₂)
      | @finite sign₂ mantissa₂ place₂ magnitude₂ exponent₂ positive₂ low₂ high₂ scale₂ value₂ =>
          have nonzero : magnitude * magnitude₂ ≠ 0 :=
            Nat.mul_ne_zero (Nat.ne_of_gt (magnitude_pos low value))
              (Nat.ne_of_gt (magnitude_pos low₂ value₂))
          have product : mantissa * mantissa₂ * 2 ^ (place + place₂) =
              magnitude * magnitude₂ * 2 ^ 104 := by
            calc
              mantissa * mantissa₂ * 2 ^ (place + place₂) =
                  (mantissa * 2 ^ place) * (mantissa₂ * 2 ^ place₂) := by ring
              _ = (magnitude * 2 ^ 52) * (magnitude₂ * 2 ^ 52) := by rw [value, value₂]
              _ = magnitude * magnitude₂ * 2 ^ 104 := by ring
          have long : 52 ≤ (mantissa * mantissa₂).log2 := by
            apply (Nat.le_log2 (Nat.mul_ne_zero (by omega) (by omega))).mpr
            exact Nat.le_trans low (Nat.le_mul_of_pos_right _ (by omega))
          have exponents : exponent + exponent₂ = (place + place₂ : Nat) - (104 : Nat) := by omega
          rw [apply_mul, nearestInt_apply, UnpackedFloat.mul, exponents]
          exact denotes_round long nonzero product (sign * sign₂)

end

end StackLang.Numeral
