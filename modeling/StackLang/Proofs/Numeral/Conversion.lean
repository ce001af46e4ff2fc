import StackLang.Proofs.Numeral.WholeDouble

/-!
# Conversion of whole numbers to doubles

A whole number in decimal notation and an integer of the machine are converted to the
nearest double.  Comparing the doubles of two integers compares the nearest numbers.
-/

namespace StackLang.Numeral

open Float.Model Float.Model.UnpackedFloat

/-- A natural number is written with 53 digits and then rounded. -/
theorem denotes_ofNat (number : Nat) :
    Denotes (UnpackedFloat.ofNat Format.binary64 number) (nearest number) := by
  rcases Nat.eq_zero_or_pos number with rfl | positive
  · exact .zero .positive
  · have nonzero : number ≠ 0 := by omega
    have amount : ((0 : Int) - Format.binary64.targetExponent (totalExponent number 0)).toNat =
        52 - number.log2 := by
      rw [targetExponent_eq]
      omega
    have value : number * 2 ^ (52 - number.log2) * 2 ^ 0 = number * 2 ^ (52 - number.log2) :=
      Nat.mul_one _
    have long : 52 ≤ (number * 2 ^ (52 - number.log2)).log2 := by
      have place := log2_eq_of_scaled nonzero value
      omega
    rw [UnpackedFloat.ofNat, UnpackedFloat.ofInt, UnpackedFloat.normalize,
      Int.compare_eq_gt.mpr (show (0 : Int) < number by omega)]
    dsimp only
    rw [UnpackedFloat.round, Int.toNat_natCast]
    dsimp only [decreaseExponent]
    rw [amount, Nat.shiftLeft_eq]
    exact denotes_round long nonzero value .positive

/-! ### Decimal notation -/

/-- Whether an unpacked double is the given positive number, with all its digits. -/
def isExactly (number : Nat) : UnpackedFloat → Bool
  | .finite .positive mantissa exponent _ =>
      2 ^ 52 ≤ mantissa && mantissa < 2 ^ 53 && -52 ≤ exponent &&
        mantissa * 2 ^ (exponent + 52).toNat == number * 2 ^ 52
  | _ => false

theorem denotes_of_isExactly {number : Nat} {unpacked : UnpackedFloat}
    (exactly : isExactly number unpacked = true) : Denotes unpacked number := by
  unfold isExactly at exactly
  split at exactly
  · next mantissa exponent positive =>
      simp only [Bool.and_eq_true, decide_eq_true_eq, beq_iff_eq] at exactly
      obtain ⟨⟨⟨low, high⟩, least⟩, value⟩ := exactly
      have denotes : Denotes (.finite .positive mantissa exponent positive)
          (Sign.positive.apply number) := .finite low high (by omega) value
      exact denotes
  · contradiction

/-- The powers of ten with an exact double. -/
theorem denotes_powerOfTen (exponent : Fin Float.exactlyRepresentablePowersOfTen.size) :
    Denotes Float.exactlyRepresentablePowersOfTen[exponent].toModel.unpack
      (10 ^ exponent.val : Nat) := by
  apply denotes_of_isExactly
  revert exponent
  decide +kernel

theorem nearestInt_natCast (number : Nat) : nearestInt number = nearest number :=
  nearestInt_apply .positive number

theorem denotes_toFloat {number : Nat} (short : number < 2 ^ 53) :
    Denotes number.toUInt64.toFloat.toModel.unpack number := by
  have denotes := denotes_ofNat number
  have same : number.toUInt64.toNat = number := Nat.mod_eq_of_lt (by omega)
  rw [nearest_of_hasRoom (hasRoom_of_le (Nat.le_of_lt short))] at denotes
  have small : (number : Int).natAbs < 2 ^ 64 := by omega
  have packed : number.toUInt64.toFloat.toModel =
      Float.Model.pack (UnpackedFloat.ofNat Format.binary64 number) := by
    show Float.Model.pack (UnpackedFloat.ofNat Format.binary64 number.toUInt64.toNat) = _
    rw [same]
  rwa [packed, denotes.unpack_pack small]

/-- A product of a mantissa and a power of ten is rounded once. -/
theorem denotes_ofScientific (mantissa exponent : Nat) (bounded : exponent ≤ 2 ^ 11) :
    Denotes (UnpackedFloat.ofScientific Format.binary64 mantissa exponent)
      (nearest (mantissa * 10 ^ exponent)) := by
  rw [UnpackedFloat.ofScientific]
  split
  · next zero =>
      rw [zero, Nat.zero_mul]
      exact .zero .positive
  · next nonzero =>
      have positive : 10 ^ exponent ≠ 0 := Nat.ne_of_gt (Nat.pow_pos (by decide))
      have value : mantissa * 2 ^ 53 * 10 ^ exponent * 2 ^ 0 = mantissa * 10 ^ exponent * 2 ^ 53 := by
        ring
      have long : 52 ≤ (mantissa * 2 ^ 53 * 10 ^ exponent).log2 := by
        have place := log2_eq_of_scaled (Nat.mul_ne_zero nonzero positive) value
        omega
      have notLarge : ¬ (exponent : Int) > 2 ^ Format.binary64.exponentBits := by
        show ¬ (exponent : Int) > 2 ^ 11
        omega
      have notSmall : ¬ (exponent : Int) <
          -(2 ^ Format.binary64.exponentBits + (mantissa.log2 : Int)) := by
        show ¬ (exponent : Int) < -(2 ^ 11 + (mantissa.log2 : Int))
        omega
      rw [if_neg notLarge, if_neg notSmall, if_pos (Int.natCast_nonneg exponent)]
      have rounded := denotes_round long (Nat.mul_ne_zero nonzero positive) value .positive
      rw [← Nat.shiftLeft_eq] at rounded
      exact rounded

/-- A large power of ten is not computed. -/
theorem large_ofScientific (mantissa exponent : Nat) (large : 2 ^ 11 < exponent) :
    Denotes (UnpackedFloat.ofScientific Format.binary64 mantissa exponent)
        (nearest (mantissa * 10 ^ exponent)) ∨
      UnpackedFloat.ofScientific Format.binary64 mantissa exponent = .infinity .positive ∧
        2 ^ 1024 ≤ nearest (mantissa * 10 ^ exponent) := by
  rw [UnpackedFloat.ofScientific]
  split
  · next zero =>
      rw [zero, Nat.zero_mul]
      exact .inl (.zero .positive)
  · next nonzero =>
      have beyond : (exponent : Int) > 2 ^ Format.binary64.exponentBits := by
        show (exponent : Int) > 2 ^ 11
        omega
      have digits {size : Nat} (fits : size ≤ 2 ^ 11) : 2 ^ size ≤ mantissa * 10 ^ exponent := by
        calc
          2 ^ size ≤ 2 ^ exponent := Nat.pow_le_pow_right (by decide) (by omega)
          _ ≤ 10 ^ exponent := Nat.pow_le_pow_left (by decide) exponent
          _ ≤ mantissa * 10 ^ exponent := Nat.le_mul_of_pos_left _ (Nat.pos_of_ne_zero nonzero)
      exact .inr ⟨if_pos beyond, two_pow_le_nearest (digits (by decide))⟩

/-- The double of a number in decimal notation is the nearest one, or infinite. -/
theorem toModel_ofScientific (mantissa exponent : Nat) :
    ∃ unpacked, (Float.ofScientific mantissa false exponent).toModel = Float.Model.pack unpacked ∧
      (Denotes unpacked (nearest (mantissa * 10 ^ exponent)) ∨
        unpacked = .infinity .positive ∧ 2 ^ 1024 ≤ nearest (mantissa * 10 ^ exponent)) := by
  rw [Float.ofScientific]
  split
  · next short =>
      have power := denotes_powerOfTen ⟨exponent, Nat.lt_succ_of_le short.2⟩
      have product := (denotes_toFloat short.1).mul power
      rw [← Int.natCast_mul, nearestInt_natCast] at product
      exact ⟨_, rfl, .inl product⟩
  · next long =>
      refine ⟨_, rfl, ?_⟩
      rcases Nat.lt_or_ge (2 ^ 11) exponent with large | bounded
      · exact large_ofScientific mantissa exponent large
      · exact .inl (denotes_ofScientific mantissa exponent bounded)

/-- A decimal number without fraction is read as the nearest double, which may overflow. -/
theorem truncated?_toFloat (mantissa exponent : Nat) :
    (Binary64.ofFloat (Decimal.toFloat ⟨mantissa, exponent⟩)).truncated? =
      if nearest (mantissa * 10 ^ exponent) < 2 ^ 1024 then
        some (nearest (mantissa * 10 ^ exponent) : Int)
      else none := by
  have number : Decimal.toFloat ⟨mantissa, exponent⟩ = Float.ofScientific mantissa false exponent := by
    rw [Decimal.toFloat, decide_eq_false (Int.not_lt.mpr (Int.natCast_nonneg exponent)),
      Int.natAbs_natCast]
  obtain ⟨unpacked, model, result⟩ := toModel_ofScientific mantissa exponent
  have bits : (Decimal.toFloat ⟨mantissa, exponent⟩).toBits.toNat =
      (UnpackedFloat.pack Format.binary64 unpacked).toNat := by
    rw [number]
    exact congrArg (fun packed : Float.Model => packed.toBits.toNat) model
  rw [Binary64.ofFloat, bits]
  rcases result with denotes | ⟨rfl, large⟩
  · have whole := denotes.truncated?
    rwa [Int.natAbs_natCast] at whole
  · rw [if_neg (Nat.not_lt.mpr large)]
    rfl

/-! ### Integers -/

theorem denotes_float_ofNat {number : Nat} (small : number ≤ 2 ^ 63) :
    Denotes (Float.ofNat number).toModel.unpack (nearest number) := by
  have bound := nearest_le_two_pow small
  obtain ⟨unpacked, model, result⟩ := toModel_ofScientific number 0
  rw [Nat.pow_zero, Nat.mul_one] at result
  have packed : (Float.ofNat number).toModel = Float.Model.pack unpacked := model
  rcases result with denotes | ⟨rfl, large⟩
  · rw [packed, denotes.unpack_pack (by omega)]
    exact denotes
  · have least {size : Nat} (more : 64 ≤ size) : 2 ^ 64 ≤ 2 ^ size :=
      Nat.pow_le_pow_right (by decide) more
    exact absurd (Nat.le_trans (least (by decide)) large) (by omega)

/-- An integer of the machine is converted to the nearest double. -/
theorem denotes_ofInt {number : Int} (small : number.natAbs ≤ 2 ^ 63) :
    Denotes (Float.ofInt number).toModel.unpack (nearestInt number) := by
  cases number with
  | ofNat magnitude =>
      rw [Int.ofNat_eq_natCast, nearestInt_natCast]
      exact denotes_float_ofNat small
  | negSucc less =>
      have small : less + 1 ≤ 2 ^ 63 := small
      have bound := nearest_le_two_pow small
      have negated := (denotes_float_ofNat small).neg
      have opposite : nearestInt (Int.negSucc less) = -(nearest (less + 1) : Int) :=
        nearestInt_apply .negative (less + 1)
      have model : (Float.ofInt (Int.negSucc less)).toModel =
          Float.Model.pack (Float.ofNat (less + 1)).toModel.unpack.neg := rfl
      rw [opposite, model, negated.unpack_pack (by omega)]
      exact negated

/-- The doubles of two integers are compared like the nearest numbers. -/
theorem ofInt_lt_ofInt {left right : Int} (leftSmall : left.natAbs ≤ 2 ^ 63)
    (rightSmall : right.natAbs ≤ 2 ^ 63) :
    Float.ofInt left < Float.ofInt right ↔ nearestInt left < nearestInt right := by
  have order := (denotes_ofInt leftSmall).compare (denotes_ofInt rightSmall)
  have model : Float.ofInt left < Float.ofInt right ↔
      ((Float.ofInt left).toModel.unpack.compare (Float.ofInt right).toModel.unpack == some .lt) =
        true := decide_eq_true_iff
  rw [model, order, beq_iff_eq, Option.some_inj, Int.compare_eq_lt]

end StackLang.Numeral
