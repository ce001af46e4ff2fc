import Mathlib.Tactic.Ring

/-!
# Rounding to the digits of a double

A double has room for 53 binary digits.  `nearest` is the closest whole number that
needs no more, a tie going to the one whose last digit is even.
-/

namespace StackLang.Numeral

/-! ### Rounding to a multiple of a power of two -/

/-- The number of times that `2 ^ places` goes into a number, rounded to the closest
whole number and to the even one of two that are as close. -/
def halfEven (number places : Nat) : Nat :=
  match compare (2 * (number % 2 ^ places)) (2 ^ places) with
  | .lt => number / 2 ^ places
  | .eq => number / 2 ^ places + number / 2 ^ places % 2
  | .gt => number / 2 ^ places + 1

section

variable {number other places : Nat}

theorem halfEven_of_lt (below : 2 * (number % 2 ^ places) < 2 ^ places) :
    halfEven number places = number / 2 ^ places := by
  rw [halfEven, Nat.compare_eq_lt.mpr below]

theorem halfEven_of_eq (half : 2 * (number % 2 ^ places) = 2 ^ places) :
    halfEven number places = number / 2 ^ places + number / 2 ^ places % 2 := by
  rw [halfEven, Nat.compare_eq_eq.mpr half]

theorem halfEven_of_gt (above : 2 ^ places < 2 * (number % 2 ^ places)) :
    halfEven number places = number / 2 ^ places + 1 := by
  rw [halfEven, Nat.compare_eq_gt.mpr above]

/-- The quotient is cut off below the half and taken up above it. -/
theorem halfEven_cases (number places : Nat) :
    (halfEven number places = number / 2 ^ places ∧ 2 * (number % 2 ^ places) ≤ 2 ^ places) ∨
      (halfEven number places = number / 2 ^ places + 1 ∧
        2 ^ places ≤ 2 * (number % 2 ^ places)) := by
  rcases Nat.lt_trichotomy (2 * (number % 2 ^ places)) (2 ^ places) with below | half | above
  · exact .inl ⟨halfEven_of_lt below, Nat.le_of_lt below⟩
  · rcases Nat.mod_two_eq_zero_or_one (number / 2 ^ places) with even | odd
    · exact .inl ⟨by rw [halfEven_of_eq half, even, Nat.add_zero], Nat.le_of_eq half⟩
    · exact .inr ⟨by rw [halfEven_of_eq half, odd], Nat.le_of_eq half.symm⟩
  · exact .inr ⟨halfEven_of_gt above, Nat.le_of_lt above⟩

/-- A multiple of the power stays what it is. -/
theorem halfEven_mul (quotient places : Nat) :
    halfEven (quotient * 2 ^ places) places = quotient := by
  have positive := Nat.two_pow_pos places
  rw [halfEven_of_lt (by rw [Nat.mul_mod_left]; omega), Nat.mul_div_cancel _ positive]

/-- Binary digits that are all zero may be cut off first. -/
theorem halfEven_scaled (number places zeros : Nat) :
    halfEven (number * 2 ^ zeros) (places + zeros) = halfEven number places := by
  have positive := Nat.two_pow_pos zeros
  have quotient : number * 2 ^ zeros / 2 ^ (places + zeros) = number / 2 ^ places := by
    rw [Nat.pow_add, Nat.mul_div_mul_right _ _ positive]
  have remainder : 2 * (number * 2 ^ zeros % 2 ^ (places + zeros)) =
      2 * (number % 2 ^ places) * 2 ^ zeros := by
    rw [Nat.pow_add, Nat.mul_mod_mul_right, Nat.mul_assoc]
  have scaled : compare (2 * (number % 2 ^ places) * 2 ^ zeros) (2 ^ places * 2 ^ zeros) =
      compare (2 * (number % 2 ^ places)) (2 ^ places) := by
    simp only [Nat.compare_eq_ite_lt, Nat.mul_lt_mul_right positive]
  rw [halfEven, halfEven, quotient, remainder, Nat.pow_add 2 places zeros, scaled]

theorem halfEven_mono (places : Nat) (ordered : number ≤ other) :
    halfEven number places ≤ halfEven other places := by
  have first := halfEven_cases number places
  have second := halfEven_cases other places
  rcases Nat.lt_or_eq_of_le (Nat.div_le_div_right (c := 2 ^ places) ordered) with less | same
  · omega
  have split := Nat.div_add_mod number (2 ^ places)
  have otherSplit := Nat.div_add_mod other (2 ^ places)
  rw [same] at split
  have remainders : number % 2 ^ places ≤ other % 2 ^ places := by omega
  rcases Nat.lt_or_eq_of_le remainders with more | equal
  · omega
  · have identical : number = other := by omega
    rw [identical]

/-- No multiple of the power is closer to the number. -/
theorem halfEven_closest (number places multiple : Nat) :
    (halfEven number places * 2 ^ places - number : Int).natAbs ≤
      (multiple * 2 ^ places - number : Int).natAbs := by
  have split := Nat.div_add_mod' number (2 ^ places)
  have remainder := Nat.mod_lt number (Nat.two_pow_pos places)
  have up : (number / 2 ^ places + 1) * 2 ^ places = number / 2 ^ places * 2 ^ places + 2 ^ places :=
    Nat.succ_mul _ _
  have apart : multiple * 2 ^ places ≤ number / 2 ^ places * 2 ^ places ∨
      (number / 2 ^ places + 1) * 2 ^ places ≤ multiple * 2 ^ places := by
    rcases Nat.lt_or_ge (number / 2 ^ places) multiple with above | below
    · exact .inr (Nat.mul_le_mul_right _ above)
    · exact .inl (Nat.mul_le_mul_right _ below)
  have cast (factor : Nat) : (factor * 2 ^ places : Int) = (factor * 2 ^ places : Nat) := by
    push_cast
    rfl
  rw [cast, cast]
  rcases halfEven_cases number places with ⟨result, low⟩ | ⟨result, high⟩
  · rw [result]
    omega
  · rw [result]
    omega

end

/-! ### Rounding to 53 binary digits -/

/-- The binary digits of a number that a double has no room for. -/
def excess (number : Nat) : Nat := number.log2 - 52

/-- The closest number among those with at most 53 binary digits before the zeros at
their ends, and the even one of two that are as close. -/
def nearest (number : Nat) : Nat := halfEven number (excess number) * 2 ^ excess number

/-- At most 53 binary digits stand before the zeros at the end of the number. -/
def HasRoom (number : Nat) : Prop := ∃ digits zeros, digits ≤ 2 ^ 53 ∧ number = digits * 2 ^ zeros

section

variable {number other : Nat}

theorem lt_of_excess (number : Nat) : number < 2 ^ (53 + excess number) := by
  apply Nat.lt_of_lt_of_le Nat.lt_log2_self
  apply Nat.pow_le_pow_right (by decide)
  rw [excess]
  omega

/-- A number with binary digits in excess has a digit at place 52 before them. -/
theorem le_of_excess (number : Nat) (some : 0 < excess number) : 2 ^ (52 + excess number) ≤ number := by
  rw [excess] at some
  have nonzero : number ≠ 0 := by
    rintro rfl
    rw [Nat.log2_zero] at some
    contradiction
  have place : 52 + excess number = number.log2 := by
    rw [excess]
    omega
  rw [place]
  exact Nat.log2_self_le nonzero

theorem halfEven_excess_le (number : Nat) : halfEven number (excess number) ≤ 2 ^ 53 := by
  have positive := Nat.two_pow_pos (excess number)
  have small : number / 2 ^ excess number < 2 ^ 53 := by
    rw [Nat.div_lt_iff_lt_mul positive, ← Nat.pow_add]
    exact lt_of_excess number
  have near := halfEven_cases number (excess number)
  omega

theorem nearest_hasRoom (number : Nat) : HasRoom (nearest number) :=
  ⟨halfEven number (excess number), excess number, halfEven_excess_le number, rfl⟩

/-- No double is closer to a number than the one it is rounded to. -/
theorem nearest_closest (number : Nat) (room : HasRoom other) :
    (nearest number - number : Int).natAbs ≤ (other - number : Int).natAbs := by
  obtain ⟨digits, zeros, small, rfl⟩ := room
  have closest := halfEven_closest number (excess number)
  rw [nearest]
  push_cast
  rcases Nat.lt_or_ge zeros (excess number) with fine | coarse
  · -- Below the first digit, the power of two at that digit is closer.
    have first := le_of_excess number (by omega)
    have below : digits * 2 ^ zeros ≤ 2 ^ (52 + excess number) := by
      calc
        digits * 2 ^ zeros ≤ 2 ^ 53 * 2 ^ zeros := Nat.mul_le_mul_right _ small
        _ = 2 ^ (53 + zeros) := (Nat.pow_add 2 53 zeros).symm
        _ ≤ 2 ^ (52 + excess number) := Nat.pow_le_pow_right (by decide) (by omega)
    have digit := closest (2 ^ 52)
    have power : (((2 ^ 52 : Nat) : Int) * 2 ^ excess number) = (2 ^ (52 + excess number) : Nat) := by
      push_cast
      ring
    have cast : (digits * 2 ^ zeros : Int) = (digits * 2 ^ zeros : Nat) := by
      push_cast
      rfl
    rw [power] at digit
    rw [cast]
    omega
  · have multiple := closest (digits * 2 ^ (zeros - excess number))
    have same : ((digits * 2 ^ (zeros - excess number) : Nat) * 2 ^ excess number : Int) =
        digits * 2 ^ zeros := by
      push_cast
      rw [mul_assoc, ← pow_add, Nat.sub_add_cancel coarse]
    rwa [same] at multiple

/-- A number that a double has room for is not rounded. -/
theorem nearest_of_hasRoom (room : HasRoom number) : nearest number = number := by
  have distance := nearest_closest number room
  omega

theorem hasRoom_of_le (small : number ≤ 2 ^ 53) : HasRoom number :=
  ⟨number, 0, small, by rw [Nat.pow_zero, Nat.mul_one]⟩

theorem hasRoom_two_pow (places : Nat) : HasRoom (2 ^ places) :=
  ⟨1, places, by decide, (Nat.one_mul _).symm⟩

theorem nearest_mono (ordered : number ≤ other) : nearest number ≤ nearest other := by
  rcases Nat.lt_trichotomy (excess number) (excess other) with fewer | same | more
  · have small := lt_of_excess number
    have large := le_of_excess other (by omega)
    have upper := halfEven_mono (excess number) (Nat.le_of_lt small)
    have lower := halfEven_mono (excess other) large
    rw [Nat.pow_add, halfEven_mul] at upper lower
    calc
      nearest number ≤ 2 ^ 53 * 2 ^ excess number := Nat.mul_le_mul_right _ upper
      _ = 2 ^ (53 + excess number) := (Nat.pow_add 2 53 _).symm
      _ ≤ 2 ^ (52 + excess other) := Nat.pow_le_pow_right (by decide) (by omega)
      _ = 2 ^ 52 * 2 ^ excess other := Nat.pow_add 2 52 _
      _ ≤ nearest other := Nat.mul_le_mul_right _ lower
  · rw [nearest, nearest, same]
    exact Nat.mul_le_mul_right _ (halfEven_mono _ ordered)
  · have large := le_of_excess number (by omega)
    have small := lt_of_excess other
    have powers : 2 ^ (53 + excess other) ≤ 2 ^ (52 + excess number) :=
      Nat.pow_le_pow_right (by decide) (by omega)
    omega

theorem nearest_le_two_pow {places : Nat} (small : number ≤ 2 ^ places) :
    nearest number ≤ 2 ^ places := by
  rw [← nearest_of_hasRoom (hasRoom_two_pow places)]
  exact nearest_mono small

theorem two_pow_le_nearest {places : Nat} (large : 2 ^ places ≤ number) :
    2 ^ places ≤ nearest number := by
  rw [← nearest_of_hasRoom (hasRoom_two_pow places)]
  exact nearest_mono large

/-- A number is rounded to zero only if it is zero. -/
theorem nearest_eq_zero : nearest number = 0 ↔ number = 0 := by
  constructor
  · intro rounded
    rcases Nat.eq_zero_or_pos number with zero | positive
    · exact zero
    · have one : nearest 1 ≤ nearest number := nearest_mono positive
      rw [nearest_of_hasRoom (hasRoom_of_le (by decide)), rounded] at one
      contradiction
  · rintro rfl
    exact nearest_of_hasRoom (hasRoom_of_le (Nat.zero_le _))

end

end StackLang.Numeral
