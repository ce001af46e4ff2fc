import Mathlib.Tactic.Ring
import StackLang.Numeral.Decimal
import StackLang.Numeral.FloatText
import StackLang.Proofs.Numeral.Decimal

/-!
# Floating point numbers that are read

Digits with a point or an exponent are the text of a floating point number.  The
number with the fewest digits that reads back has a point unless the number is whole.
-/

namespace StackLang.Numeral

/-- Every character is a decimal digit. -/
def AllDigits (chars : List Char) : Prop := ∀ char ∈ chars, char.isDigit = true

theorem AllDigits.append {front back : List Char} (first : AllDigits front)
    (second : AllDigits back) : AllDigits (front ++ back) :=
  List.forall_mem_append.mpr ⟨first, second⟩

theorem allDigits_zeros (count : Nat) : AllDigits (List.replicate count '0') := by
  intro char member
  rw [List.eq_of_mem_replicate member]
  rfl

/-! ### What is read -/

section

variable {whole fraction rest : List Char}

/-- Nothing or an exponent follows the digits. -/
structure EndsNumber (rest : List Char) : Prop where
  stops : rest.takeWhile Char.isDigit = []
  exponent : (exponentPart? rest).isSome

theorem EndsNumber.nothing : EndsNumber [] := ⟨rfl, rfl⟩

theorem EndsNumber.exponentPart {mark : Char} {digits : List Char}
    (isMark : mark = 'e' ∨ mark = 'E') (reads : (integer? 10 digits).isSome) :
    EndsNumber (mark :: digits) := by
  constructor
  · rcases isMark with rfl | rfl <;> rfl
  · rw [exponentPart?, if_pos isMark]
    exact reads

theorem takeWhile_digits (digits : AllDigits whole) (rest : List Char)
    (ends : rest.takeWhile Char.isDigit = []) :
    (whole ++ rest).takeWhile Char.isDigit = whole ∧
      (whole ++ rest).dropWhile Char.isDigit = rest := by
  have kept : rest.dropWhile Char.isDigit = rest := by
    have parts := List.takeWhile_append_dropWhile (p := Char.isDigit) (l := rest)
    rwa [ends, List.nil_append] at parts
  constructor
  · rw [List.takeWhile_append_of_pos digits, ends, List.append_nil]
  · rw [List.dropWhile_append_of_pos digits, kept]

/-- Digits without a point. -/
theorem decimal?_whole (nonempty : whole ≠ []) (digits : AllDigits whole) :
    (decimal? whole).isSome := by
  have parts := takeWhile_digits digits [] rfl
  rw [List.append_nil] at parts
  rw [decimal?]
  simp only [parts, List.append_nil, natural?_of_digits nonempty digits]
  rfl

/-- Digits with a point in between or at their end. -/
theorem decimal?_pointed (nonempty : whole ≠ []) (wholeDigits : AllDigits whole)
    (fractionDigits : AllDigits fraction) (ends : EndsNumber rest) :
    (decimal? (whole ++ '.' :: (fraction ++ rest))).isSome := by
  have outer := takeWhile_digits wholeDigits ('.' :: (fraction ++ rest)) rfl
  have inner := takeWhile_digits fractionDigits rest ends.stops
  have present : whole ++ fraction ≠ [] := by simp [nonempty]
  have mantissa := natural?_of_digits present (wholeDigits.append fractionDigits)
  obtain ⟨exponent, read⟩ := Option.isSome_iff_exists.mp ends.exponent
  rw [decimal?]
  simp only [outer, inner, mantissa, read]
  rfl

theorem magnitude?_of_decimal? {chars : List Char} (reads : (decimal? chars).isSome) :
    (magnitude? chars).isSome := by
  rw [magnitude?]
  repeat' split
  · rfl
  · rfl
  · rwa [Option.isSome_map]

theorem not_sign_of_isDigit {char : Char} (digit : char.isDigit = true) :
    char ≠ '+' ∧ char ≠ '-' := by
  constructor
  · rintro rfl
    exact absurd digit (by decide)
  · rintro rfl
    exact absurd digit (by decide)

/-- A text that starts with a digit has no sign. -/
theorem float?_of_digit {text : String} {first : Char} {rest : List Char}
    (chars : text.toList = first :: rest) (digit : first.isDigit = true) :
    float? text = magnitude? (first :: rest) := by
  obtain ⟨plus, minus⟩ := not_sign_of_isDigit digit
  rw [float?, chars]
  split
  · next same => exact absurd (List.cons.inj same).1 plus
  · next same => exact absurd (List.cons.inj same).1 minus
  · rfl

theorem float?_of_decimal? {text : String} {first : Char} {rest : List Char}
    (chars : text.toList = first :: rest) (digit : first.isDigit = true)
    (reads : (decimal? (first :: rest)).isSome) : (float? text).isSome := by
  rw [float?_of_digit chars digit]
  exact magnitude?_of_decimal? reads

/-- A sign may stand in front of a number. -/
theorem float?_signText {text : String} {first : Char} {rest : List Char}
    (chars : text.toList = first :: rest) (digit : first.isDigit = true)
    (reads : (decimal? (first :: rest)).isSome) (negative : Bool) :
    (float? (signText negative ++ text)).isSome := by
  have magnitude := magnitude?_of_decimal? reads
  cases negative with
  | false =>
      show (float? ("" ++ text)).isSome = true
      rw [String.empty_append]
      exact float?_of_decimal? chars digit reads
  | true =>
      have signed : (signText true ++ text).toList = '-' :: first :: rest := by
        rw [String.toList_append, chars]
        rfl
      rw [float?, signed]
      show ((magnitude? (first :: rest)).map Float.neg).isSome = true
      rwa [Option.isSome_map]

end

/-! ### Shortest numbers -/

open Binary64

theorem exponent_neg_of_not_whole {mantissa : Nat} {exponent : Int}
    (broken : isWhole mantissa exponent = false) : exponent < 0 := by
  apply Int.not_le.mp
  intro positive
  have none : (-exponent).toNat = 0 := by omega
  rw [isWhole, none, Nat.pow_eq, Nat.pow_eq, Nat.pow_zero, Nat.mod_one] at broken
  contradiction

namespace Rounding

/-- A point that is admitted lies between the ends. -/
theorem between_of_admits {closed : Bool} {low high point : Nat}
    (admitted : admits closed low high point = true) : low ≤ point ∧ point ≤ high := by
  cases closed with
  | true => simpa [admits] using admitted
  | false =>
      have strictly : low < point ∧ point < high := by simpa [admits] using admitted
      exact ⟨Nat.le_of_lt strictly.1, Nat.le_of_lt strictly.2⟩

/-- No whole number rounds to a number that is not whole.  The midpoints beside the number
are less than half a unit of its last place away. -/
theorem gridPoint?_of_not_whole {mantissa : Nat} {exponent place : Int}
    (broken : isWhole mantissa exponent = false) (coarse : 0 ≤ place) :
    (ofParts mantissa exponent).gridPoint? place = none := by
  have negative := exponent_neg_of_not_whole broken
  have noFine : (-place).toNat = 0 := by omega
  have noScale : (exponent - 2).toNat = 0 := by omega
  have noGrowth : exponent.toNat = 0 := by omega
  have unit : (2 - exponent).toNat = (-exponent).toNat + 2 := by omega
  have misses (multiple : Nat) :
      admits (ofParts mantissa exponent).closed
        ((ofParts mantissa exponent).low * 10 ^ (-place).toNat)
        ((ofParts mantissa exponent).high * 10 ^ (-place).toNat)
        (multiple * ((ofParts mantissa exponent).unit * 10 ^ place.toNat)) = false := by
    apply Bool.eq_false_iff.mpr
    intro admitted
    have bounds := between_of_admits admitted
    simp only [ofParts, noFine, noScale, unit, Nat.pow_eq, Nat.pow_zero, Nat.mul_one] at bounds
    have gap : (if mantissa = 2 ^ 52 ∧ -1074 < exponent then 1 else 2) ≤ 2 := by split <;> omega
    have point : multiple * (2 ^ ((-exponent).toNat + 2) * 10 ^ place.toNat) =
        4 * (2 ^ (-exponent).toNat * (multiple * 10 ^ place.toNat)) := by
      rw [Nat.pow_add]
      ring
    rw [point] at bounds
    have same : mantissa = 2 ^ (-exponent).toNat * (multiple * 10 ^ place.toNat) := by omega
    rw [isWhole, noGrowth, Nat.pow_eq, Nat.pow_eq, Nat.pow_zero, Nat.mul_one, same,
      Nat.mul_mod_right] at broken
    contradiction
  rw [gridPoint?]
  simp only [Nat.pow_eq, misses]

/-- A search that finds nothing on coarse grids ends on a fine one. -/
theorem search_place_neg {range : Rounding}
    (misses : ∀ place : Int, 0 ≤ place → range.gridPoint? place = none) {count multiple : Nat}
    {top place : Int} (found : range.search count top = some (multiple, place)) : place < 0 := by
  induction count generalizing top with
  | zero => contradiction
  | succ count ih =>
      rw [search] at found
      split at found
      · next here =>
          obtain ⟨-, rfl⟩ := Prod.mk.inj (Option.some.inj found)
          apply Int.not_le.mp
          intro coarse
          rw [misses top coarse] at here
          contradiction
      · exact ih found

end Rounding

/-- The shortest text of a number that is not whole has a fraction. -/
theorem shortest_place_neg {mantissa : Nat} {exponent : Int}
    (broken : isWhole mantissa exponent = false) : (shortest mantissa exponent).2 < 0 := by
  rw [shortest]
  generalize (digitCount _ - digitCount _ + 1 : Int) = top
  cases found : (Rounding.ofParts mantissa exponent).search 20 top with
  | none => exact exponent_neg_of_not_whole broken
  | some point =>
      exact Rounding.search_place_neg
        (fun _ coarse => Rounding.gridPoint?_of_not_whole broken coarse) found

/-- A number with a fraction is written with a point behind a digit. -/
theorem positional_pointed (multiple : Nat) {place : Int} (fine : place < 0) :
    ∃ whole fraction, whole ≠ [] ∧ AllDigits whole ∧ AllDigits fraction ∧
      (positional multiple place).toList = whole ++ '.' :: fraction := by
  have digits : AllDigits (Nat.toDigits 10 multiple) := toDigits_isDigit multiple
  have padded := (allDigits_zeros
    ((-place).toNat + 1 - (Nat.toDigits 10 multiple).length)).append digits
  rw [positional, if_neg (Int.not_le.mpr fine), String.toList_ofList]
  refine ⟨_, _, ?_, ?_, ?_, rfl⟩
  · apply List.ne_nil_of_length_pos
    simp only [List.length_take, List.length_append, List.length_replicate]
    omega
  · exact fun char member => padded char (List.mem_of_mem_take member)
  · exact fun char member => padded char (List.mem_of_mem_drop member)

end StackLang.Numeral
