import StackLang.Numeral.Integer

/-!
# Decimal notation of binary64 numbers

A number is digits with at most one point among or beside them, then an
optional exponent.  `inf`, `infinity` and `nan` in any case are numbers too, and
a sign may stand in front of each form.  The value is the double nearest to the
number written, a tie going to the even one.
-/

namespace StackLang.Numeral

/-- The number `mantissa · 10 ^ exponent`. -/
structure Decimal where
  mantissa : Nat
  exponent : Int

/-- The double nearest to a decimal number. -/
def Decimal.toFloat (number : Decimal) : Float :=
  Float.ofScientific number.mantissa (number.exponent < 0) number.exponent.natAbs

/-- Positive infinity. -/
def infinity : Float := Float.ofBits 0x7FF0000000000000

/-- The value that is no number. -/
def notANumber : Float := Float.ofBits 0x7FF8000000000000

/-- The exponent part of a number, which may be missing. -/
def exponentPart? : List Char → Option Int
  | [] => some 0
  | mark :: digits => if mark = 'e' ∨ mark = 'E' then integer? 10 digits else none

/-- A number without sign: digits, an optional point with digits after it, and
an optional exponent. -/
def decimal? (chars : List Char) : Option Decimal :=
  let whole := chars.takeWhile Char.isDigit
  let afterWhole := chars.dropWhile Char.isDigit
  let (fraction, rest) := match afterWhole with
    | '.' :: afterPoint => (afterPoint.takeWhile Char.isDigit, afterPoint.dropWhile Char.isDigit)
    | _ => ([], afterWhole)
  match natural? 10 (whole ++ fraction), exponentPart? rest with
  | some mantissa, some exponent => some ⟨mantissa, exponent - fraction.length⟩
  | _, _ => none

/-- A number or a word for a special value, without sign. -/
def magnitude? (chars : List Char) : Option Float :=
  let word := String.ofList (chars.map Char.toLower)
  if word = "inf" ∨ word = "infinity" then some infinity
  else if word = "nan" then some notANumber
  else (decimal? chars).map Decimal.toFloat

/-- The double that a text denotes. -/
def float? (text : String) : Option Float :=
  match text.toList with
  | '+' :: rest => magnitude? rest
  | '-' :: rest => (magnitude? rest).map Float.neg
  | chars => magnitude? chars

end StackLang.Numeral
