import StackLang.Numeral.Binary64
import StackLang.Numeral.Shortest

/-!
# Text of binary64 numbers

A whole number is written with all its digits and `.0`, any other finite number
with the fewest digits that read back.  Neither form has an exponent, and zero
keeps its sign.
-/

namespace StackLang.Numeral

/-- The number `multiple · 10 ^ place` in positional notation. -/
def positional (multiple : Nat) (place : Int) : String :=
  let digits := Nat.toDigits 10 multiple
  if 0 ≤ place then String.ofList (digits ++ List.replicate place.toNat '0')
  else
    let places := (-place).toNat
    let padded := List.replicate (places + 1 - digits.length) '0' ++ digits
    let whole := padded.length - places
    String.ofList (padded.take whole ++ '.' :: padded.drop whole)

/-- The sign in front of a negative number. -/
def signText (negative : Bool) : String := if negative then "-" else ""

/-- The text of a double given by its parts. -/
def Binary64.text : Binary64 → String
  | .notANumber => "NaN"
  | .infinite negative => signText negative ++ "inf"
  | .zero negative => signText negative ++ "0.0"
  | .finite negative mantissa exponent =>
      if isWhole mantissa exponent then
        signText negative ++ toString (wholePart mantissa exponent) ++ ".0"
      else
        let (multiple, place) := shortest mantissa exponent
        signText negative ++ positional multiple place

/-- The text of a double. -/
def floatText (number : Float) : String := (Binary64.ofFloat number).text

end StackLang.Numeral
