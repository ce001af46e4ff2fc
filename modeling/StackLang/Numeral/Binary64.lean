/-!
# The parts of a binary64 number

`Binary64.ofFloat` takes a double apart into its class, its sign and, for a
finite number other than zero, the integers `mantissa` and `exponent` with
`|x| = mantissa · 2 ^ exponent`.  Powers are applications of `Nat.pow`, since what `^`
stands for depends on the algebra in scope.
-/

namespace StackLang.Numeral

/-- A double by its class. -/
inductive Binary64 where
  | notANumber
  | infinite (negative : Bool)
  | zero (negative : Bool)
  | finite (negative : Bool) (mantissa : Nat) (exponent : Int)
  deriving Repr, DecidableEq

namespace Binary64

/-- The parts of the double with the given bit pattern. -/
def ofBits (bits : Nat) : Binary64 :=
  let negative := (bits >>> 63) % 2 == 1
  let biased : Nat := (bits >>> 52) % 2048
  let fraction : Nat := bits % Nat.pow 2 52
  if biased = 2047 then
    if fraction = 0 then .infinite negative else .notANumber
  else if biased = 0 then
    if fraction = 0 then .zero negative else .finite negative fraction (-1074)
  else .finite negative (Nat.pow 2 52 + fraction) ((biased : Int) - 1075)

/-- The parts of a double. -/
def ofFloat (number : Float) : Binary64 := ofBits number.toBits.toNat

/-- The whole part of `mantissa · 2 ^ exponent`. -/
def wholePart (mantissa : Nat) (exponent : Int) : Nat :=
  mantissa * Nat.pow 2 exponent.toNat / Nat.pow 2 (-exponent).toNat

/-- Whether `mantissa · 2 ^ exponent` is a whole number. -/
def isWhole (mantissa : Nat) (exponent : Int) : Bool :=
  mantissa * Nat.pow 2 exponent.toNat % Nat.pow 2 (-exponent).toNat == 0

/-- The number rounded towards zero; none if it is not finite. -/
def truncated? : Binary64 → Option Int
  | .notANumber => none
  | .infinite _ => none
  | .zero _ => some 0
  | .finite negative mantissa exponent =>
      let whole : Int := wholePart mantissa exponent
      some (if negative then -whole else whole)

end Binary64

end StackLang.Numeral
