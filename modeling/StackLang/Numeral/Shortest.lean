/-!
# Shortest decimals that read back

Every real number between the two midpoints beside a double rounds to that
double; the midpoints themselves do if the mantissa is even.  `shortest` walks
from coarse to fine over the grids of multiples of a power of ten and takes the
first grid that has a point in this range, and of two such points the nearer
one.  Only the two neighbours of the double on a grid have to be tried: if any
point of the grid lies in the range, one of these does.
-/

namespace StackLang.Numeral

/-- The reals that round to one double, as multiples of `1 / unit`. -/
structure Rounding where
  low : Nat
  value : Nat
  high : Nat
  unit : Nat
  closed : Bool

namespace Rounding

/-- The range of the positive double `mantissa · 2 ^ exponent`.  Below a power
of two the next double is only half as far away. -/
def ofParts (mantissa : Nat) (exponent : Int) : Rounding :=
  let scale := Nat.pow 2 (exponent - 2).toNat
  let lowGap := if mantissa = Nat.pow 2 52 ∧ -1074 < exponent then 1 else 2
  { low := (4 * mantissa - lowGap) * scale
    value := 4 * mantissa * scale
    high := (4 * mantissa + 2) * scale
    unit := Nat.pow 2 (2 - exponent).toNat
    closed := mantissa % 2 == 0 }

/-- Whether a point lies in the range, all numbers being scaled alike. -/
def admits (closed : Bool) (low high point : Nat) : Bool :=
  if closed then low ≤ point && point ≤ high else low < point && point < high

/-- The point of the grid of multiples of `10 ^ place` that lies in the range
and is nearest to the value, as a multiple. -/
def gridPoint? (range : Rounding) (place : Int) : Option Nat :=
  let fine := Nat.pow 10 (-place).toNat
  let step := range.unit * Nat.pow 10 place.toNat
  let value := range.value * fine
  let below := value / step
  let fits multiple := admits range.closed (range.low * fine) (range.high * fine) (multiple * step)
  match fits below, fits (below + 1) with
  | true, true => some (if 2 * value < (2 * below + 1) * step then below else below + 1)
  | true, false => some below
  | false, true => some (below + 1)
  | false, false => none

/-- The first grid point found on `count` grids, each ten times finer than the
one before. -/
def search (range : Rounding) : Nat → Int → Option (Nat × Int)
  | 0, _ => none
  | count + 1, place =>
      match range.gridPoint? place with
      | some multiple => some (multiple, place)
      | none => search range count (place - 1)

end Rounding

/-- The number of decimal digits of a natural number. -/
def digitCount (number : Nat) : Nat := (Nat.toDigits 10 number).length

/-- The shortest decimal `multiple · 10 ^ place` that reads back as the positive
double `mantissa · 2 ^ exponent`.  No double needs more than 17 digits. -/
def shortest (mantissa : Nat) (exponent : Int) : Nat × Int :=
  let range := Rounding.ofParts mantissa exponent
  let top : Int := digitCount range.value - digitCount range.unit + 1
  (range.search 20 top).getD (mantissa, exponent)

end StackLang.Numeral
