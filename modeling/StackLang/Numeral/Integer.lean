/-!
# Whole numbers in positional notation

A natural number is one or more digits of a radix.  A signed number may start
with `+` or `-`, an unsigned one with `+` only.  The 64-bit readers refuse a
number outside their range instead of wrapping it.
-/

namespace StackLang.Numeral

/-- The value of a digit, where letters of either case follow the nine. -/
def digitValue? (char : Char) : Option Nat :=
  if '0' ≤ char ∧ char ≤ '9' then some (char.toNat - '0'.toNat)
  else if 'a' ≤ char ∧ char ≤ 'z' then some (char.toNat - 'a'.toNat + 10)
  else if 'A' ≤ char ∧ char ≤ 'Z' then some (char.toNat - 'A'.toNat + 10)
  else none

/-- The value of a digit that the radix admits. -/
def digit? (radix : Nat) (char : Char) : Option Nat :=
  (digitValue? char).filter (· < radix)

/-- The number reached by appending digits to one already read. -/
def extend? (radix : Nat) (value : Nat) : List Char → Option Nat
  | [] => some value
  | char :: rest => (digit? radix char).bind fun digit => extend? radix (value * radix + digit) rest

/-- The number written by one or more digits. -/
def natural? (radix : Nat) (chars : List Char) : Option Nat :=
  if chars.isEmpty then none else extend? radix 0 chars

/-- The number written by an optional sign and one or more digits. -/
def integer? (radix : Nat) : List Char → Option Int
  | '+' :: digits => (natural? radix digits).map Int.ofNat
  | '-' :: digits => (natural? radix digits).map fun magnitude => -(magnitude : Int)
  | digits => (natural? radix digits).map Int.ofNat

/-- The number is representable in 64 bits with a sign. -/
def FitsInt64 (number : Int) : Prop := -0x8000000000000000 ≤ number ∧ number < 0x8000000000000000

instance (number : Int) : Decidable (FitsInt64 number) :=
  inferInstanceAs (Decidable (_ ∧ _))

/-- A signed number that fits into 64 bits. -/
def int64OfRadix? (radix : Nat) (text : String) : Option Int64 :=
  match integer? radix text.toList with
  | some number => if FitsInt64 number then some (Int64.ofInt number) else none
  | none => none

/-- A signed decimal number that fits into 64 bits. -/
def int64? (text : String) : Option Int64 := int64OfRadix? 10 text

/-- An unsigned decimal number below `2 ^ 64`, with an optional plus sign. -/
def natural64? (text : String) : Option Nat :=
  let digits := match text.toList with
    | '+' :: digits => digits
    | digits => digits
  (natural? 10 digits).filter (· < UInt64.size)

/-- The decimal text of a 64-bit integer. -/
def int64Text (number : Int64) : String := toString number.toInt

end StackLang.Numeral
