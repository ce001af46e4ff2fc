import StackLang.Numeral.Decimal
import StackLang.Numeral.FloatText
import StackLang.Text.Split
import StackLang.Token.Basic
import StackLang.Typing.Basic

/-!
# Literals in bytecode

The machine tells the kind of a literal from its spelling alone.  Numbers in
another radix are therefore written in decimal, an integer with an exponent
without it, and a floating point number always with a fraction.  A number that
does not fit keeps the spelling of the source.
-/

namespace StackLang

/-- The number in another radix, behind a mark of `markSize` bytes. -/
def radixText (value : String) (markSize radix : Nat) : String :=
  match Numeral.int64OfRadix? radix (String.ofList (Text.dropBytes markSize value.toList)) with
  | some number => Numeral.int64Text number
  | none => value

/-- The whole part of a number with an exponent, if it is below `2 ^ 63`.  Its sign is
the one that is written. -/
def exponentText (value : String) : String :=
  match (Numeral.float? value).bind fun number => (Numeral.Binary64.ofFloat number).truncated? with
  | some whole =>
      let size := whole.natAbs
      if size < Nat.pow 2 63 then
        if value.toList.head? = some '-' then toString (-(size : Int)) else toString size
      else value
  | none => value

/-- A floating point number without the marks at its end. -/
def floatLiteralText (value : String) : String :=
  let digits := (value.toList.reverse.dropWhile fun char => char == 'f' || char == 'F').reverse
  match Numeral.float? (String.ofList digits) with
  | some number => Numeral.floatText number
  | none => value

/-- The spelling of a literal token in bytecode. -/
def Token.literalText (token : Token) : String :=
  match token.kind with
  | .hexadecimal => radixText token.value 2 16
  | .binary => radixText token.value 2 2
  | .octal => radixText token.value 0 8
  | .integer =>
      if token.value.toList.any fun char => char == 'e' || char == 'E' then
        exponentText token.value
      else token.value
  | .float => floatLiteralText token.value
  | _ => token.value

/-- Whether the mark of the radix can be cut off the token, if its kind has one. -/
def Token.cutsMark (token : Token) : Bool :=
  match token.kind with
  | .hexadecimal | .binary => Text.cutsAt 2 token.value.toList
  | _ => true

/-- The type of a literal token. -/
def Token.literalType? (token : Token) : Option TypeName :=
  match token.kind with
  | .integer | .hexadecimal | .binary | .octal => some .int
  | .float => some .float
  | .char => some .char
  | .string => some .string
  | _ => if token.spells "true" || token.spells "false" then some .boolean else none

/-- Whether an integer literal is too large for the machine. -/
def Token.isOutOfRange (token : Token) : Bool :=
  token.literalType? == some .int && (Numeral.int64? token.literalText).isNone

end StackLang
