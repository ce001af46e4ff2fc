import StackLang.Token.Basic

/-!
# How lexemes are recognised

The states name what has been read of a literal or an identifier so far.
`State.next?` is the transition function: it has no answer where the lexeme
cannot be continued.  `State.kind?` gives the kind of a lexeme that may end in
a state.  A leading zero makes an octal number, unless an `8` or a `9` turns it
into a decimal one, and a whole number with an exponent stays an integer.
-/

namespace StackLang.Lexeme

/-- What has been read of a lexeme. -/
inductive State where
  | start
  | zero
  | binaryPrefix
  | binary
  | decimal
  | identifier
  | stringBody
  | stringEnd
  | hexPrefix
  | hex
  | octal
  | point
  | fraction
  | integerExponent
  | integerExponentSign
  | integerExponentDigits
  | floatExponent
  | floatExponentSign
  | floatExponentDigits
  | floatSuffix
  | charOpen
  | charBody
  | charEnd
  deriving DecidableEq, Repr, Inhabited

/-- A digit from `1` to `9`. -/
def isNonzeroDigit (char : Char) : Bool := '1' ≤ char && char ≤ '9'

/-- A digit of an octal number. -/
def isOctalDigit (char : Char) : Bool := '0' ≤ char && char ≤ '7'

/-- A digit of a binary number. -/
def isBinaryDigit (char : Char) : Bool := char == '0' || char == '1'

/-- A digit of a hexadecimal number. -/
def isHexDigit (char : Char) : Bool :=
  char.isDigit || ('a' ≤ char && char ≤ 'f') || ('A' ≤ char && char ≤ 'F')

/-- An ASCII letter, an underscore or a dollar sign. -/
def isNameStart (char : Char) : Bool :=
  ('a' ≤ char && char ≤ 'z') || ('A' ≤ char && char ≤ 'Z') || char == '_' || char == '$'

/-- A character that may follow in a name. -/
def isNamePart (char : Char) : Bool := isNameStart char || char.isDigit

/-- A printable ASCII character, the space included. -/
def isPrintable (char : Char) : Bool := ' ' ≤ char && char ≤ '~'

/-- The mark of an exponent. -/
def isExponentMark (char : Char) : Bool := char == 'e' || char == 'E'

/-- The mark at the end of a floating point number. -/
def isFloatMark (char : Char) : Bool := char == 'f' || char == 'F'

namespace State

/-- The state after one more character, if the lexeme can be continued by it. -/
def next? (state : State) (char : Char) : Option State :=
  match state with
  | .start =>
      if char == '0' then some .zero
      else if isNonzeroDigit char then some .decimal
      else if isNameStart char then some .identifier
      else if char == '"' then some .stringBody
      else if char == '\'' then some .charOpen
      else none
  | .zero =>
      if char == 'b' || char == 'B' then some .binaryPrefix
      else if char == 'x' || char == 'X' then some .hexPrefix
      else if isOctalDigit char then some .octal
      else if char == '8' || char == '9' then some .decimal
      else if char == '.' then some .point
      else if isFloatMark char then some .floatSuffix
      else none
  | .binaryPrefix | .binary => if isBinaryDigit char then some .binary else none
  | .decimal =>
      if char.isDigit then some .decimal
      else if char == '.' then some .point
      else if isExponentMark char then some .integerExponent
      else if isFloatMark char then some .floatSuffix
      else none
  | .identifier => if isNamePart char then some .identifier else none
  | .stringBody =>
      if char == '"' then some .stringEnd
      else if isPrintable char then some .stringBody
      else none
  | .hexPrefix | .hex => if isHexDigit char then some .hex else none
  | .octal =>
      if isOctalDigit char then some .octal
      else if char == '8' || char == '9' then some .decimal
      else if char == '.' then some .point
      else none
  | .point =>
      if char.isDigit then some .fraction
      else if isFloatMark char then some .floatSuffix
      else none
  | .fraction =>
      if char.isDigit then some .fraction
      else if isExponentMark char then some .floatExponent
      else if isFloatMark char then some .floatSuffix
      else none
  | .integerExponent =>
      if char == '-' then some .integerExponentSign
      else if isNonzeroDigit char then some .integerExponentDigits
      else none
  | .integerExponentSign =>
      if isNonzeroDigit char then some .integerExponentDigits else none
  | .integerExponentDigits =>
      if char.isDigit then some .integerExponentDigits else none
  | .floatExponent =>
      if char == '-' then some .floatExponentSign
      else if isNonzeroDigit char then some .floatExponentDigits
      else none
  | .floatExponentSign =>
      if isNonzeroDigit char then some .floatExponentDigits else none
  | .floatExponentDigits =>
      if char.isDigit then some .floatExponentDigits
      else if isFloatMark char then some .floatSuffix
      else none
  | .charOpen =>
      if char != '\'' && isPrintable char then some .charBody else none
  | .charBody => if char == '\'' then some .charEnd else none
  | .stringEnd | .floatSuffix | .charEnd => none

/-- The kind of a lexeme that ends in this state. -/
def kind? : State → Option TokenKind
  | .zero | .decimal | .integerExponentDigits => some .integer
  | .binary => some .binary
  | .identifier => some .identifier
  | .stringEnd => some .string
  | .hex => some .hexadecimal
  | .octal => some .octal
  | .point | .fraction | .floatExponentDigits | .floatSuffix => some .float
  | .charEnd => some .char
  | _ => none

/-- Every state. -/
def all : List State :=
  [.start, .zero, .binaryPrefix, .binary, .decimal, .identifier, .stringBody, .stringEnd,
    .hexPrefix, .hex, .octal, .point, .fraction, .integerExponent, .integerExponentSign,
    .integerExponentDigits, .floatExponent, .floatExponentSign, .floatExponentDigits,
    .floatSuffix, .charOpen, .charBody, .charEnd]

/-- The number of a state in the transition table. -/
def number (state : State) : Nat := state.ctorIdx

/-- The state reached from here by reading all characters. -/
def run? (state : State) : List Char → Option State
  | [] => some state
  | char :: rest => (state.next? char).bind fun next => next.run? rest

/-- Inside a string or a char literal, where every character is taken. -/
def inQuotes : State → Bool
  | .stringBody | .charOpen | .charBody => true
  | _ => false

/-- Directly after the closing quote of a literal. -/
def isClosed : State → Bool
  | .stringEnd | .charEnd => true
  | _ => false

/-- Whether the lexeme takes a character that would otherwise end it: any inside
quotes, a point after a whole number, a minus sign after an exponent mark. -/
def takes (state : State) (char : Char) : Bool :=
  match state with
  | .stringBody | .charOpen | .charBody => true
  | .zero | .decimal | .octal => char == '.'
  | .integerExponent | .floatExponent => char == '-'
  | _ => false

end State

/-- The kind of a finished lexeme: a reserved word is a keyword, and a lexeme
that no state accepts is an error. -/
def kindOf (text : String) (state? : Option State) : TokenKind :=
  match state?.bind State.kind? with
  | some .identifier => if text ∈ keywords then .keyword else .identifier
  | some kind => kind
  | none => .error

end StackLang.Lexeme
