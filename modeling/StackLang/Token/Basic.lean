/-!
# Tokens

A token is the text of a lexeme with its kind and the number of its line.  Only
keywords, operators and delimiters are recognised by their spelling; `true` and
`false` are keywords that count as literals.
-/

namespace StackLang

/-- The lexical categories. -/
inductive TokenKind where
  | identifier
  | keyword
  | integer
  | float
  | hexadecimal
  | binary
  | octal
  | char
  | string
  | operator
  | delimiter
  /-- A lexeme that belongs to no other category. -/
  | error
  deriving DecidableEq, Repr, Inhabited

namespace TokenKind

/-- The name of a kind in a token table. -/
def text : TokenKind → String
  | .identifier => "IDENTIFIER"
  | .keyword => "KEYWORD"
  | .integer => "INTEGER"
  | .float => "FLOAT"
  | .hexadecimal => "HEXADECIMAL"
  | .binary => "BINARY"
  | .octal => "OCTAL"
  | .char => "CHAR"
  | .string => "STRING"
  | .operator => "OPERATOR"
  | .delimiter => "DELIMITER"
  | .error => "ERROR"

/-- Every kind. -/
def all : List TokenKind :=
  [.identifier, .keyword, .integer, .float, .hexadecimal, .binary, .octal, .char, .string,
    .operator, .delimiter, .error]

/-- The kind with the given name. -/
def ofText? (name : String) : Option TokenKind := all.find? fun kind => kind.text == name

/-- The kinds whose tokens carry a value. -/
def isLiteral : TokenKind → Bool
  | .integer | .float | .hexadecimal | .binary | .octal | .char | .string => true
  | _ => false

theorem ofText?_text (kind : TokenKind) : ofText? kind.text = some kind := by
  cases kind <;> decide

end TokenKind

/-- A lexeme with its kind and the number of the line it stands on. -/
structure Token where
  value : String
  kind : TokenKind
  line : Nat
  deriving DecidableEq, Repr, Inhabited

namespace Token

/-- The kinds recognised by their spelling. -/
def isFixed (token : Token) : Bool :=
  match token.kind with
  | .keyword | .operator | .delimiter => true
  | _ => false

/-- Whether this is the keyword, operator or delimiter with the given spelling. -/
def spells (token : Token) (symbol : String) : Bool :=
  token.isFixed && token.value == symbol

/-- Whether the token denotes a value. -/
def isLiteral (token : Token) : Bool :=
  token.kind.isLiteral || token.spells "true" || token.spells "false"

/-- Whether the token is a name. -/
def isIdentifier (token : Token) : Bool := token.kind == .identifier

end Token

/-- The reserved words. -/
def keywords : List String :=
  ["int", "end", "if", "else", "while", "do", "for", "break", "continue", "class", "float",
    "true", "false", "string", "char", "void", "boolean", "return", "switch", "case", "default",
    "print", "println", "inputln"]

end StackLang
