/-!
# Types and operators

The type names of the language with the value that a fresh variable has, and
the operators that are checked against operand types.
-/

namespace StackLang

/-- The types that a declaration can name. -/
inductive TypeName where
  | int
  | float
  | char
  | string
  | boolean
  | void
  deriving DecidableEq, Repr, Inhabited

namespace TypeName

/-- The keyword of a type. -/
def text : TypeName → String
  | .int => "int"
  | .float => "float"
  | .char => "char"
  | .string => "string"
  | .boolean => "boolean"
  | .void => "void"

/-- Every type, in the order of the compatibility table. -/
def all : List TypeName := [.int, .float, .char, .string, .boolean, .void]

/-- The type that a keyword names. -/
def ofText? (keyword : String) : Option TypeName := all.find? fun type => type.text == keyword

/-- The initial value of a variable, spelled as a literal. -/
def defaultText : TypeName → String
  | .int => "0"
  | .float => "0.0"
  | .char => "''"
  | .string => "\"\""
  | .boolean => "false"
  | .void => ""

theorem ofText?_text (type : TypeName) : ofText? type.text = some type := by
  cases type <;> decide

end TypeName

/-- The operators whose operands are checked.  Assignment is one of them; the
inclusive comparisons are not, they are checked as the strict ones. -/
inductive Operator where
  | add
  | sub
  | mul
  | div
  | and
  | or
  | not
  | greater
  | less
  | equal
  | notEqual
  | assign
  deriving DecidableEq, Repr, Inhabited

namespace Operator

/-- The spelling of an operator. -/
def symbol : Operator → String
  | .add => "+"
  | .sub => "-"
  | .mul => "*"
  | .div => "/"
  | .and => "&&"
  | .or => "||"
  | .not => "!"
  | .greater => ">"
  | .less => "<"
  | .equal => "=="
  | .notEqual => "!="
  | .assign => "="

/-- Every operator. -/
def all : List Operator :=
  [.add, .sub, .mul, .div, .and, .or, .not, .greater, .less, .equal, .notEqual, .assign]

/-- The operator with the given spelling. -/
def ofSymbol? (symbol : String) : Option Operator :=
  all.find? fun operator => operator.symbol == symbol

theorem ofSymbol?_symbol (operator : Operator) : ofSymbol? operator.symbol = some operator := by
  cases operator <;> decide

end Operator

end StackLang
