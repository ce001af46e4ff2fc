import StackLang.Code.Operation
import StackLang.Symbol.Method
import StackLang.Token.Basic

/-!
# Syntax trees

The tree of a program with everything that checking and code generation need.
Reading never fails, so a tree may have gaps: `Expr.missing` stands for an
operand that could not be read and `Statement.skipped` for a statement without
any effect.  Parentheses leave no trace in a tree.
-/

namespace StackLang

/-- The operators between two operands. -/
inductive BinaryOperator where
  | or
  | and
  | greater
  | less
  | greaterEqual
  | lessEqual
  | equal
  | notEqual
  | add
  | sub
  | mul
  | div
  deriving DecidableEq, Repr

namespace BinaryOperator

/-- The spelling of an operator. -/
def symbol : BinaryOperator → String
  | .or => "||"
  | .and => "&&"
  | .greater => ">"
  | .less => "<"
  | .greaterEqual => ">="
  | .lessEqual => "<="
  | .equal => "=="
  | .notEqual => "!="
  | .add => "+"
  | .sub => "-"
  | .mul => "*"
  | .div => "/"

/-- The operator that operand types are checked for.  An inclusive comparison
is the opposite of a strict one and is checked as that one. -/
def checkedAs : BinaryOperator → Operator
  | .or => .or
  | .and => .and
  | .greater | .lessEqual => .greater
  | .less | .greaterEqual => .less
  | .equal => .equal
  | .notEqual => .notEqual
  | .add => .add
  | .sub => .sub
  | .mul => .mul
  | .div => .div

/-- The operations carried out after both operands. -/
def operations : BinaryOperator → List Operation
  | .or => [.or]
  | .and => [.and]
  | .greater => [.greater]
  | .less => [.less]
  | .greaterEqual => [.less, .not]
  | .lessEqual => [.greater, .not]
  | .equal => [.equal]
  | .notEqual => [.notEqual]
  | .add => [.add]
  | .sub => [.sub]
  | .mul => [.mul]
  | .div => [.div]

end BinaryOperator

/-- An expression; lines are those of the operators. -/
inductive Expr where
  | missing
  | literal (token : Token)
  | name (token : Token)
  | call (callee : Token) (arguments : List Expr)
  | negate (line : Nat) (operand : Expr)
  | invert (line : Nat) (operand : Expr)
  | binary (operator : BinaryOperator) (line : Nat) (left right : Expr)

/-- An expression whose type is foreseen before the expression itself is
checked.  The preview is what the tokens ahead read as without any recovery. -/
structure Foreseen where
  line : Nat
  preview : Option Expr
  value : Expr

namespace Foreseen

/-- The gap left where an expression should stand. -/
def missing : Foreseen := ⟨0, none, .missing⟩

end Foreseen

/-- The initial value of a variable.  The constant is the literal token that
makes up the whole initializer, if it is one. -/
structure Initializer where
  constant : Option Token
  value : Foreseen

/-- The declaration of a variable. -/
structure Declaration where
  type : TypeName
  name : Token
  initializer : Option Initializer

/-- What an assignment does with its target. -/
inductive AssignmentForm where
  /-- Nothing, because no value could be read. -/
  | unfinished
  /-- Add one to the target or subtract one from it. -/
  | step (operator : BinaryOperator)
  /-- Store a value, combined with the target if there is an operator. -/
  | store (operator : Option BinaryOperator) (value : Foreseen)

/-- An assignment to a variable. -/
structure Assignment where
  target : Token
  form : AssignmentForm

/-- What a return statement gives back. -/
inductive Returned where
  | nothing
  | value (given : Expr)
  /-- A value is missing that cannot be told from the tokens. -/
  | unknown

/-- What a loop header does first. -/
inductive LoopStart where
  | nothing
  | declare (declaration : Declaration)
  | assign (assignment : Assignment)

mutual

/-- A statement. -/
inductive Statement where
  | skipped
  | declare (declaration : Declaration)
  | assign (assignment : Assignment)
  | call (callee : Token) (arguments : List Expr)
  | print (endsLine : Bool) (value : Option Expr)
  | read (target : Token)
  | leave (line : Nat)
  | giveBack (line : Nat) (value : Returned)
  | evaluate (value : Expr)
  | block (body : List Statement)
  | whileLoop (condition : Foreseen) (body : Statement)
  | ifThen (condition : Foreseen) (yes : Statement)
  | ifElse (condition : Foreseen) (yes no : Statement)
  /-- The condition is none if the loop breaks off after its body. -/
  | doWhile (body : Statement) (condition : Option Foreseen)
  | forLoop (start : LoopStart) (condition : Option Foreseen) (step : Option Assignment)
      (body : Statement)
  /-- Switches are numbered in the order in which they are read. -/
  | switch (line number : Nat) (value : Foreseen) (clauses : List Clause)
  /-- A switch that breaks off before its clauses. -/
  | switchHead (line number : Nat) (value : Foreseen)

/-- A clause of a switch: without a test it is taken whenever it is reached. -/
inductive Clause where
  | clause (test : Option Foreseen) (body : List Statement)

end

/-- A method of a class. -/
structure Method where
  returnType : TypeName
  name : Token
  parameters : List (TypeName × Token)
  body : List Statement

/-- The signature of a method. -/
def Method.signature (method : Method) : Signature where
  returnType := method.returnType
  name := method.name.value
  parameters := method.parameters.map fun (type, name) => (type, name.value)

/-- A member of a class. -/
inductive Member where
  | field (declaration : Declaration)
  | method (declared : Method)
  | skipped

/-- A program. -/
inductive Program where
  | statements (body : List Statement)
  | members (all : List Member)

/-- The hidden variable that keeps the value of a switch. -/
def selectorName (number : Nat) : String := "switch." ++ toString number

end StackLang
