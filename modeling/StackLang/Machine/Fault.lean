import StackLang.Code.Operation

/-!
# Faults and load errors

`Fault` lists what stops a running program, `LoadError` what keeps a bytecode
text from being loaded.
-/

namespace StackLang

/-- The causes that stop a running program. -/
inductive Fault where
  /-- The number of the instruction that found the stack empty, from one. -/
  | stackUnderflow (instruction : Nat)
  | undefinedVariable (name : String)
  | malformedOperand (text : String)
  | divisionByZero
  /-- The names of the operand types around the operation. -/
  | invalidOperation (left : String) (operation : Operation) (right : String)
  | unknownOperation (code : Int)
  | invalidJump (target : Int)
  | stepLimit (limit : Nat)
  deriving DecidableEq, Repr

/-- The sign of an arithmetic operation. -/
def Operation.sign : Operation → String
  | .add => "+"
  | .sub => "-"
  | .mul => "*"
  | .div => "/"
  | _ => "?"

/-- The wording of a fault. -/
def Fault.message : Fault → String
  | .stackUnderflow number => s!"Stack underflow at instruction {number}"
  | .undefinedVariable name => s!"Variable '{name}' is not defined"
  | .malformedOperand text => s!"Malformed operand '{text}'"
  | .divisionByZero => "Division by zero"
  | .invalidOperation left operation right =>
      s!"Invalid operation: {left} {operation.sign} {right}"
  | .unknownOperation code => s!"Unknown operation {code}"
  | .invalidJump target => s!"Jump target {target} is out of range"
  | .stepLimit limit => s!"Step limit of {limit} instructions exceeded"

/-- The causes that keep a text from being loaded; lines are counted from one. -/
inductive LoadError where
  | malformedDeclaration (line : Nat) (text : String)
  | malformedInstruction (line : Nat) (text : String)
  | missingSeparator
  deriving DecidableEq, Repr

/-- The wording of a load error. -/
def LoadError.message : LoadError → String
  | .malformedDeclaration line text => s!"line {line}: malformed declaration '{text}'"
  | .malformedInstruction line text => s!"line {line}: malformed instruction '{text}'"
  | .missingSeparator => "missing '@' separator between declarations and instructions"

end StackLang
