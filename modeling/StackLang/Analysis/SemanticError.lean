import StackLang.Typing.Basic

/-!
# Semantic errors

What is wrong with a program beyond its grammar.  Every error names the line it
is found on; none of them keeps code from being generated.
-/

namespace StackLang

/-- The causes of a semantic error. -/
inductive SemanticError where
  | alreadyDeclared (name scope : String) (line : Nat)
  | undeclared (name : String) (line : Nat)
  | incompatibleTypes (left right : TypeName) (operator : Operator) (line : Nat)
  | nonBooleanCondition (context : String) (found : TypeName) (line : Nat)
  | methodAlreadyDeclared (name : String) (line : Nat)
  | methodUndeclared (name : String) (line : Nat)
  | arityMismatch (name : String) (expected found : Nat) (line : Nat)
  /-- The index counts parameters from one. -/
  | argumentMismatch (name : String) (index : Nat) (expected found : TypeName) (line : Nat)
  | voidReturnsValue (line : Nat)
  | missingReturnValue (expected : TypeName) (line : Nat)
  | returnMismatch (expected found : TypeName) (line : Nat)
  | integerOutOfRange (value : String) (line : Nat)
  | breakOutsideLoop (line : Nat)
  deriving DecidableEq, Repr

/-- The wording of a semantic error. -/
def SemanticError.message : SemanticError → String
  | .alreadyDeclared name scope line =>
      s!"Variable '{name}' is already declared in scope '{scope}' at line {line}"
  | .undeclared name line => s!"Variable '{name}' is not declared at line {line}"
  | .incompatibleTypes left right operator line =>
      s!"Incompatible types '{left.text}' and '{right.text}' for operator " ++
        s!"'{operator.symbol}' at line {line}"
  | .nonBooleanCondition context found line =>
      s!"{context} condition must be boolean, found '{found.text}' at line {line}"
  | .methodAlreadyDeclared name line => s!"Method '{name}' is already declared at line {line}"
  | .methodUndeclared name line => s!"Method '{name}' is not declared at line {line}"
  | .arityMismatch name expected found line =>
      s!"Method '{name}' expects {expected} parameters but got {found} at line {line}"
  | .argumentMismatch name index expected found line =>
      s!"Parameter {index} of method '{name}' expects '{expected.text}' but got " ++
        s!"'{found.text}' at line {line}"
  | .voidReturnsValue line => s!"Void method cannot return a value at line {line}"
  | .missingReturnValue expected line =>
      s!"Method must return a value of type '{expected.text}' at line {line}"
  | .returnMismatch expected found line =>
      s!"Return type mismatch: expected '{expected.text}' but found '{found.text}' at line {line}"
  | .integerOutOfRange value line =>
      s!"Integer literal '{value}' does not fit in 64 bits at line {line}"
  | .breakOutsideLoop line => s!"'break' outside of a loop or switch at line {line}"

end StackLang
