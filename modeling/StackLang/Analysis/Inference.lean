import StackLang.Analysis.Analyzer
import StackLang.Code.Literal
import StackLang.Grammar.Tree

/-!
# Types of expressions

`Analyzer.typeOf?` infers the type of an expression without recording anything;
an unknown operand or an invalid combination makes the type unknown.
`Expr.check` infers the same type and records every error on the way, operands
before operators and arguments before calls.
-/

namespace StackLang

/-- The type of an expression, if all its parts are known and go together.  The
arguments of a call are not looked at. -/
def Analyzer.typeOf? (analyzer : Analyzer) : Expr → Option TypeName
  | .missing => none
  | .literal token => token.literalType?
  | .name token => analyzer.lookup? token.value
  | .call callee _ => (analyzer.method? callee.value).map Signature.returnType
  | .negate _ operand => do Operator.sub.result? .int (← analyzer.typeOf? operand)
  | .invert _ operand => do
      let type ← analyzer.typeOf? operand
      Operator.not.result? type type
  | .binary operator _ left right => do
      operator.checkedAs.result? (← analyzer.typeOf? left) (← analyzer.typeOf? right)

namespace Analysis

/-- The type of an operation, which is checked only if both operands are known. -/
def combine (operator : Operator) (line : Nat) (left? right? : Option TypeName) :
    Analysis (Option TypeName) :=
  match left?, right? with
  | some left, some right => checkOperation left right operator line
  | _, _ => return none

end Analysis

open Analysis in
mutual

/-- Check an expression and infer its type. -/
def Expr.check : Expr → Analysis (Option TypeName)
  | .missing => return none
  | .literal token => do
      if token.isOutOfRange then report (.integerOutOfRange token.value token.line)
      return token.literalType?
  | .name token => useVariable token.value token.line
  | .call callee arguments => do
      let types ← Expr.checkAll arguments
      checkCall callee.value types callee.line
  | .negate line operand => do
      let type? ← operand.check
      combine .sub line (some .int) type?
  | .invert line operand => do
      let type? ← operand.check
      combine .not line type? type?
  | .binary operator line left right => do
      let left? ← left.check
      let right? ← right.check
      combine operator.checkedAs line left? right?

/-- Check expressions one after another. -/
def Expr.checkAll : List Expr → Analysis (List (Option TypeName))
  | [] => return []
  | expression :: rest => do
      let type? ← expression.check
      let types ← Expr.checkAll rest
      return type? :: types

end

end StackLang
