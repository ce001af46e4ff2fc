import StackLang.Typing.Basic

/-!
# Which operand types go together

`Operator.result?` is the type of `left operator right`, if the combination is
valid.  A negation `!e` is judged with the type of `e` on both sides, and an
assignment with the type of its target on the left.
-/

namespace StackLang

namespace TypeName

/-- The types of numbers. -/
def isNumeric : TypeName → Bool
  | .int | .float => true
  | _ => false

/-- The type of an arithmetic operation on two numbers. -/
def promoted? : TypeName → TypeName → Option TypeName
  | .int, .int => some .int
  | left, right => if left.isNumeric && right.isNumeric then some .float else none

/-- Whether two types are the same and have values. -/
def agree (left right : TypeName) : Bool := left == right && left != .void

end TypeName

/-- The type of an operation on operands of the given types. -/
def Operator.result? (operator : Operator) (left right : TypeName) : Option TypeName :=
  match operator with
  | .add =>
      if (left == .string && right != .void) || (right == .string && left != .void) then
        some .string
      else left.promoted? right
  | .sub | .mul | .div => left.promoted? right
  | .and | .or | .not =>
      if left == .boolean && right == .boolean then some .boolean else none
  | .greater | .less =>
      if left.isNumeric && right.isNumeric then some .boolean else none
  | .equal | .notEqual => if left.agree right then some .boolean else none
  | .assign =>
      if left == .float && right == .int then some .float
      else if left.agree right then some left
      else none

end StackLang
