import StackLang.Grammar.Preview
import StackLang.Grammar.Reading

/-!
# Reading expressions

One reader for each level of precedence, the loosest last.  Every level takes
the reader of nested expressions as a parameter; `Reading.expressionFor` ties the
knot for a bounded depth of parentheses, and no expression is nested deeper than
it has tokens.
-/

namespace StackLang.Reading

/-- The operator among the given ones that is next. -/
def seesOperator (operators : List BinaryOperator) : Reading (Option BinaryOperator) := do
  let next ← peek
  return operators.find? fun operator => next.any fun token => token.spells operator.symbol

/-- Read a level of the grammar, unless it cannot start here. -/
def level (nonterminal : Nonterminal) (complaint : Complaint) (body : Reading Expr) :
    Reading Expr :=
  rule nonterminal do
    if ← expect nonterminal complaint then body else return .missing

/-- Extend the left operand by the next operator of the level, if there is one,
and its right operand. -/
def extend? (operators : List BinaryOperator) (operand : Reading Expr) (left : Expr) :
    Reading (Option Expr) := do
  match ← seesOperator operators with
  | none => return none
  | some operator =>
      let line ← line
      skip
      log (.symbol operator.symbol)
      return some (.binary operator line left (← operand))

/-- Operands joined by operators of one level, grouped to the left. -/
def chain (operators : List BinaryOperator) (operand : Reading Expr) : Reading Expr := do
  refine (extend? operators operand) (← operand)

/-- Read a comma and the argument behind it, if there is a comma. -/
def nextArgument? (expression : Reading Expr) : Reading (Option Expr) := do
  if !(← accept ",") then return none
  if ← seesStart .expression then return some (← expression)
  abandon .argument fun next =>
    Terminal.anyAccepts [.word ",", .word ";"] next || Nonterminal.arguments.endsBefore next
  return some .missing

/-- Read the arguments of a call, without the parentheses. -/
def arguments (expression : Reading Expr) : Reading (List Expr) :=
  rule .arguments do
    if ← sees ")" then return []
    if !(← expect .arguments .argumentStart) then return []
    let first ← expression
    return first :: (← collect (nextArgument? expression))

/-- Read a call; its name and the opening parenthesis are next. -/
def call (expression : Reading Expr) : Reading (Option (Token × List Expr)) :=
  rule .call do
    match ← identifier? with
    | none => return none
    | some callee =>
        let _ ← accept "("
        let arguments ← arguments expression
        demand ")" (abandon .callClose Nonterminal.call.endsBefore)
        return some (callee, arguments)

/-- Whether the token after the next one is spelled `symbol`. -/
def seesSecond (symbol : String) : Reading Bool :=
  return (← get).rest.tail.head?.any fun token => token.spells symbol

/-- Read an expression in parentheses; the opening one has been read. -/
def group (expression : Reading Expr) : Reading Expr := do
  let inner ← expression
  demand ")" (complain .groupClose)
  return inner

/-- Cut the mark of the radix off a literal; where it cannot be cut, reading gets stuck. -/
def cutMark (token : Token) : Reading Unit :=
  modify fun cursor => { cursor with stuck := cursor.stuck || !token.cutsMark }

/-- Read a name, a call, a literal or a group. -/
def primary (expression : Reading Expr) : Reading Expr :=
  level .primary .primaryStart do
    if ← accept "(" then group expression
    else if ← seesIdentifier then
      if ← seesSecond "(" then
        match ← call expression with
        | some (callee, arguments) => return .call callee arguments
        | none => return .missing
      else
        match ← identifier? with
        | some name => return .name name
        | none => return .missing
    else
      match ← take fun token => .literal token.value with
      | some token =>
          cutMark token
          return .literal token
      | none => return .missing

/-- Read an operand with an optional minus sign. -/
def negation (expression : Reading Expr) : Reading Expr :=
  level .negation .negationStart do
    let line ← line
    if ← accept "-" then return .negate line (← primary expression)
    primary expression

/-- Read the operands of a sum. -/
def product (expression : Reading Expr) : Reading Expr :=
  level .product .productStart (chain [.mul, .div] (negation expression))

/-- Read the operands of a comparison. -/
def sum (expression : Reading Expr) : Reading Expr :=
  level .sum .sumStart (chain [.add, .sub] (product expression))

/-- The comparison operators. -/
def comparisons : List BinaryOperator :=
  [.greater, .less, .greaterEqual, .lessEqual, .equal, .notEqual]

/-- Read at most one comparison. -/
def relation (expression : Reading Expr) : Reading Expr :=
  level .relation .relationStart do
    let left ← sum expression
    return (← extend? comparisons (sum expression) left).getD left

/-- Read a comparison behind at most `bound` exclamation marks. -/
def inversionFor (expression : Reading Expr) : Nat → Reading Expr
  | 0 => do
      getStuck
      return .missing
  | bound + 1 =>
      level .inversion .inversionStart do
        let line ← line
        if ← accept "!" then return .invert line (← inversionFor expression bound)
        relation expression

/-- Read a comparison behind exclamation marks. -/
def inversion (expression : Reading Expr) : Reading Expr := do
  inversionFor expression ((← get).rest.length + 1)

/-- Read the operands of a disjunction. -/
def conjunction (expression : Reading Expr) : Reading Expr :=
  level .conjunction .conjunctionStart (chain [.and] (inversion expression))

/-- Read an expression with at most `depth` levels of parentheses. -/
def expressionFor : Nat → Reading Expr
  | 0 => do
      getStuck
      return .missing
  | depth + 1 =>
      level .expression .expressionStart (chain [.or] (conjunction (expressionFor depth)))

/-- Read an expression. -/
def expression : Reading Expr := do expressionFor ((← get).rest.length + 1)

/-- Where a preview used up its bound, reading gets stuck. -/
def checkPreview (preview : Except Preview.Stop Expr) : Reading Unit :=
  modify fun cursor =>
    { cursor with stuck := cursor.stuck || preview matches .error .exhausted }

/-- Read an expression, with a preview of it. -/
def foreseen : Reading Foreseen := do
  let line ← line
  let preview := Expr.previewed (← get).rest
  checkPreview preview
  return ⟨line, preview.toOption, ← expression⟩

/-- Read an expression that must be next, with a preview of it; if none can start
here, repair that. -/
def demandForeseen (repair : Reading Unit) : Reading Foreseen := do
  if ← seesStart .expression then foreseen
  else
    repair
    return .missing

end StackLang.Reading
