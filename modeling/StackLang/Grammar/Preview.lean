import StackLang.Code.Literal
import StackLang.Grammar.Tree

/-!
# Previews

A preview reads an expression at the front of a token list without consuming,
recording or repairing anything: where the tokens do not fit it is given up.  The
arguments of a call are stepped over and not part of it.
-/

namespace StackLang

/-- Why a preview is given up. -/
inductive Preview.Stop where
  /-- The tokens do not fit. -/
  | mismatch
  /-- A loop or a nesting used up its bound. -/
  | exhausted
  deriving DecidableEq

/-- A computation that reads ahead and may give up. -/
abbrev Preview := StateT (List Token) (Except Preview.Stop)

namespace Preview

/-- Step over the next token if it is one of the symbols, and tell which one with
its line. -/
def eat? (symbols : List BinaryOperator) : Preview (Option (BinaryOperator × Nat)) := do
  match ← get with
  | [] => return none
  | token :: rest =>
      match symbols.find? fun operator => token.spells operator.symbol with
      | none => return none
      | some operator =>
          set rest
          return some (operator, token.line)

/-- Step over the next token if it is spelled `symbol`, and tell its line. -/
def symbol? (symbol : String) : Preview (Option Nat) := do
  match ← get with
  | [] => return none
  | token :: rest =>
      if token.spells symbol then
        set rest
        return some token.line
      else return none

/-- The tokens behind a balanced list of arguments that starts at the given depth
of parentheses. -/
def afterArguments : Nat → List Token → List Token
  | _, [] => []
  | depth, token :: rest =>
      if token.spells "(" then afterArguments (depth + 1) rest
      else if token.spells ")" then
        if depth ≤ 1 then rest else afterArguments (depth - 1) rest
      else afterArguments depth rest

/-- Extend an operand by at most `bound` operators of one level. -/
def chainFor (operators : List BinaryOperator) (operand : Preview Expr) :
    Nat → Expr → Preview Expr
  | 0, _ => throw .exhausted
  | bound + 1, left => do
      match ← eat? operators with
      | none => return left
      | some (operator, line) =>
          let right ← operand
          chainFor operators operand bound (.binary operator line left right)

/-- Operands joined by operators of one level, grouped to the left. -/
def chain (operators : List BinaryOperator) (operand : Preview Expr) : Preview Expr := do
  let bound := (← get).length + 1
  chainFor operators operand bound (← operand)

/-- A name, a call, a literal or a group. -/
def primary (nested : Preview Expr) : Preview Expr := do
  if (← symbol? "(").isSome then
    let inner ← nested
    if (← symbol? ")").isSome then return inner else throw .mismatch
  else
    match ← get with
    | [] => throw .mismatch
    | token :: rest =>
        if token.isIdentifier then
          if rest.head?.any fun next => next.spells "(" then
            set (afterArguments 0 rest)
            return .call token []
          else
            set rest
            return .name token
        else if token.literalType?.isSome then
          set rest
          return .literal token
        else throw .mismatch

/-- An operand with an optional minus sign. -/
def negation (nested : Preview Expr) : Preview Expr := do
  match ← symbol? "-" with
  | some line => return .negate line (← primary nested)
  | none => primary nested

/-- Operands of a sum. -/
def product (nested : Preview Expr) : Preview Expr := chain [.mul, .div] (negation nested)

/-- Operands of a comparison. -/
def sum (nested : Preview Expr) : Preview Expr := chain [.add, .sub] (product nested)

/-- At most one comparison. -/
def relation (nested : Preview Expr) : Preview Expr := do
  let left ← sum nested
  match ← eat? [.greater, .less, .greaterEqual, .lessEqual, .equal, .notEqual] with
  | none => return left
  | some (operator, line) => return .binary operator line left (← sum nested)

/-- A comparison behind at most `bound` exclamation marks. -/
def inversion (nested : Preview Expr) : Nat → Preview Expr
  | 0 => throw .exhausted
  | bound + 1 => do
      match ← symbol? "!" with
      | some line => return .invert line (← inversion nested bound)
      | none => relation nested

/-- Operands of a disjunction. -/
def conjunction (nested : Preview Expr) : Preview Expr :=
  chain [.and] do inversion nested ((← get).length + 1)

/-- An expression with at most `depth` levels of parentheses. -/
def expression : Nat → Preview Expr
  | 0 => throw .exhausted
  | depth + 1 => chain [.or] (conjunction (expression depth))

end Preview

/-- The expression that the tokens start with, or why its preview was given up. -/
def Expr.previewed (tokens : List Token) : Except Preview.Stop Expr :=
  ((Preview.expression (tokens.length + 1)).run tokens).map Prod.fst

/-- The expression that the tokens start with, if they fit without repair. -/
def Expr.preview? (tokens : List Token) : Option Expr := (Expr.previewed tokens).toOption

end StackLang
