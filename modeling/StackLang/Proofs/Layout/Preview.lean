import StackLang.Proofs.Layout.Erasure

/-!
# Previews without lines

A preview of tokens without lines is the preview of the tokens, without its lines, and
it is given up for the same reason.
-/

namespace StackLang

namespace Preview

variable {α β : Type}

/-- On tokens without lines, `other` previews what `one` previews, up to lines. -/
def Unlines (erase : α → α) (one other : Preview α) : Prop :=
  ∀ tokens : List Token,
    other.run (tokens.map Token.unlined) =
      (one.run tokens).map (Prod.map erase (List.map Token.unlined))

namespace Unlines

variable {erase : α → α} {finish : β → β} {one other : Preview α}

theorem pure {result counterpart : α} (alike : counterpart = erase result) :
    Unlines erase (Pure.pure result) (Pure.pure counterpart) := by
  subst alike
  exact fun _ => rfl

theorem throw (stop : Stop) : Unlines erase (MonadExcept.throw stop) (MonadExcept.throw stop) :=
  fun _ => rfl

theorem bind {next following : α → Preview β} (first : Unlines erase one other)
    (second : ∀ result, Unlines finish (next result) (following (erase result))) :
    Unlines finish (one >>= next) (other >>= following) := by
  intro tokens
  rw [StateT.run_bind, StateT.run_bind, first tokens]
  cases one.run tokens with
  | error stop => rfl
  | ok pair => exact second pair.1 pair.2

theorem get {next following : List Token → Preview β}
    (rest : ∀ tokens, Unlines finish (next tokens) (following (tokens.map Token.unlined))) :
    Unlines finish (do next (← MonadState.get)) (do following (← MonadState.get)) :=
  fun tokens => rest tokens tokens

theorem set {next following : Preview β} (rest : List Token)
    (then_ : Unlines finish next following) :
    Unlines finish (do MonadState.set rest; next)
      (do MonadState.set (rest.map Token.unlined); following) :=
  fun _ => then_ rest

theorem ite {condition : Prop} [Decidable condition] {two second : Preview α}
    (holds : Unlines erase one other) (fails : Unlines erase two second) :
    Unlines erase (if condition then one else two) (if condition then other else second) := by
  split
  · exact holds
  · exact fails

end Unlines

open Unlines

theorem eat?_unlines (symbols : List BinaryOperator) :
    Unlines (Option.map (Prod.map id fun _ => 0)) (eat? symbols) (eat? symbols) := by
  refine .get fun tokens => ?_
  cases tokens with
  | nil => exact .pure rfl
  | cons token rest =>
      rw [List.map_cons]
      simp only [Token.unlined_spells]
      cases symbols.find? fun operator => token.spells operator.symbol with
      | none => exact .pure rfl
      | some operator => exact .set rest (.pure rfl)

theorem symbol?_unlines (symbol : String) :
    Unlines (Option.map fun _ => 0) (symbol? symbol) (symbol? symbol) := by
  refine .get fun tokens => ?_
  cases tokens with
  | nil => exact .pure rfl
  | cons token rest => exact .ite (.set rest (.pure rfl)) (.pure rfl)

theorem afterArguments_unlined (depth : Nat) (tokens : List Token) :
    afterArguments depth (tokens.map Token.unlined) =
      (afterArguments depth tokens).map Token.unlined := by
  induction tokens generalizing depth with
  | nil => rfl
  | cons token rest ih =>
      simp only [List.map_cons, afterArguments, Token.unlined_spells, ih]
      split
      · rfl
      · split
        · split
          · rfl
          · rfl
        · rfl

variable {operand nested : Preview Expr}

theorem chainFor_unlines (operators : List BinaryOperator)
    (operands : Unlines Expr.unlined operand operand) (bound : Nat) (left : Expr) :
    Unlines Expr.unlined (chainFor operators operand bound left)
      (chainFor operators operand bound left.unlined) := by
  induction bound generalizing left with
  | zero => exact .throw _
  | succ bound ih =>
      refine (eat?_unlines operators).bind fun eaten => ?_
      cases eaten with
      | none => exact .pure rfl
      | some found =>
          refine operands.bind fun right => ?_
          have erased : (Expr.binary found.1 found.2 left right).unlined =
              .binary found.1 0 left.unlined right.unlined := by rw [Expr.unlined]
          have rest := ih (.binary found.1 found.2 left right)
          rw [erased] at rest
          exact rest

theorem chain_unlines (operators : List BinaryOperator)
    (operands : Unlines Expr.unlined operand operand) :
    Unlines Expr.unlined (chain operators operand) (chain operators operand) := by
  refine .get fun tokens => ?_
  rw [List.length_map]
  exact operands.bind fun left => chainFor_unlines operators operands _ left

theorem primary_unlines (inner : Unlines Expr.unlined nested nested) :
    Unlines Expr.unlined (primary nested) (primary nested) := by
  refine (symbol?_unlines "(").bind fun opened => ?_
  rw [Option.isSome_map]
  refine .ite (inner.bind fun inside => ?_) (.get fun tokens => ?_)
  · refine (symbol?_unlines ")").bind fun closed => ?_
    rw [Option.isSome_map]
    exact .ite (.pure rfl) (.throw _)
  · cases tokens with
    | nil => exact .throw _
    | cons token rest =>
        refine .ite ?_ (.ite (.set rest (.pure ?_)) (.throw _))
        · have calls : ((rest.map Token.unlined).head?.any fun next => next.spells "(") =
              rest.head?.any fun next => next.spells "(" := by
            cases rest with
            | nil => rfl
            | cons next tail => rfl
          rw [calls, afterArguments_unlined]
          refine .ite (.set _ (.pure ?_)) (.set rest (.pure ?_))
          · rw [Expr.unlined, List.map_nil]
          · rw [Expr.unlined]
        · rw [Expr.unlined]

theorem negation_unlines (inner : Unlines Expr.unlined nested nested) :
    Unlines Expr.unlined (negation nested) (negation nested) := by
  refine (symbol?_unlines "-").bind fun marked => ?_
  cases marked with
  | none => exact primary_unlines inner
  | some line => exact (primary_unlines inner).bind fun operand => .pure (by rw [Expr.unlined])

theorem product_unlines (inner : Unlines Expr.unlined nested nested) :
    Unlines Expr.unlined (product nested) (product nested) :=
  chain_unlines _ (negation_unlines inner)

theorem sum_unlines (inner : Unlines Expr.unlined nested nested) :
    Unlines Expr.unlined (sum nested) (sum nested) :=
  chain_unlines _ (product_unlines inner)

theorem relation_unlines (inner : Unlines Expr.unlined nested nested) :
    Unlines Expr.unlined (relation nested) (relation nested) := by
  refine (sum_unlines inner).bind fun left => (eat?_unlines _).bind fun eaten => ?_
  cases eaten with
  | none => exact .pure rfl
  | some found => exact (sum_unlines inner).bind fun right => .pure (by rw [Expr.unlined]; rfl)

theorem inversion_unlines (inner : Unlines Expr.unlined nested nested) (bound : Nat) :
    Unlines Expr.unlined (inversion nested bound) (inversion nested bound) := by
  induction bound with
  | zero => exact .throw _
  | succ bound ih =>
      refine (symbol?_unlines "!").bind fun marked => ?_
      cases marked with
      | none => exact relation_unlines inner
      | some line => exact ih.bind fun operand => .pure (by rw [Expr.unlined])

theorem conjunction_unlines (inner : Unlines Expr.unlined nested nested) :
    Unlines Expr.unlined (conjunction nested) (conjunction nested) := by
  refine chain_unlines _ (.get fun tokens => ?_)
  rw [List.length_map]
  exact inversion_unlines inner _

theorem expression_unlines (depth : Nat) :
    Unlines Expr.unlined (expression depth) (expression depth) := by
  induction depth with
  | zero => exact .throw _
  | succ depth ih => exact chain_unlines _ (conjunction_unlines ih)

end Preview

theorem Expr.previewed_unlined (tokens : List Token) :
    Expr.previewed (tokens.map Token.unlined) = (Expr.previewed tokens).map Expr.unlined := by
  rw [Expr.previewed, Expr.previewed, List.length_map, Preview.expression_unlines]
  cases (Preview.expression (tokens.length + 1)).run tokens with
  | error stop => rfl
  | ok pair => rfl

end StackLang
