import StackLang.Proofs.Code.Placement
import StackLang.Proofs.Grammar.TreeStandard
import StackLang.Proofs.Machine.Instructions

/-!
# Simulation of expressions

The code of an expression pushes the value of the expression and leaves the rest
of the stack alone, or it stops with the fault that the expression has.
-/

namespace StackLang

/-- A tree without gaps whose names are not those of labels. -/
def TreeStandard.solid : TreeStandard where
  gaps := False
  name token := Plain token.value
  literal _ := True
  foreseen _ := True

theorem Value.ofLiteral_zero : Value.ofLiteral "0" = .int 0 := rfl

namespace Setup

variable {setup : Setup} {position next : Nat} {store : Store} {stack : List Value}
  {state : MachineState}

variable (setup) in
/-- Instructions stand in the program from an index on. -/
def Code (position : Nat) (code : List Instruction) : Prop :=
  Listing.PlacedAt setup.program setup.labels position (.ofInstructions code)

theorem code_append {first second : List Instruction} :
    setup.Code position (first ++ second) ↔
      setup.Code position first ∧ setup.Code (position + first.length) second := by
  have length := Listing.size_ofInstructions first
  rw [Code, Listing.ofInstructions, List.map_append, Listing.placedAt_append]
  rw [Listing.ofInstructions] at length
  rw [length]
  rfl

theorem code_cons {command : Instruction} {rest : List Instruction} :
    setup.Code position (command :: rest) ↔
      setup.program[position]? = some command ∧ setup.Code (position + 1) rest := Iff.rfl

theorem Reaches.computed {value? : Except Fault Value} {others : List Value}
    {function : Value → Except Fault Value}
    (front : setup.Reaches 0 state (setup.Computed position store stack value?))
    (back : ∀ value reached, setup.Stacked position store (value :: stack) reached →
      setup.Reaches 0 reached (setup.Computed next store others (function value))) :
    setup.Reaches 0 state (setup.Computed next store others (value? >>= function)) := by
  cases value? with
  | ok value => exact front.bind (back value)
  | error fault => exact front

theorem Stacked.operator {left right : Value} (operator : BinaryOperator)
    (code : setup.Code position (operator.operations.map .operate))
    (stacked : setup.Stacked position store (right :: left :: stack) state) :
    setup.Reaches 0 state (setup.Computed (position + operator.operations.length) store stack
      (operator.apply left right)) := by
  cases operator with
  | greaterEqual | lessEqual =>
      apply Reaches.computed (stacked.pair code.1 fun _ => rfl)
      intro value reached pushed
      exact pushed.invert code.2.1
  | _ => exact stacked.pair code.1 fun _ => rfl

end Setup

open Setup in
/-- The code of an expression computes its value. -/
theorem Expr.simulates {setup : Setup} {store : Store} (methods : MethodTable) (expression : Expr)
    (solid : expression.Meets .solid) (position : Nat) (stack : List Value) (state : MachineState)
    (code : setup.Code position (expression.code methods))
    (stacked : setup.Stacked position store stack state) :
    setup.Reaches 0 state (setup.Computed (position + (expression.code methods).length) store stack
      (expression.eval methods store.environment)) := by
  cases expression with
  | missing => exact solid.elim
  | literal token => exact stacked.literal code.1
  | name token => exact stacked.load solid code.1
  | call callee arguments => exact stacked.literal code.1
  | negate line operand =>
      rw [Expr.code, code_cons, code_append] at code
      obtain ⟨zero, inside, subtract⟩ := code
      have finish : position + ((Expr.negate line operand).code methods).length =
          position + 1 + (operand.code methods).length + 1 := by
        simp only [Expr.code, List.length_cons, List.length_append, List.length_nil]
        omega
      rw [finish, Expr.eval]
      apply (stacked.literal zero).follow
      intro reached pushed
      rw [Value.ofLiteral_zero] at pushed
      apply (operand.simulates methods solid _ _ reached inside pushed).computed
      intro value later both
      exact both.pair subtract.1 fun _ => rfl
  | invert line operand =>
      rw [Expr.code, code_append] at code
      obtain ⟨inside, invert⟩ := code
      have computed := operand.simulates methods solid position stack state inside stacked
      rw [Expr.eval, Expr.code, List.length_append, ← Nat.add_assoc]
      apply computed.computed
      intro value reached pushed
      exact pushed.invert invert.1
  | binary operator line left right =>
      rw [Expr.code, code_append, code_append] at code
      obtain ⟨first, second, operate⟩ := code
      have computed := left.simulates methods solid.1 position stack state first stacked
      rw [Expr.eval, Expr.code, List.length_append, List.length_append, List.length_map,
        ← Nat.add_assoc, ← Nat.add_assoc]
      apply computed.computed
      intro leftValue reached pushed
      apply (right.simulates methods solid.2 _ _ reached second pushed).computed
      intro rightValue later both
      exact both.operator operator operate

end StackLang
