import StackLang.Lexeme.Scan
import StackLang.Proofs.Completeness.Rendering
import StackLang.Proofs.Machine.Evaluation
import StackLang.Proofs.Termination.Expression

/-!
# Compiled expressions

`Expr.listing` is the postfix form of a tree with the numbers of its operations.  Reading
a rendering of the tree in front of the end of an expression leads to this listing
without an error, and running the listing evaluates the tree.
-/

namespace StackLang

open Terminal (Opens)

/-- The numbers of the operations that are carried out behind both operands.  An inclusive
comparison is the opposite strict one and a negation. -/
def BinaryOperator.numbers : BinaryOperator → List Nat
  | .or => [8]
  | .and => [9]
  | .greater => [11]
  | .less => [12]
  | .greaterEqual => [12, 10]
  | .lessEqual => [11, 10]
  | .equal => [15]
  | .notEqual => [16]
  | .add => [2]
  | .sub => [3]
  | .mul => [4]
  | .div => [5]

/-- Carry out the operation with a number. -/
def Instruction.numbered (number : Nat) : Instruction := ⟨.opr, toString number, "0"⟩

theorem BinaryOperator.numbered (operator : BinaryOperator) :
    operator.numbers.map Instruction.numbered = operator.operations.map .operate := by
  cases operator <;> rfl

/-- The postfix form of a tree.  A call is a literal, the default of the type that the method
returns, and its arguments leave nothing. -/
def Expr.listing (methods : MethodTable) : Expr → List Instruction
  | .missing => []
  | .literal token => [⟨.lit, token.literalText, "0"⟩]
  | .name token => [⟨.lod, token.value, "0"⟩]
  | .call callee _ =>
      match methods.get? callee.value with
      | none => [⟨.lit, "0", "0"⟩]
      | some method =>
          [⟨.lit, if method.returnType = .void then "0" else method.returnType.defaultText, "0"⟩]
  | .negate _ operand => ⟨.lit, "0", "0"⟩ :: (operand.listing methods ++ [.numbered 3])
  | .invert _ operand => operand.listing methods ++ [.numbered 10]
  | .binary operator _ left right =>
      left.listing methods ++ (right.listing methods ++ operator.numbers.map .numbered)

theorem Expr.code_eq_listing (methods : MethodTable) (tree : Expr) :
    tree.code methods = tree.listing methods := by
  cases tree with
  | missing | literal | name => rfl
  | call callee arguments =>
      rw [code, listing, MethodTable.callText]
      cases found : methods.get? callee.value with
      | none => rfl
      | some method =>
          cases returned : method.returnType <;> simp [returned, Instruction.literal]
  | negate line operand | invert line operand =>
      rw [code, listing, operand.code_eq_listing]
      rfl
  | binary operator line left right =>
      rw [code, listing, left.code_eq_listing, right.code_eq_listing, operator.numbered]

namespace Reading

/-- In front of a rendering of a tree, with a semicolon, a closing parenthesis, a comma or a
colon behind it, the reader of expressions finds the tree, steps over just the rendering and
reports nothing.  Its code is the postfix listing of the tree, and wherever the listing stands
in a program, whatever is on the stack and in the variables, running it pushes the value of
the tree and changes nothing else, or stops with the fault of the tree. -/
theorem rendering_compiles (methods : MethodTable) {tree : Expr} {tokens rest : List Token}
    (renders : tree.Renders 0 tokens)
    (follows : Opens (Nonterminal.words [";", ")", ",", ":"]) rest)
    (before : Cursor) (position : before.rest = tokens ++ rest) :
    ∃ after, expression.run before = (tree, after) ∧ after.rest = rest ∧
      after.errors = before.errors ∧ (Marked before → after.stuck = before.stuck) ∧
      tree.code methods = tree.listing methods ∧
      ∀ (program : Array Instruction) (state : MachineState),
        StandsAt program state.position (tree.listing methods) →
        MachineState.Arrives program state (tree.listing methods).length state.stack
          (tree.eval methods state.environment) := by
  obtain ⟨found, unread, errors⟩ :=
    expression_restores tree tokens rest (Nat.le_refl _) renders follows before position
  have code := tree.code_eq_listing methods
  refine ⟨(expression.run before).2, Prod.ext found rfl, unread, errors, ?_, code, ?_⟩
  · exact (expression_ends before).stuck
  · intro program state stands
    rw [← code] at stands ⊢
    exact tree.arrives methods not_false renders.meets state stands

/-- An inclusive comparison of a negated group with a call. -/
theorem rendering_compiles_comparison :
    let methods := MethodTable.empty.declare ⟨.float, "rate", []⟩
    let tokens := tokenize "-(x) >= rate(2, y)"
    let semicolon : Token := ⟨";", .delimiter, 1⟩
    ∃ tree after, tree.Renders 0 tokens ∧
      Opens (Nonterminal.words [";", ")", ",", ":"]) [semicolon] ∧
      expression.run (Cursor.initial (tokens ++ [semicolon])) = (tree, after) ∧
      after.rest = [semicolon] ∧ after.errors = #[] ∧ after.stuck = false ∧
      tree.code methods = [⟨.lit, "0", "0"⟩, ⟨.lod, "x", "0"⟩, ⟨.opr, "3", "0"⟩,
        ⟨.lit, "0.0", "0"⟩, ⟨.opr, "12", "0"⟩, ⟨.opr, "10", "0"⟩] := by
  intro methods tokens semicolon
  let x : Token := ⟨"x", .identifier, 1⟩
  let rate : Token := ⟨"rate", .identifier, 1⟩
  let two : Token := ⟨"2", .integer, 1⟩
  let y : Token := ⟨"y", .identifier, 1⟩
  let minus : Token := ⟨"-", .operator, 1⟩
  let atLeast : Token := ⟨">=", .operator, 1⟩
  let comma : Token := ⟨",", .delimiter, 1⟩
  let opening : Token := ⟨"(", .delimiter, 1⟩
  let closing : Token := ⟨")", .delimiter, 1⟩
  have group : Expr.Renders 7 (.name x) (opening :: ([x] ++ [closing])) :=
    .group rfl (.name rfl) rfl
  have left : Expr.Renders 4 (.negate 1 (.name x)) (minus :: opening :: ([x] ++ [closing])) :=
    @Expr.Renders.negate 4 _ minus _ (by decide) rfl group
  have given : ∀ argument ∈ [(Expr.literal two, [two]), (Expr.name y, [y])],
      Expr.Renders 0 argument.1 argument.2 :=
    List.forall_mem_cons.mpr ⟨.literal rfl, List.forall_mem_singleton.mpr (.name rfl)⟩
  have listed : BetweenCommas [[two], [y]] ([two] ++ comma :: ([y] ++ [])) := .cons (.cons rfl .nil)
  have right : Expr.Renders 4 (.call rate [.literal two, .name y])
      (rate :: opening :: ([two] ++ comma :: ([y] ++ []) ++ [closing])) :=
    .call rfl rfl given listed rfl
  have whole := @Expr.Renders.binary 0 .greaterEqual _ _ atLeast _ _ (by decide) left rfl right
  have spelled : tokens = minus :: opening :: ([x] ++ [closing]) ++
      atLeast :: rate :: opening :: ([two] ++ comma :: ([y] ++ []) ++ [closing]) := by
    decide +kernel
  have renders : Expr.Renders 0 _ tokens := spelled ▸ whole
  have opens : Opens (Nonterminal.words [";", ")", ",", ":"]) [semicolon] :=
    Expr.opens_of_mem List.mem_cons_self (by decide)
  obtain ⟨after, reads, rest, errors, stuck, _⟩ :=
    rendering_compiles methods renders opens (Cursor.initial (tokens ++ [semicolon])) rfl
  have marked : Marked (Cursor.initial (tokens ++ [semicolon])) := by
    unfold Marked
    decide +kernel
  exact ⟨_, after, renders, opens, reads, rest, errors, stuck marked, by decide +kernel⟩

end Reading

end StackLang
