import StackLang.Proofs.Grammar.TreeStandard
import StackLang.Proofs.Machine.Instructions

/-!
# Expressions on the machine

The code of an expression does the same wherever it stands and whatever is on the stack:
it pushes the value of the expression and changes nothing else, or it stops with the
fault that the expression has.  `MachineState.Arrives` says this of a run over a number
of instructions, and runs are put together as values are.
-/

namespace StackLang

/-- The instructions stand in the program from an index on. -/
def StandsAt (program : Array Instruction) (position : Nat) (code : List Instruction) : Prop :=
  ∀ index < code.length, program[position + index]? = code[index]?

theorem standsAt_cons {program : Array Instruction} {position : Nat} {command : Instruction}
    {code : List Instruction} (stands : StandsAt program position (command :: code)) :
    program[position]? = some command ∧ StandsAt program (position + 1) code := by
  constructor
  · exact stands 0 (by simp)
  · intro index inside
    have there := stands (index + 1) (by simpa using inside)
    rwa [← Nat.add_assoc, Nat.add_right_comm] at there

theorem standsAt_append {program : Array Instruction} {position : Nat}
    {front back : List Instruction} (stands : StandsAt program position (front ++ back)) :
    StandsAt program position front ∧ StandsAt program (position + front.length) back := by
  constructor
  · intro index inside
    have there := stands index (by rw [List.length_append]; omega)
    rwa [List.getElem?_append_left inside] at there
  · intro index inside
    have there := stands (front.length + index) (by rw [List.length_append]; omega)
    rwa [List.getElem?_append_right (Nat.le_add_right _ _), Nat.add_sub_cancel_left,
      ← Nat.add_assoc] at there

namespace MachineState

variable {program : Array Instruction} {state : MachineState} {count more : Nat}
  {base others : List Value} {value? : Except Fault Value}

/-- A run from the state goes on behind `count` instructions with a value pushed onto
`base`, and nothing else but the console is different; or it has stopped with a fault. -/
def Arrives (program : Array Instruction) (state : MachineState) (count : Nat)
    (base : List Value) : Except Fault Value → Prop
  | .ok value => ∃ console, ∀ budget,
      runFor program (count + budget) state = runFor program budget
        { state with
          stack := value :: base, position := state.position + count, console := console }
  | .error fault => ∃ last : MachineState, last.environment = state.environment ∧
      ∀ budget, runFor program (count + budget) state = (last, .faulted fault)

theorem Arrives.bind {function : Value → Except Fault Value}
    (front : Arrives program state count base value?)
    (back : ∀ value console, Arrives program
      { state with stack := value :: base, position := state.position + count, console := console }
      more others (function value)) :
    Arrives program state (count + more) others (value? >>= function) := by
  cases value? with
  | error fault =>
      obtain ⟨last, same, stops⟩ := front
      refine ⟨last, same, fun budget => ?_⟩
      rw [Nat.add_assoc, stops]
  | ok value =>
      obtain ⟨console, goesOn⟩ := front
      have later := back value console
      change Arrives program state (count + more) others (function value)
      cases result : function value with
      | error fault =>
          rw [result] at later
          obtain ⟨last, same, stops⟩ := later
          refine ⟨last, same, fun budget => ?_⟩
          rw [Nat.add_assoc, goesOn, stops]
      | ok other =>
          rw [result] at later
          obtain ⟨console, goesFurther⟩ := later
          refine ⟨console, fun budget => ?_⟩
          rw [Nat.add_assoc, goesOn, goesFurther, Nat.add_assoc]

/-- One instruction that computes a value. -/
theorem arrives_of_execute {command : Instruction}
    (here : program[state.position]? = some command)
    (executed : (state.log (.executing command)).execute program.size command =
      value?.map fun value => (Flow.next, { state.log (.executing command) with
        stack := value :: base })) :
    Arrives program state 1 base value? := by
  cases value? with
  | error fault =>
      refine ⟨state.log (.executing command), rfl, fun budget => ?_⟩
      rw [Nat.add_comm, runFor, here]
      dsimp only
      rw [executed]
      rfl
  | ok value =>
      refine ⟨(state.log (.executing command)).console, fun budget => ?_⟩
      rw [Nat.add_comm, runFor, here]
      dsimp only
      rw [executed]
      rfl

theorem arrives_literal {text : String} (here : program[state.position]? = some (.literal text)) :
    Arrives program state 1 state.stack (.ok (.ofLiteral text)) :=
  arrives_of_execute here rfl

theorem arrives_load {name : String} (here : program[state.position]? = some (.load name)) :
    Arrives program state 1 state.stack (state.environment.get name) :=
  arrives_of_execute here (execute_load _ _ _)

theorem arrives_pair {operation : Operation} {left right : Value}
    {function : Value → Value → Except Fault Value}
    (stack : state.stack = right :: left :: base)
    (here : program[state.position]? = some (.operate operation))
    (operates : ∀ state : MachineState, state.operate operation = state.applyPair function) :
    Arrives program state 1 base (function left right) := by
  have logged : (state.log (.executing (.operate operation))).stack = right :: left :: base := stack
  refine arrives_of_execute here ?_
  rw [execute_operate, operates]
  exact applyPair_stack logged function

theorem arrives_invert {value : Value} (stack : state.stack = value :: base)
    (here : program[state.position]? = some (.operate .not)) :
    Arrives program state 1 base (.ok (.ofFlag !value.isTruthy)) := by
  refine arrives_of_execute here ?_
  have logged : (state.log (.executing (.operate .not))).stack = value :: base := stack
  rw [execute_operate, operate, pop_stack logged]
  rfl

theorem arrives_operator {left right : Value} (operator : BinaryOperator)
    (stack : state.stack = right :: left :: base)
    (stands : StandsAt program state.position (operator.operations.map .operate)) :
    Arrives program state operator.operations.length base (operator.apply left right) := by
  cases operator with
  | greaterEqual | lessEqual =>
      refine Arrives.bind (arrives_pair stack (standsAt_cons stands).1 fun _ => rfl) ?_
      intro value console
      exact arrives_invert rfl (standsAt_cons (standsAt_cons stands).2).1
  | _ => exact arrives_pair stack (standsAt_cons stands).1 fun _ => rfl

end MachineState

open MachineState in
/-- The code of an expression without gaps computes its value. -/
theorem Expr.arrives (methods : MethodTable) {standard : TreeStandard} (closed : ¬standard.gaps)
    {program : Array Instruction} (expression : Expr) (whole : expression.Meets standard)
    (state : MachineState)
    (stands : StandsAt program state.position (expression.code methods)) :
    Arrives program state (expression.code methods).length state.stack
      (expression.eval methods state.environment) := by
  cases expression with
  | missing => exact absurd whole closed
  | literal token => exact arrives_literal (standsAt_cons stands).1
  | name token => exact arrives_load (standsAt_cons stands).1
  | call callee arguments => exact arrives_literal (standsAt_cons stands).1
  | negate line operand =>
      obtain ⟨zero, stands⟩ := standsAt_cons stands
      obtain ⟨inside, subtract⟩ := standsAt_append stands
      rw [Expr.eval, Expr.code, List.length_cons, List.length_append, Nat.add_comm]
      let number : Except Fault Value := .ok (.int 0)
      have pushed : Arrives program state 1 state.stack number := arrives_literal zero
      change Arrives program state _ state.stack (number >>= fun zero => do
        Value.arithmetic .sub zero (← operand.eval methods state.environment))
      refine pushed.bind fun _ console => ?_
      refine (operand.arrives methods closed whole _ inside).bind fun value later => ?_
      exact arrives_pair rfl (standsAt_cons subtract).1 fun _ => rfl
  | invert line operand =>
      obtain ⟨inside, invert⟩ := standsAt_append stands
      rw [Expr.eval, Expr.code, List.length_append]
      refine (operand.arrives methods closed whole state inside).bind fun value console => ?_
      exact arrives_invert rfl (standsAt_cons invert).1
  | binary operator line left right =>
      obtain ⟨first, stands⟩ := standsAt_append stands
      obtain ⟨second, operate⟩ := standsAt_append stands
      rw [Expr.eval, Expr.code, List.length_append, List.length_append, List.length_map]
      refine (left.arrives methods closed whole.1 state first).bind fun leftValue console => ?_
      refine (right.arrives methods closed whole.2 _ second).bind fun rightValue console => ?_
      exact arrives_operator operator rfl operate

end StackLang
