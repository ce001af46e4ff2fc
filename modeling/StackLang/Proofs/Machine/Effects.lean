import StackLang.Machine.Step

/-!
# Effects of operations

An operation fails for want of operands or for operands that it does not go with, and
for nothing else.  It never changes the variables, and only a halt ends the program.
-/

namespace StackLang

/-- A computation has a good result, or else one of certain faults. -/
def Answers (faults : Fault → Prop) (good : α → Prop) : Except Fault α → Prop
  | .ok value => good value
  | .error fault => faults fault

namespace Answers

variable {faults weaker : Fault → Prop} {α β : Type} {good : α → Prop} {final : β → Prop}

theorem bind {first : Except Fault α} {next : α → Except Fault β}
    (answers : Answers faults good first)
    (later : ∀ value, good value → Answers faults final (next value)) :
    Answers faults final (first >>= next) := by
  cases first with
  | error fault => exact answers
  | ok value => exact later value answers

theorem mono {result : Except Fault α} {other : α → Prop} (answers : Answers faults good result)
    (weaken : ∀ fault, faults fault → weaker fault) (imply : ∀ value, good value → other value) :
    Answers weaker other result := by
  cases result with
  | error fault => exact weaken fault answers
  | ok value => exact imply value answers

end Answers

/-- A fault that lies in the operands of an operation. -/
inductive Fault.OfOperands : Fault → Prop
  | malformed (text : String) : OfOperands (.malformedOperand text)
  | division : OfOperands .divisionByZero
  | invalid (left : String) (operation : Operation) (right : String) :
      OfOperands (.invalidOperation left operation right)

/-- A fault of an operation: there are too few operands, or they do not go with it. -/
inductive Fault.OfOperation : Fault → Prop
  | underflow (instruction : Nat) : OfOperation (.stackUnderflow instruction)
  | operands {fault : Fault} : fault.OfOperands → OfOperation fault

namespace Environment

theorem get_answers (environment : Environment) (name : String) :
    Answers (· = .undefinedVariable name) (fun _ => True) (environment.get name) := by
  unfold get
  split
  · trivial
  · rfl

theorem assign_answers (environment : Environment) (name : String) (value : Value) :
    Answers (· = .undefinedVariable name) (fun _ => True) (environment.assign name value) := by
  unfold assign
  split
  · trivial
  · rfl

end Environment

namespace Value

theorem number_answers (value : Value) :
    Answers Fault.OfOperands (fun _ => True) value.number := by
  unfold number
  split
  · trivial
  · trivial
  · trivial
  · split
    · trivial
    · exact .malformed _

theorem arithmetic_answers (operation : Operation) (left right : Value) :
    Answers Fault.OfOperands (fun _ => True) (arithmetic operation left right) := by
  have invalid : Fault.OfOperands
      (.invalidOperation left.kindName operation right.kindName) := .invalid _ _ _
  unfold arithmetic
  dsimp only
  split
  · split
    · trivial
    · exact invalid
  · split
    · exact invalid
    · split
      · next leftNumber rightNumber _ _ =>
          cases operation with
          | add | sub | mul => trivial
          | div =>
              by_cases zero : rightNumber = 0
              · rw [integerArithmetic?, if_pos zero]
                exact .division
              · rw [integerArithmetic?, if_neg zero]
                trivial
          | _ => exact invalid
      · apply left.number_answers.bind
        intro leftNumber _
        apply right.number_answers.bind
        intro rightNumber _
        split
        · trivial
        · exact invalid

end Value

namespace MachineState

theorem compare_answers (holds : Float → Float → Bool) (left right : Value) :
    Answers Fault.OfOperands (fun _ => True) (compare holds left right) :=
  left.number_answers.bind fun _ _ => right.number_answers.bind fun _ _ => trivial

/-- Two states have the same variables and the same next instruction. -/
structure Alike (state after : MachineState) : Prop where
  environment : after.environment = state.environment
  position : after.position = state.position

/-- Where an operation leads. -/
def flowOf : Operation → Flow
  | .halt => .halt
  | _ => .next

variable (state : MachineState)

theorem pop_answers : Answers Fault.OfOperation (fun popped => state.Alike popped.2) state.pop := by
  unfold pop
  split
  · exact .underflow _
  · exact ⟨rfl, rfl⟩

theorem applyPair_answers {function : Value → Value → Except Fault Value}
    (answers : ∀ left right, Answers Fault.OfOperands (fun _ => True) (function left right)) :
    Answers Fault.OfOperation (fun result => state.Alike result.2 ∧ result.1 = .next)
      (state.applyPair function) := by
  have popPair : Answers Fault.OfOperation (fun popped => state.Alike popped.2.2)
      state.popPair := by
    apply state.pop_answers.bind
    intro right first
    apply right.2.pop_answers.bind
    intro left second
    exact ⟨second.environment.trans first.environment, second.position.trans first.position⟩
  apply popPair.bind
  intro popped alike
  have value := (answers popped.1 popped.2.1).mono (fun _ => Fault.OfOperation.operands) fun _ => id
  apply value.bind
  intro result _
  exact ⟨⟨alike.environment, alike.position⟩, rfl⟩

/-- An operation fails for its operands only, and passes on otherwise. -/
theorem operate_answers (operation : Operation) :
    Answers Fault.OfOperation (fun result => state.Alike result.2 ∧ result.1 = flowOf operation)
      (state.operate operation) := by
  cases operation with
  | halt | giveBack | read => exact ⟨⟨rfl, rfl⟩, rfl⟩
  | add | sub | mul | div => exact state.applyPair_answers (Value.arithmetic_answers _)
  | greater | less => exact state.applyPair_answers (compare_answers _)
  | or | and | equal | notEqual =>
      unfold operate
      exact state.applyPair_answers fun _ _ => trivial
  | not | print | printLine =>
      apply state.pop_answers.bind
      intro popped alike
      exact ⟨⟨alike.environment, alike.position⟩, rfl⟩

end MachineState

end StackLang
