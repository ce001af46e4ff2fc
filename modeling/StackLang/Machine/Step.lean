import StackLang.Machine.Image

/-!
# Steps of the machine

`execute` carries out one instruction: it answers with the changed state and
where to go on, or with the fault that stops the program.  Jump targets are
numbers of instructions, counted from one, or names of variables that hold one;
a jump directly past the last instruction ends the program.
-/

namespace StackLang

/-- What changes while a program runs. -/
structure MachineState where
  environment : Environment
  stack : List Value
  /-- The index of the next instruction, from zero. -/
  position : Nat
  input : List String
  output : String
  console : Array ConsoleEntry

/-- Where the machine goes on after an instruction. -/
inductive Flow where
  | next
  | jump (position : Nat)
  | halt
  deriving DecidableEq, Repr

namespace MachineState

/-- Add an entry to the console. -/
def log (state : MachineState) (entry : ConsoleEntry) : MachineState :=
  { state with console := state.console.push entry }

/-- Push a value. -/
def push (state : MachineState) (value : Value) : MachineState :=
  { state with stack := value :: state.stack }

/-- Pop a value. -/
def pop (state : MachineState) : Except Fault (Value × MachineState) :=
  match state.stack with
  | [] => .error (.stackUnderflow (state.position + 1))
  | value :: rest => .ok (value, { state with stack := rest })

/-- Pop the right operand and then the left one. -/
def popPair (state : MachineState) : Except Fault (Value × Value × MachineState) := do
  let (right, state) ← state.pop
  let (left, state) ← state.pop
  return (left, right, state)

/-- The number that a jump operand stands for. -/
def jumpNumber (state : MachineState) (operand : String) : Except Fault Int64 :=
  match Numeral.int64? operand with
  | some number => .ok number
  | none => do
      match ← state.environment.get operand with
      | .int number => .ok number
      | _ => .error (.malformedOperand operand)

/-- The index that a jump operand leads to in a program of the given size. -/
def target (state : MachineState) (size : Nat) (operand : String) : Except Fault Nat := do
  let number := (← state.jumpNumber operand).toInt
  if 1 ≤ number ∧ number ≤ size + 1 then .ok (number - 1).toNat
  else .error (.invalidJump number)

/-- The operation that an operand selects. -/
def operationOf (operand : String) : Except Fault Operation :=
  match Numeral.int64? operand with
  | none => .error (.malformedOperand operand)
  | some code =>
      match Operation.ofCode? code.toInt with
      | some operation => .ok operation
      | none => .error (.unknownOperation code.toInt)

/-- Replace the two topmost values by the result of a function on them. -/
def applyPair (state : MachineState) (function : Value → Value → Except Fault Value) :
    Except Fault (Flow × MachineState) := do
  let (left, right, state) ← state.popPair
  return (.next, state.push (← function left right))

/-- A comparison of two values as numbers. -/
def compare (holds : Float → Float → Bool) (left right : Value) : Except Fault Value := do
  let leftNumber ← left.number
  let rightNumber ← right.number
  return .ofFlag (holds leftNumber rightNumber)

/-- Carry out an operation. -/
def operate (state : MachineState) (operation : Operation) : Except Fault (Flow × MachineState) :=
  match operation with
  | .halt => .ok (.halt, state)
  | .giveBack => .ok (.next, state)
  | .add | .sub | .mul | .div => state.applyPair (Value.arithmetic operation)
  | .or => state.applyPair fun left right => .ok (.ofFlag (left.isTruthy || right.isTruthy))
  | .and => state.applyPair fun left right => .ok (.ofFlag (left.isTruthy && right.isTruthy))
  | .not => do
      let (value, state) ← state.pop
      return (.next, state.push (.ofFlag !value.isTruthy))
  | .greater => state.applyPair (compare fun left right => left > right)
  | .less => state.applyPair (compare fun left right => left < right)
  | .equal => state.applyPair fun left right => .ok (.ofFlag (left.agree right))
  | .notEqual => state.applyPair fun left right => .ok (.ofFlag !(left.agree right))
  | .print => do
      let (value, state) ← state.pop
      return (.next, { state with output := state.output ++ value.text })
  | .printLine => do
      let (value, state) ← state.pop
      return (.next, { state with output := state.output ++ value.text ++ "\n" })
  | .read =>
      let value := Value.ofInput (state.input.head?.getD "0")
      .ok (.next, ({ state with input := state.input.tail }.log (.input value)).push value)

/-- Carry out an instruction of a program of the given size. -/
def execute (size : Nat) (instruction : Instruction) (state : MachineState) :
    Except Fault (Flow × MachineState) :=
  match instruction.opcode with
  | .lit => .ok (.next, state.push (.ofLiteral instruction.first))
  | .lod => do
      let value ← state.environment.get instruction.first
      return (.next, state.push value)
  | .sto => do
      let (value, state) ← state.pop
      let environment ← state.environment.assign instruction.first value
      return (.next, { state with environment := environment })
  | .jmp => do
      let position ← state.target size instruction.first
      return (.jump position, state)
  | .jmc => do
      let (value, state) ← state.pop
      if value.flag = canonicalFlag instruction.second then
        let position ← state.target size instruction.first
        return (.jump position, state)
      else return (.next, state)
  | .opr => do state.operate (← operationOf instruction.first)

end MachineState

end StackLang
