import StackLang.Machine.Step

/-!
# Running a program

`runFor` executes at most the given number of instructions.  It ends when the
program halts, runs past its last instruction or faults, and is cut off only if
a further instruction was due.  A run without a step limit gets a budget that no
actual run exhausts.
-/

namespace StackLang

/-- How a run ends. -/
inductive Ending where
  | halted
  | endReached
  | faulted (fault : Fault)
  | cutOff
  deriving DecidableEq, Repr

namespace MachineState

/-- Run a program for at most `budget` instructions. -/
def runFor (program : Array Instruction) : Nat → MachineState → MachineState × Ending
  | 0, state =>
      match program[state.position]? with
      | none => (state, .endReached)
      | some _ => (state, .cutOff)
  | budget + 1, state =>
      match program[state.position]? with
      | none => (state, .endReached)
      | some instruction =>
          let state := state.log (.executing instruction)
          match state.execute program.size instruction with
          | .error fault => (state, .faulted fault)
          | .ok (.halt, state) => (state, .halted)
          | .ok (.next, state) => runFor program budget { state with position := state.position + 1 }
          | .ok (.jump position, state) => runFor program budget { state with position := position }

end MachineState

/-- The settings of a run. -/
structure RunSettings where
  /-- The lines that successive reads take; a read past the end takes `0`. -/
  input : List String
  /-- The number of instructions after which the run is cut off. -/
  stepLimit : Option Nat
  deriving Inhabited

/-- The number of instructions that a run without a limit may execute. -/
def unlimitedBudget : Nat := UInt64.size

namespace RunSettings

/-- The number of instructions that a run may execute. -/
def budget (settings : RunSettings) : Nat := settings.stepLimit.getD unlimitedBudget

end RunSettings

/-- The outcome of a run. -/
structure Execution where
  output : String
  console : Array ConsoleEntry
  «variables» : Environment
  /-- The fault that stopped the program. -/
  error : Option Fault
  /-- Whether the program stopped at a halt. -/
  halted : Bool

namespace Execution

/-- The number of lines of the output. -/
def outputLines (execution : Execution) : Nat := (Text.lines execution.output).length

end Execution

namespace Image

/-- The state in which a loaded program starts. -/
def start (image : Image) (settings : RunSettings) : MachineState where
  environment := image.environment
  stack := []
  position := 0
  input := settings.input
  output := ""
  console := image.console.push .starting

/-- The outcome of a run from its last state. -/
def outcome (settings : RunSettings) (state : MachineState) (ending : Ending) : Execution :=
  let (entry, error) : ConsoleEntry × Option Fault := match ending with
    | .halted => (.terminated, none)
    | .endReached => (.endReached, none)
    | .faulted fault => (.faulted fault, some fault)
    | .cutOff => (.faulted (.stepLimit settings.budget), some (.stepLimit settings.budget))
  { output := state.output
    console := state.console.push entry
    «variables» := state.environment
    error := error
    halted := ending = .halted }

/-- Run a loaded program. -/
def run (image : Image) (settings : RunSettings) : Execution :=
  let (state, ending) := (image.start settings).runFor image.program settings.budget
  outcome settings state ending

end Image

/-- Load and run a bytecode text. -/
def execute (bytecode : String) (settings : RunSettings) : Except LoadError Execution := do
  let image ← Image.load bytecode
  return image.run settings

end StackLang
