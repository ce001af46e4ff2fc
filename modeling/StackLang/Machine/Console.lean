import StackLang.Code.Instruction
import StackLang.Machine.Value

/-!
# The console of the machine

Besides what the program prints, the machine keeps a log of what it loads and
of every step.
-/

namespace StackLang

/-- An entry of the machine's log. -/
inductive ConsoleEntry where
  | loading
  | label (name : String) (target : Int64)
  | variable (name : String) (type : TypeName)
  | loadingInstructions
  | loaded
  | starting
  | executing (instruction : Instruction)
  | input (value : Value)
  | faulted (fault : Fault)
  | terminated
  | endReached

/-- The line of a log entry. -/
def ConsoleEntry.text : ConsoleEntry → String
  | .loading => "Loading program..."
  | .label name target => s!"Loading label: {name} -> {Numeral.int64Text target}"
  | .variable name type => s!"Loading variable: {name} ({type.text})"
  | .loadingInstructions => "Loading instructions..."
  | .loaded => "Program loaded successfully."
  | .starting => "Starting execution..."
  | .executing instruction => s!"Executing: {instruction.text}"
  | .input value => s!"INPUT processed as {value.kindName}: {value.text}"
  | .faulted fault => s!"Runtime error: {fault.message}"
  | .terminated => "Program terminated normally."
  | .endReached => "Program reached end of instructions."

end StackLang
