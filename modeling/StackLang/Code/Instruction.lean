import StackLang.Code.Operation
import StackLang.Text.Blank
import StackLang.Text.Split

/-!
# Instructions and their text

An instruction is written `opcode first, second`.  A string literal may hold
commas, so the parameters are separated at the last comma of the line, and the
opcode ends at the first space.
-/

namespace StackLang

/-- An instruction of the stack machine with its two parameters. -/
structure Instruction where
  opcode : Opcode
  first : String
  second : String
  deriving DecidableEq, Repr, Inhabited

namespace Instruction

/-- Push the literal with the given spelling. -/
def literal (text : String) : Instruction := ⟨.lit, text, "0"⟩

/-- Push the value of a variable. -/
def load (name : String) : Instruction := ⟨.lod, name, "0"⟩

/-- Pop a value into a variable. -/
def store (name : String) : Instruction := ⟨.sto, name, "0"⟩

/-- Jump to a label. -/
def jump (label : String) : Instruction := ⟨.jmp, label, "0"⟩

/-- Pop the condition and jump to a label if it is `condition`. -/
def jumpIf (label : String) (condition : Bool) : Instruction :=
  ⟨.jmc, label, if condition then "1" else "0"⟩

/-- Carry out an operation. -/
def operate (operation : Operation) : Instruction := ⟨.opr, toString operation.code, "0"⟩

/-- The text of an instruction. -/
def text (instruction : Instruction) : String :=
  instruction.opcode.text ++ " " ++ instruction.first ++ ", " ++ instruction.second

/-- What keeps a text from being an instruction. -/
inductive TextError where
  | missingParameters
  | missingComma
  | unknownOpcode (name : String)
  deriving DecidableEq, Repr

/-- The wording of an instruction error. -/
def TextError.message : TextError → String
  | .missingParameters => "Missing parameters"
  | .missingComma => "Missing ',' between parameters"
  | .unknownOpcode name => s!"Unknown opcode '{name}'"

/-- The opcode with the given name, or the reason why there is none. -/
def opcodeOf (name : String) : Except TextError Opcode :=
  match Opcode.ofText? name with
  | some opcode => .ok opcode
  | none => .error (.unknownOpcode name)

/-- The instruction that a text writes; blanks around the text and around the
parameters do not count. -/
def ofText (text : String) : Except TextError Instruction :=
  match Text.splitFirst? ' ' (Text.trimChars text.toList) with
  | none => .error .missingParameters
  | some (name, parameters) =>
      match Text.splitLast? ',' parameters with
      | none => .error .missingComma
      | some (first, second) => do
          let opcode ← opcodeOf (String.ofList name)
          .ok ⟨opcode, String.ofList (Text.trimChars first), String.ofList (Text.trimChars second)⟩

end Instruction

end StackLang
