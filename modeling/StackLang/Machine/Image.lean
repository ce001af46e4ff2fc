import StackLang.Machine.Console
import StackLang.Machine.Environment
import StackLang.Text.Lines

/-!
# Loading bytecode

A bytecode text declares variables and labels, one a line, then has a line `@`,
then an instruction a line.  Blank lines count for line numbers only.  A name
that starts with `#` is a label and keeps its value; any other variable starts
from the default of its type.
-/

namespace StackLang

/-- What a declaration line declares. -/
inductive Declared where
  | label (name : String) (target : Int64)
  | variable (name : String) (type : TypeName)

/-- The four fields of a declaration line, separated at its first three commas. -/
def declarationFields? (chars : List Char) : Option (String × String × String × String) := do
  let (name, afterName) ← Text.splitFirst? ',' chars
  let (type, afterType) ← Text.splitFirst? ',' afterName
  let (scope, value) ← Text.splitFirst? ',' afterType
  let field part := String.ofList (Text.trimChars part)
  return (field name, field type, field scope, field value)

/-- What a declaration line declares, if it is well formed. -/
def Declared.ofText? (text : String) : Option Declared := do
  let (name, type, _, value) ← declarationFields? text.toList
  match name.toList with
  | [] => none
  | '#' :: _ => (Numeral.int64? value).map fun target => .label name target
  | _ => (TypeName.ofText? type).map fun type => .variable name type

/-- A loaded program. -/
structure Image where
  environment : Environment
  program : Array Instruction
  console : Array ConsoleEntry

namespace Image

/-- Add a declaration to the variables of a program. -/
def declare (image : Image) : Declared → Image
  | .label name target =>
      { image with
        environment := image.environment.define name .int (.int target)
        console := image.console.push (.label name target) }
  | .variable name type =>
      { image with
        environment := image.environment.define name type (.initial type)
        console := image.console.push (.variable name type) }

/-- Load the declarations of numbered lines, up to the separator, and give back
the lines behind it. -/
def loadDeclarations (image : Image) :
    List (Nat × String) → Except LoadError (Image × List (Nat × String))
  | [] => .error .missingSeparator
  | (line, text) :: rest =>
      if text = "@" then .ok (image, rest)
      else if text = "" then loadDeclarations image rest
      else
        match Declared.ofText? text with
        | some declared => loadDeclarations (image.declare declared) rest
        | none => .error (.malformedDeclaration line text)

/-- The instructions of numbered lines. -/
def loadInstructions : List (Nat × String) → Except LoadError (List Instruction)
  | [] => .ok []
  | (line, text) :: rest =>
      if text = "" then loadInstructions rest
      else
        match Instruction.ofText text with
        | .ok instruction => (loadInstructions rest).map (instruction :: ·)
        | .error _ => .error (.malformedInstruction line text)

/-- The lines of a text without the blanks at their ends, numbered from one. -/
def numberedLines (text : String) : List (Nat × String) :=
  (Text.lines text).zipIdx 1 |>.map fun (line, number) => (number, Text.trim line)

/-- Load a bytecode text. -/
def load (bytecode : String) : Except LoadError Image := do
  let (declared, rest) ← loadDeclarations ⟨.empty, #[], #[.loading]⟩ (numberedLines bytecode)
  let instructions ← loadInstructions rest
  return { declared with
    program := instructions.toArray
    console := (declared.console.push .loadingInstructions).push .loaded }

end Image

end StackLang
