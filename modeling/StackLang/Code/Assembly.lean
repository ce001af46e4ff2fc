import StackLang.Code.Listing
import StackLang.Symbol.Table
import StackLang.Text.Lines

/-!
# Assembled programs

Assembling a listing resolves its labels, drops its markers and ends the code
with a halt.  The text of an assembly is a declaration per variable and per
label, a line `@`, and a line per instruction.  A label is declared as an `int`
variable that holds the number of its instruction.
-/

namespace StackLang

/-- An assembled program. -/
structure Assembly where
  declarations : List String
  labels : OrderedMap String Nat
  /-- The instructions, the last of which halts. -/
  instructions : List Instruction

namespace Assembly

/-- Assemble a listing with the declared symbols. -/
def ofListing (listing : Listing) (symbols : SymbolTable) : Assembly where
  declarations := symbols.toList.map Symbol.declaration
  labels := listing.resolve
  instructions := listing.instructions ++ [.operate .halt]

/-- The labels as symbols. -/
def labelSymbols (assembly : Assembly) : List Symbol :=
  assembly.labels.entries.map fun (name, target) => ⟨name, .int, globalScope, toString target⟩

/-- The declaration of a label. -/
def labelDeclaration (name : String) (target : Nat) : String :=
  name ++ ", " ++ TypeName.int.text ++ ", " ++ globalScope ++ ", " ++ toString target

/-- The lines of an assembly. -/
def lines (assembly : Assembly) : List String :=
  assembly.declarations ++
    assembly.labels.entries.map (fun (name, target) => labelDeclaration name target) ++
    "@" :: assembly.instructions.map Instruction.text

/-- The bytecode text of an assembly. -/
def bytecode (assembly : Assembly) : String := Text.unlines assembly.lines

end Assembly

end StackLang
