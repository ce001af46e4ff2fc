/-!
# Opcodes and operations

The six opcodes of the stack machine and the numbered operations that `opr`
selects.
-/

namespace StackLang

/-- The kinds of instructions. -/
inductive Opcode where
  /-- Push a literal. -/
  | lit
  /-- Push the value of a variable. -/
  | lod
  /-- Pop a value into a variable. -/
  | sto
  /-- Jump. -/
  | jmp
  /-- Pop a value and jump if it matches the second parameter. -/
  | jmc
  /-- Carry out an operation. -/
  | opr
  deriving DecidableEq, Repr, Inhabited

namespace Opcode

/-- The name of an opcode. -/
def text : Opcode → String
  | .lit => "lit"
  | .lod => "lod"
  | .sto => "sto"
  | .jmp => "jmp"
  | .jmc => "jmc"
  | .opr => "opr"

/-- Every opcode. -/
def all : List Opcode := [.lit, .lod, .sto, .jmp, .jmc, .opr]

/-- The opcode with the given name, whose ASCII letters may be of either case. -/
def ofText? (name : String) : Option Opcode :=
  let lower := String.ofList (name.toList.map Char.toLower)
  all.find? fun opcode => opcode.text == lower

theorem ofText?_text (opcode : Opcode) : ofText? opcode.text = some opcode := by
  cases opcode <;> decide

end Opcode

/-- The operations of the stack machine. -/
inductive Operation where
  | halt
  | giveBack
  | add
  | sub
  | mul
  | div
  | or
  | and
  | not
  | greater
  | less
  | equal
  | notEqual
  | print
  | printLine
  | read
  deriving DecidableEq, Repr, Inhabited

namespace Operation

/-- The number of an operation. -/
def code : Operation → Nat
  | .halt => 0
  | .giveBack => 1
  | .add => 2
  | .sub => 3
  | .mul => 4
  | .div => 5
  | .or => 8
  | .and => 9
  | .not => 10
  | .greater => 11
  | .less => 12
  | .equal => 15
  | .notEqual => 16
  | .print => 20
  | .printLine => 21
  | .read => 22

/-- Every operation. -/
def all : List Operation :=
  [.halt, .giveBack, .add, .sub, .mul, .div, .or, .and, .not, .greater, .less, .equal, .notEqual,
    .print, .printLine, .read]

/-- The operation with the given number. -/
def ofCode? (code : Int) : Option Operation :=
  all.find? fun operation => (operation.code : Int) == code

theorem ofCode?_code (operation : Operation) : ofCode? operation.code = some operation := by
  cases operation <;> decide

end Operation

end StackLang
