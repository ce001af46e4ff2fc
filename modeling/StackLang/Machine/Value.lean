import StackLang.Machine.Fault
import StackLang.Numeral.Decimal
import StackLang.Numeral.FloatText
import StackLang.Text.Blank
import StackLang.Typing.Basic

/-!
# Values of the machine

The values on the operand stack and in variables, how they are read from
literals and input lines, how they are written, and what the operations make of
them.  Integers wrap at 64 bits and divide towards zero; an operation with a
floating point number on either side is carried out on floating point numbers;
strings and chars can only be joined.
-/

namespace StackLang

/-- A typed value. -/
inductive Value where
  | int (number : Int64)
  | float (number : Float)
  | bool (truth : Bool)
  /-- The character with code point zero stands for the empty char. -/
  | char (letter : Char)
  | string (text : String)

/-- The text `1` for `true` and `0` for `false`; other texts are left alone. -/
def canonicalFlag (text : String) : String :=
  if text = "true" then "1" else if text = "false" then "0" else text

namespace Value

instance : Inhabited Value := ⟨.int 0⟩

/-- The text that printing a value writes. -/
def text : Value → String
  | .int number => Numeral.int64Text number
  | .float number => Numeral.floatText number
  | .bool truth => if truth then "true" else "false"
  | .char letter => if letter = '\x00' then "" else letter.toString
  | .string text => text

/-- The value of a variable before anything is stored into it. -/
def initial : TypeName → Value
  | .int => .int 0
  | .float => .float 0.0
  | .char => .char '\x00'
  | .boolean => .bool false
  | .string | .void => .string ""

/-- The name of the kind of a value. -/
def kindName : Value → String
  | .int _ => "integer"
  | .float _ => "float"
  | .bool _ => "boolean"
  | .char _ => "char"
  | .string _ => "string"

/-- What stands between two quotes at the ends of a text. -/
def unquoted? (quote : Char) : List Char → Option (List Char)
  | [] => none
  | first :: rest =>
      if first = quote ∧ rest.getLast? = some quote then some rest.dropLast else none

/-- A floating point number, or else the text itself. -/
def floatOrString (text : String) : Value :=
  match Numeral.float? text with
  | some number => .float number
  | none => .string text

/-- The value of a literal, by its spelling alone: a truth value, digits, a
quoted string, a quoted char, a floating point number, or else a bare string. -/
def ofLiteral (text : String) : Value :=
  let chars := text.toList
  if text = "true" then .bool true
  else if text = "false" then .bool false
  else if !chars.isEmpty && chars.all Char.isDigit then
    match Numeral.int64? text with
    | some number => .int number
    | none => floatOrString text
  else
    match unquoted? '"' chars with
    | some inner => .string (String.ofList inner)
    | none =>
        match unquoted? '\'' chars with
        | some inner => .char (inner.head?.getD '\x00')
        | none => floatOrString text

/-- The value of an input line: an integer, else a floating point number, else
the line without the blanks at its ends. -/
def ofInput (line : String) : Value :=
  let text := Text.trim line
  match Numeral.int64? text with
  | some number => .int number
  | none => floatOrString text

/-- The integer that stands for a truth value. -/
def ofFlag (flag : Bool) : Value := .int (if flag then 1 else 0)

/-- The text that a conditional jump compares. -/
def flag : Value → String
  | .bool truth => if truth then "1" else "0"
  | value => canonicalFlag value.text

/-- Whether a value counts as true in a logical operation. -/
def isTruthy : Value → Bool
  | .int number => number != 0
  | .float number => !(number == 0.0)
  | .bool truth => truth
  | .char letter => letter != '\x00'
  | .string text => text == "true"

/-- The number that a comparison sees. -/
def number : Value → Except Fault Float
  | .int number => .ok (Float.ofInt number.toInt)
  | .float number => .ok number
  | .bool truth => .ok (if truth then 1.0 else 0.0)
  | value =>
      match Numeral.float? (Text.trim value.text) with
      | some number => .ok number
      | none => .error (.malformedOperand value.text)

/-- Whether a value is a text that can be joined to another. -/
def isText : Value → Bool
  | .char _ | .string _ => true
  | _ => false

/-- Whether a value is a truth value. -/
def isBool : Value → Bool
  | .bool _ => true
  | _ => false

/-- An arithmetic operation on integers. -/
def integerArithmetic? (operation : Operation) (left right : Int64) : Option (Except Fault Value) :=
  match operation with
  | .add => some (.ok (.int (left + right)))
  | .sub => some (.ok (.int (left - right)))
  | .mul => some (.ok (.int (left * right)))
  | .div => some (if right = 0 then .error .divisionByZero else .ok (.int (left / right)))
  | _ => none

/-- An arithmetic operation on floating point numbers. -/
def floatArithmetic? (operation : Operation) (left right : Float) : Option Value :=
  match operation with
  | .add => some (.float (left + right))
  | .sub => some (.float (left - right))
  | .mul => some (.float (left * right))
  | .div => some (.float (left / right))
  | _ => none

/-- The value of `left operation right`. -/
def arithmetic (operation : Operation) (left right : Value) : Except Fault Value :=
  let invalid : Except Fault Value :=
    .error (.invalidOperation left.kindName operation right.kindName)
  if left.isText || right.isText then
    if operation = .add then .ok (.string (left.text ++ right.text)) else invalid
  else if left.isBool || right.isBool then invalid
  else
    match left, right with
    | .int left, .int right => (integerArithmetic? operation left right).getD invalid
    | _, _ => do
        let leftNumber ← left.number
        let rightNumber ← right.number
        match floatArithmetic? operation leftNumber rightNumber with
        | some value => .ok value
        | none => invalid

/-- Whether two values are equal: truth values by their flags, others by their
texts. -/
def agree (left right : Value) : Bool :=
  if left.isBool || right.isBool then left.flag == right.flag else left.text == right.text

/-- The value that a variable of a type holds after a store. -/
def storedAs (type : TypeName) (value : Value) : Value :=
  match type, value with
  | .float, .int number => .float (Float.ofInt number.toInt)
  | .boolean, .int number => .bool (number != 0)
  | _, value => value

end Value

end StackLang
