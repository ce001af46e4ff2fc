import StackLang.Numeral.Integer
import StackLang.Text.Blank
import StackLang.Text.Split
import StackLang.Token.Basic

/-!
# Rows of a token table

A row is the token's text, its kind and its line, separated by tabs.  The text
is written as it is and may hold tabs itself, so a row is read from its end.
-/

namespace StackLang.Token

/-- The row of a token. -/
def row (token : Token) : String :=
  token.value ++ "\t" ++ token.kind.text ++ "\t" ++ toString token.line

/-- What keeps a text from being a row. -/
inductive RowError where
  | invalidLine
  | missingKind
  | unknownKind (name : String)
  | missingValue
  deriving DecidableEq, Repr

/-- The wording of a row error. -/
def RowError.message : RowError → String
  | .invalidLine => "Invalid line number"
  | .missingKind => "Missing kind column"
  | .unknownKind name => s!"Unknown token kind '{name}'"
  | .missingValue => "Missing value column"

/-- The kind column, or the reason why it is none. -/
def kindOfColumn (column : List Char) : Except RowError TokenKind :=
  let name := String.ofList column
  match TokenKind.ofText? name with
  | some kind => .ok kind
  | none => .error (.unknownKind name)

/-- The line column, or the reason why it is none. -/
def lineOfColumn (column : List Char) : Except RowError Nat :=
  match Numeral.natural64? (String.ofList (Text.trimChars column)) with
  | some line => .ok line
  | none => .error .invalidLine

/-- The token written by a row.  The line column is judged first, then the kind
column, then whether there is a value column. -/
def ofRow (text : String) : Except RowError Token :=
  match Text.splitLast? '\t' text.toList with
  | none => do
      let _ ← lineOfColumn text.toList
      .error .missingKind
  | some (front, lineColumn) => do
      let line ← lineOfColumn lineColumn
      match Text.splitLast? '\t' front with
      | none => do
          let _ ← kindOfColumn front
          .error .missingValue
      | some (value, kindColumn) => do
          let kind ← kindOfColumn kindColumn
          .ok ⟨String.ofList value, kind, line⟩

end StackLang.Token
