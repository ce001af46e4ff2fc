import StackLang.Lexeme.State
import StackLang.Text.Lines

/-!
# Scanning source text

`tokenize` cuts every line into lexemes.  Operators, delimiters and white space
end the lexeme before them, unless its state takes the character; a quote starts
a lexeme of its own and a closing quote ends it.  A line comment hides the rest
of its line and a block comment may hide line ends.  Scanning never fails: what
is no lexeme of the language becomes an error token.
-/

namespace StackLang

namespace Lexeme

/-- A character that is an operator by itself. -/
def isOperator (char : Char) : Bool :=
  char ∈ ['=', '+', '-', '*', '/', '<', '>', '!', '&', '|', '%']

/-- A character that is a delimiter. -/
def isDelimiter (char : Char) : Bool :=
  char ∈ [',', ';', '.', '(', ')', '\x7b', '\x7d', '[', ']', ':']

/-- White space between lexemes. -/
def isSpace (char : Char) : Bool :=
  char ∈ [' ', '\t', '\r', '\n']

/-- A character that ends a lexeme. -/
def isBoundary (char : Char) : Bool :=
  isOperator char || isDelimiter char || isSpace char

/-- Two characters that make up one operator. -/
def isOperatorPair (first second : Char) : Bool :=
  (first, second) ∈
    [('=', '='), ('!', '='), ('>', '='), ('<', '='), ('+', '='), ('-', '='), ('*', '='),
      ('/', '='), ('%', '='), ('+', '+'), ('-', '-'), ('&', '&'), ('|', '|')]

/-- A lexeme being read: its characters, the last one first, and its state,
which is none once the lexeme cannot be continued. -/
structure Pending where
  reversed : List Char
  state? : Option State

namespace Pending

/-- The lexeme before its first character. -/
def empty : Pending := ⟨[], some .start⟩

/-- The lexeme with one more character. -/
def push (pending : Pending) (char : Char) : Pending :=
  ⟨char :: pending.reversed, pending.state?.bind fun state => state.next? char⟩

/-- Whether the state takes a character that would otherwise end the lexeme. -/
def takes (pending : Pending) (char : Char) : Bool :=
  pending.state?.any fun state => state.takes char

/-- Whether the lexeme is a literal that was just closed. -/
def isClosed (pending : Pending) : Bool := pending.state?.any State.isClosed

/-- The token of the lexeme, if anything has been read. -/
def finish (line : Nat) (pending : Pending) : List Token :=
  if pending.reversed.isEmpty then []
  else
    let text := String.ofList pending.reversed.reverse
    [⟨text, kindOf text pending.state?, line⟩]

end Pending

/-- Where the scanner stands between two characters. -/
inductive Mode where
  | code (pending : Pending)
  | blockComment

/-- The token of a boundary character that stands alone; white space has none. -/
def single (line : Nat) (char : Char) : List Token :=
  if isOperator char then [⟨char.toString, .operator, line⟩]
  else if isDelimiter char then [⟨char.toString, .delimiter, line⟩]
  else []

/-- Put tokens in front of the result of scanning the rest of a line. -/
def before (tokens : List Token) (rest : List Token × Bool) : List Token × Bool :=
  (tokens ++ rest.1, rest.2)

/-- The tokens of the rest of a line, and whether the line ends inside a block
comment. -/
def scanLine (line : Nat) : Mode → List Char → List Token × Bool
  | .blockComment, [] => ([], true)
  | .blockComment, '*' :: '/' :: rest => scanLine line (.code .empty) rest
  | .blockComment, _ :: rest => scanLine line .blockComment rest
  | .code pending, [] => (pending.finish line, false)
  | .code pending, char :: rest =>
      if pending.takes char then
        let pending := pending.push char
        if pending.isClosed then before (pending.finish line) (scanLine line (.code .empty) rest)
        else scanLine line (.code pending) rest
      else if !isBoundary char then
        if char == '"' || char == '\'' then
          before (pending.finish line) (scanLine line (.code (Pending.empty.push char)) rest)
        else scanLine line (.code (pending.push char)) rest
      else
        before (pending.finish line) <|
          match rest with
          | [] => (single line char, false)
          | next :: after =>
              if char == '/' && next == '*' then scanLine line .blockComment after
              else if char == '/' && next == '/' then ([], false)
              else if isOperatorPair char next then
                before [⟨String.ofList [char, next], .operator, line⟩]
                  (scanLine line (.code .empty) after)
              else before (single line char) (scanLine line (.code .empty) (next :: after))

/-- The tokens of lines numbered from `line` on, the first of which starts
inside a block comment if `inComment` holds. -/
def scanLines (line : Nat) (inComment : Bool) : List (List Char) → List Token
  | [] => []
  | chars :: later =>
      let mode := if inComment then Mode.blockComment else .code .empty
      let (tokens, inComment) := scanLine line mode chars
      tokens ++ scanLines (line + 1) inComment later

end Lexeme

/-- The tokens of a source text. -/
def tokenize (source : String) : List Token :=
  Lexeme.scanLines 1 false (Text.lineChars source.toList)

end StackLang
