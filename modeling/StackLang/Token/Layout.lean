import StackLang.Token.Basic

/-!
# Laying tokens out as source text

Every token is written on its own line, tokens of one line being separated by
single spaces.  Nothing separates a token from the start of the text or from a
line feed.
-/

namespace StackLang.Token

/-- What separates a token from the text written so far, which ends with `last`
on line `line`. -/
def gap (last : Option Char) (line : Nat) (token : Token) : List Char :=
  if line < token.line then List.replicate (token.line - line) '\n'
  else if last = none ∨ last = some '\n' then []
  else [' ']

/-- The text of tokens that follow a text which ends with `last` on line `line`. -/
def layoutFrom (last : Option Char) (line : Nat) : List Token → List Char
  | [] => []
  | token :: rest =>
      let written := gap last line token ++ token.value.toList
      written ++ layoutFrom (written.getLast?.or last) (max line token.line) rest

/-- The tokens as source text. -/
def layout (tokens : List Token) : String := String.ofList (layoutFrom none 1 tokens)

end StackLang.Token
