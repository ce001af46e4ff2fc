import StackLang.Grammar.Nonterminal

/-!
# Traces

A trace is a parse tree as a flat list: every nonterminal that is entered and
every token that is read stands on a line of its own, indented by its depth.
-/

namespace StackLang

/-- What a trace line tells. -/
inductive TraceEntry where
  | enter (nonterminal : Nonterminal)
  | symbol (text : String)
  | identifier (name : String)
  | literal (text : String)
  /-- A semicolon at which reading resumed after an error. -/
  | resumed
  deriving DecidableEq, Repr

/-- An entry of a trace with its depth. -/
structure TraceLine where
  depth : Nat
  entry : TraceEntry
  deriving DecidableEq, Repr

/-- The text of a trace entry. -/
def TraceEntry.text : TraceEntry → String
  | .enter nonterminal => nonterminal.text
  | .symbol text => text
  | .identifier name => "IDENTIFIER: " ++ name
  | .literal text => "LITERAL: " ++ text
  | .resumed => "; (recovered)"

/-- The text of a trace line, two spaces deeper for each level. -/
def TraceLine.text (line : TraceLine) : String :=
  String.ofList (List.replicate (2 * line.depth) ' ') ++ line.entry.text

end StackLang
