import StackLang.Automaton.Table
import StackLang.Lexeme.State

/-!
# The table of the language's lexemes

`Automaton.language` lists the transition function of `Lexeme.State` as a table
over the ASCII characters; no other character continues a lexeme.
-/

namespace StackLang.Automaton

/-- The ASCII characters. -/
def alphabet : List Char := (List.range 128).map Char.ofNat

/-- The transitions out of one state. -/
def transitionsFrom (state : Lexeme.State) : List (Char × Nat) :=
  alphabet.filterMap fun symbol =>
    (state.next? symbol).map fun next => (symbol, next.number)

/-- The automaton with the transitions and the accepted kind of one more state. -/
def addState (automaton : Automaton) (state : Lexeme.State) : Automaton :=
  let linked := (transitionsFrom state).foldl
    (fun automaton edge => automaton.addTransition state.number edge.1 edge.2) automaton
  match state.kind? with
  | some kind => linked.markAccept state.number kind
  | none => linked

/-- The automaton of the literals and identifiers of the language. -/
def language : Automaton := Lexeme.State.all.foldl addState empty

end StackLang.Automaton
