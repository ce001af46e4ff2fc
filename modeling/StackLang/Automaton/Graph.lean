import StackLang.Automaton.Table
import StackLang.Text.Escape

/-!
# Drawing an automaton

`Automaton.toDot` writes a GraphViz digraph.  Transitions between the same two
states share one edge.  Accepting states, edges and the symbols of an edge are
sorted, so the drawing depends on the table alone and not on the order in which
it was filled.
-/

namespace StackLang.Automaton

/-- Order pairs of states by their first, then by their second component. -/
def pairLE (left right : Nat × Nat) : Bool :=
  left.1 < right.1 || (left.1 == right.1 && left.2 ≤ right.2)

/-- The pairs of states joined by a transition, each one once, in order. -/
def edges (automaton : Automaton) : List (Nat × Nat) :=
  ((automaton.transitions.entries.map fun entry => (entry.1.1, entry.2)).eraseDups).mergeSort pairLE

/-- The symbols that lead along an edge, in code point order. -/
def symbols (automaton : Automaton) (edge : Nat × Nat) : List Char :=
  let here := automaton.transitions.entries.filter fun entry =>
    entry.1.1 == edge.1 && entry.2 == edge.2
  (here.map fun entry => entry.1.2).mergeSort fun left right => left.toNat ≤ right.toNat

/-- The accepting states with their kinds, in order. -/
def accepted (automaton : Automaton) : List (Nat × TokenKind) :=
  automaton.accepting.entries.mergeSort fun left right => left.1 ≤ right.1

/-- The line of an accepting state. -/
def acceptLine (entry : Nat × TokenKind) : String :=
  s!"\ts{entry.1} [shape=doublecircle, xlabel=\"{entry.2.text}\"];\n"

/-- The line of an edge. -/
def edgeLine (automaton : Automaton) (edge : Nat × Nat) : String :=
  s!"\ts{edge.1} -> s{edge.2} [label=\"{Text.escape (automaton.symbols edge)}\"];\n"

/-- The automaton as a GraphViz digraph. -/
def toDot (automaton : Automaton) : String :=
  "digraph automaton \x7b\n\trankdir=LR;\n" ++
    String.join (automaton.accepted.map acceptLine) ++
    String.join (automaton.edges.map automaton.edgeLine) ++ "\x7d"

end StackLang.Automaton
