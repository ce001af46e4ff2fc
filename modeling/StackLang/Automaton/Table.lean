import StackLang.OrderedMap
import StackLang.Token.Basic

/-!
# Deterministic automata as tables

An `Automaton` is a transition map, with gaps, from a state and a character to a
state, together with the kinds that accepting states stand for.  A later entry
replaces an earlier one under the same key.
-/

namespace StackLang

/-- A transition table with the kinds of its accepting states. -/
structure Automaton where
  transitions : OrderedMap (Nat × Char) Nat
  accepting : OrderedMap Nat TokenKind

namespace Automaton

/-- The automaton without transitions. -/
def empty : Automaton := ⟨.empty, .empty⟩

/-- Let `symbol` lead from `state` to `next`. -/
def addTransition (automaton : Automaton) (state : Nat) (symbol : Char) (next : Nat) : Automaton :=
  { automaton with transitions := automaton.transitions.insert (state, symbol) next }

/-- Let `state` accept lexemes of a kind. -/
def markAccept (automaton : Automaton) (state : Nat) (kind : TokenKind) : Automaton :=
  { automaton with accepting := automaton.accepting.insert state kind }

/-- The state that `symbol` leads to. -/
def next? (automaton : Automaton) (state : Nat) (symbol : Char) : Option Nat :=
  automaton.transitions.get? (state, symbol)

/-- The kind that a state accepts. -/
def kind? (automaton : Automaton) (state : Nat) : Option TokenKind :=
  automaton.accepting.get? state

/-- Whether a state accepts. -/
def isAccepting (automaton : Automaton) (state : Nat) : Bool :=
  (automaton.kind? state).isSome

/-- The states passed by reading the characters one after another, from the given
state on; a character that leads nowhere ends the path. -/
def path (automaton : Automaton) (state : Nat) : List Char → List (Option Nat)
  | [] => [some state]
  | symbol :: rest =>
      some state ::
        match automaton.next? state symbol with
        | some next => automaton.path next rest
        | none => [none]

/-- The state reached by reading all characters. -/
def run? (automaton : Automaton) (state : Nat) : List Char → Option Nat
  | [] => some state
  | symbol :: rest => (automaton.next? state symbol).bind fun next => automaton.run? next rest

theorem next?_addTransition (automaton : Automaton) (state next other : Nat)
    (symbol char : Char) :
    (automaton.addTransition state symbol next).next? other char =
      if (state, symbol) = (other, char) then some next else automaton.next? other char :=
  OrderedMap.get?_insert automaton.transitions (state, symbol) (other, char) next

theorem kind?_markAccept (automaton : Automaton) (state other : Nat) (kind : TokenKind) :
    (automaton.markAccept state kind).kind? other =
      if state = other then some kind else automaton.kind? other :=
  OrderedMap.get?_insert automaton.accepting state other kind

end Automaton

end StackLang
