import Mathlib.Data.List.Nodup
import StackLang.Proofs.Automaton.Order
import StackLang.Proofs.Text.Escape
import StackLang.Text.Split

/-!
# What a drawing shows

`drawnEdges` reads the edges and their labels off the lines of a drawing.  What it finds in the
drawing of an automaton is the table of its transitions: an edge line for each two states that
are joined, and in its label the symbols that join them.
-/

namespace StackLang

open Text

/-- The state whose number stands behind a mark. -/
def nodeOf? (mark name : List Char) : Option Nat :=
  (mark.isPrefixOf? name).bind (Numeral.natural? 10)

/-- The edge that a line draws, if it draws one, with the symbols of its label. -/
def drawnEdge? (line : List Char) : Option ((Nat × Nat) × List Char) := do
  let (source, behindSource) ← splitFirst? ' ' line
  let (arrow, behindArrow) ← splitFirst? ' ' behindSource
  guard (arrow = "->".toList)
  let (target, attributes) ← splitFirst? ' ' behindArrow
  let (front, closing) ← splitLast? '"' attributes
  let (opening, label) ← splitFirst? '"' front
  guard (opening = "[label=".toList ∧ closing = "];".toList)
  let edge := (← nodeOf? "\ts".toList source, ← nodeOf? "s".toList target)
  return (edge, ← unescape? label)

/-- The edges that a text draws, line by line. -/
def drawnEdges (text : String) : List ((Nat × Nat) × List Char) :=
  (lines text).filterMap fun line => drawnEdge? line.toList

/-- The transitions that a text draws: the symbols of each label with the states of its edge. -/
def drawnTransitions (text : String) : List (Nat × Char × Nat) :=
  (drawnEdges text).flatMap fun drawn =>
    drawn.2.map fun symbol => (drawn.1.1, symbol, drawn.1.2)

namespace Automaton

/-- The line of an accepting state, without its end. -/
def acceptChars (entry : Nat × TokenKind) : List Char :=
  '\t' :: 's' :: Nat.toDigits 10 entry.1 ++ ' ' :: ("[shape=doublecircle,".toList ++
    ' ' :: ("xlabel=\"".toList ++ entry.2.text.toList ++ "\"];".toList))

/-- The line of an edge, without its end. -/
def edgeChars (automaton : Automaton) (edge : Nat × Nat) : List Char :=
  '\t' :: 's' :: Nat.toDigits 10 edge.1 ++ ' ' :: ("->".toList ++
    ' ' :: ('s' :: Nat.toDigits 10 edge.2 ++ ' ' :: ("[label=".toList ++
      '"' :: ((escape (automaton.symbols edge)).toList ++ '"' :: "];".toList))))

/-- All lines of a drawing but the last, without their ends. -/
def drawing (automaton : Automaton) : List (List Char) :=
  "digraph automaton \x7b".toList :: "\trankdir=LR;".toList ::
    (automaton.accepted.map acceptChars ++ automaton.edges.map automaton.edgeChars)

theorem toList_acceptLine (entry : Nat × TokenKind) :
    (acceptLine entry).toList = acceptChars entry ++ ['\n'] := by
  unfold acceptLine acceptChars
  simp only [String.toList_append, Numeral.toList_toString, List.append_assoc, List.cons_append]
  rfl

theorem toList_edgeLine (automaton : Automaton) (edge : Nat × Nat) :
    (automaton.edgeLine edge).toList = automaton.edgeChars edge ++ ['\n'] := by
  unfold edgeLine edgeChars
  simp only [String.toList_append, Numeral.toList_toString, List.append_assoc, List.cons_append]
  rfl

theorem toDot_eq_unlines (automaton : Automaton) :
    automaton.toDot = unlines (automaton.drawing.map String.ofList) ++ "\x7d" := by
  apply String.toList_injective
  unfold toDot
  simp only [String.toList_append, String.toList_join, unlines, drawing, List.flatMap_map,
    toList_acceptLine, toList_edgeLine, List.map_cons, List.map_append, List.map_map,
    List.flatMap_cons, List.flatMap_append, Function.comp_apply, String.toList_ofList,
    ← List.append_assoc]
  have heading : "digraph automaton \x7b\n\trankdir=LR;\n".toList =
      "digraph automaton \x7b".toList ++ "\n".toList ++ "\trankdir=LR;".toList ++ "\n".toList := by
    decide
  rw [heading]
  rfl

theorem not_mem_toDigits {char : Char} (noDigit : char.isDigit = false) (number : Nat) :
    char ∉ Nat.toDigits 10 number := by
  intro member
  rw [Numeral.toDigits_isDigit number char member] at noDigit
  contradiction

/-- A line without an arrow as its second word draws no edge. -/
theorem drawnEdge?_eq_none {first second : List Char} (firstWord : ' ' ∉ first)
    (secondWord : ' ' ∉ second) (noArrow : second ≠ "->".toList) (rest : List Char) :
    drawnEdge? (first ++ ' ' :: (second ++ ' ' :: rest)) = none := by
  unfold drawnEdge?
  rw [splitFirst?_append firstWord]
  simp only [Option.bind_eq_bind, Option.bind_some, splitFirst?_append secondWord, guard,
    if_neg noArrow]
  rfl

theorem drawnEdge?_acceptChars (entry : Nat × TokenKind) :
    drawnEdge? (acceptChars entry) = none := by
  apply drawnEdge?_eq_none
  · simp [not_mem_toDigits]
  · decide
  · decide

/-- The line of an edge draws this edge with its symbols. -/
theorem drawnEdge?_edgeChars (automaton : Automaton) (edge : Nat × Nat) :
    drawnEdge? (automaton.edgeChars edge) = some (edge, automaton.symbols edge) := by
  have source : ' ' ∉ '\t' :: 's' :: Nat.toDigits 10 edge.1 := by
    simp [not_mem_toDigits]
  have arrow : ' ' ∉ "->".toList := by decide
  have target : ' ' ∉ 's' :: Nat.toDigits 10 edge.2 := by
    simp [not_mem_toDigits]
  have opening : '"' ∉ "[label=".toList := by decide
  have closing : '"' ∉ "];".toList := by decide
  have attributes := splitLast?_append closing
    ("[label=".toList ++ '"' :: (escape (automaton.symbols edge)).toList)
  rw [List.append_assoc, List.cons_append] at attributes
  have sourceNode : nodeOf? "\ts".toList ('\t' :: 's' :: Nat.toDigits 10 edge.1) = some edge.1 := by
    simp [nodeOf?, List.isPrefixOf?, Numeral.natural?_toDigits]
  have targetNode : nodeOf? "s".toList ('s' :: Nat.toDigits 10 edge.2) = some edge.2 := by
    simp [nodeOf?, List.isPrefixOf?, Numeral.natural?_toDigits]
  unfold drawnEdge? edgeChars
  rw [splitFirst?_append source]
  simp only [Option.bind_eq_bind, Option.bind_some, splitFirst?_append arrow,
    splitFirst?_append target, attributes, splitFirst?_append opening, sourceNode, targetNode,
    unescape?_escape, guard, and_self, if_true, Option.pure_def]

theorem clean_acceptChars (entry : Nat × TokenKind) : Clean (String.ofList (acceptChars entry)) := by
  have kind : '\n' ∉ entry.2.text.toList := by
    cases entry.2 <;> decide
  unfold Clean acceptChars
  rw [String.toList_ofList]
  constructor
  · simp [not_mem_toDigits, kind]
  · simp [List.getLast?_append, List.getLast?_cons]

theorem clean_edgeChars (automaton : Automaton) (edge : Nat × Nat) :
    Clean (String.ofList (automaton.edgeChars edge)) := by
  unfold Clean edgeChars
  rw [String.toList_ofList]
  constructor
  · simp [not_mem_toDigits, not_mem_escape]
  · simp [List.getLast?_append, List.getLast?_cons]

theorem clean_drawing (automaton : Automaton) :
    ∀ line ∈ automaton.drawing.map String.ofList, Clean line := by
  simp only [drawing, List.map_cons, List.map_append, List.map_map, List.mem_cons, List.mem_append,
    List.mem_map, Function.comp_apply]
  rintro line (rfl | rfl | ⟨entry, -, rfl⟩ | ⟨edge, -, rfl⟩)
  · constructor <;> decide
  · constructor <;> decide
  · exact clean_acceptChars entry
  · exact automaton.clean_edgeChars edge

theorem lines_toDot (automaton : Automaton) :
    lines automaton.toDot = automaton.drawing.map String.ofList ++ ["\x7d"] := by
  have closing : lineChars "\x7d".toList = ["\x7d".toList] := by decide
  rw [lines, toDot_eq_unlines, String.toList_append, lineChars_unlines automaton.clean_drawing,
    closing, List.map_append, List.map_map]
  simp [Function.comp_def]

/-- A drawing shows each edge once, with its symbols. -/
theorem drawnEdges_toDot (automaton : Automaton) :
    drawnEdges automaton.toDot = automaton.edges.map fun edge => (edge, automaton.symbols edge) := by
  have opening : drawnEdge? "digraph automaton \x7b".toList = none := by decide
  have direction : drawnEdge? "\trankdir=LR;".toList = none := by decide
  have closing : drawnEdge? "\x7d".toList = none := by decide
  rw [drawnEdges, lines_toDot, List.filterMap_append, List.filterMap_map]
  simp only [drawing, List.filterMap_cons, List.filterMap_append, List.filterMap_map,
    Function.comp_def, String.toList_ofList, drawnEdge?_acceptChars, drawnEdge?_edgeChars, opening,
    direction, closing, List.filterMap_none, List.filterMap_nil, List.filterMap_eq_map',
    List.nil_append, List.append_nil]

theorem mem_drawnTransitions {automaton : Automaton} {state next : Nat} {symbol : Char} :
    (state, symbol, next) ∈ drawnTransitions automaton.toDot ↔
      automaton.next? state symbol = some next := by
  rw [drawnTransitions, drawnEdges_toDot, List.flatMap_map, List.mem_flatMap]
  constructor
  · rintro ⟨edge, -, member⟩
    obtain ⟨char, shown, same⟩ := List.mem_map.mp member
    cases same
    exact mem_symbols.mp shown
  · intro step
    refine ⟨(state, next), mem_edges.mpr ⟨symbol, step⟩, ?_⟩
    apply List.mem_map.mpr
    exact ⟨symbol, mem_symbols.mpr step, rfl⟩

/-- No transition is drawn twice. -/
theorem nodup_drawnTransitions (automaton : Automaton) :
    (drawnTransitions automaton.toDot).Nodup := by
  rw [drawnTransitions, drawnEdges_toDot, List.flatMap_map, List.nodup_flatMap]
  constructor
  · intro edge _
    apply List.Nodup.map
    · intro first second same
      exact (Prod.mk.inj (Prod.mk.inj same).2).1
    · exact (automaton.symbols_ascending edge).imp Char.ne_of_lt
  · apply automaton.edges_ascending.imp
    intro first second ordered transition here there
    obtain ⟨char, -, rfl⟩ := List.mem_map.mp here
    obtain ⟨other, -, same⟩ := List.mem_map.mp there
    obtain ⟨sources, -, targets⟩ : second.1 = first.1 ∧ other = char ∧ second.2 = first.2 := by simpa using same
    rw [Prod.lex_def] at ordered
    omega

/-- A drawing depends on nothing but what the table says, however the table was filled and in
whatever order its entries are met, and it shows every transition once: in the label of the one
line of its edge, where the symbols ascend. -/
theorem toDot_shows_table {operations : List Operation} {met : Automaton}
    (iterated : Reordered (after operations) met) :
    (∀ others again, SameTable (after operations) (after others) →
      Reordered (after others) again → again.toDot = met.toDot) ∧
    (∀ others, operations.Perm others →
      ((operations.filterMap Operation.transition?).map Prod.fst).Nodup →
      ((operations.filterMap Operation.accepting?).map Prod.fst).Nodup →
      SameTable (after operations) (after others)) ∧
    ((drawnEdges met.toDot).map Prod.fst).Pairwise (Prod.Lex (· < ·) (· < ·)) ∧
    (∀ edge ∈ drawnEdges met.toDot, edge.2 ≠ [] ∧ edge.2.Pairwise (· < ·)) ∧
    ∀ state symbol next, (drawnTransitions met.toDot).count (state, symbol, next) =
      if (after operations).next? state symbol = some next then 1 else 0 := by
  refine ⟨?_, ?_, ?_, ?_, ?_⟩
  · intro others again same iteratedAgain
    apply toDot_eq_of_same_table
    exact iteratedAgain.sameTable.symm.trans (same.symm.trans iterated.sameTable)
  · intro others reordered symbols states
    exact (after_reordered reordered symbols states).sameTable
  · rw [drawnEdges_toDot, List.map_map]
    simpa [Function.comp_def] using met.edges_ascending
  · rw [drawnEdges_toDot]
    intro drawn member
    obtain ⟨edge, joined, rfl⟩ := List.mem_map.mp member
    constructor
    · obtain ⟨symbol, step⟩ := mem_edges.mp joined
      exact List.ne_nil_of_mem (mem_symbols.mpr step)
    · exact met.symbols_ascending edge
  · intro state symbol next
    rw [met.nodup_drawnTransitions.count, iterated.sameTable.transitions]
    simp only [mem_drawnTransitions]

theorem toDot_shows_table_overwritten :
    let operations : List Operation := [.addTransition 0 '"' 2, .addTransition 0 'a' 1,
      .addTransition 0 '"' 1, .markAccept 1 .identifier]
    let met := after [.markAccept 1 .identifier, .addTransition 0 'a' 1, .addTransition 0 '"' 1]
    Reordered (after operations) met ∧ met.toDot = (after operations).toDot ∧
      ((drawnEdges met.toDot).map Prod.fst).Pairwise (Prod.Lex (· < ·) (· < ·)) ∧
      (drawnTransitions met.toDot).count (0, '"', 1) = 1 ∧
      (drawnTransitions met.toDot).count (0, '"', 2) = 0 := by
  intro operations met
  have iterated : Reordered (after operations) met := ⟨List.Perm.swap _ _ _, List.Perm.refl _⟩
  obtain ⟨unique, -, edges, -, shown⟩ := toDot_shows_table iterated
  refine ⟨iterated, ?_, edges, ?_, ?_⟩
  · exact (unique operations (after operations) ⟨fun _ _ => rfl, fun _ => rfl⟩
      ⟨List.Perm.refl _, List.Perm.refl _⟩).symm
  · exact shown 0 '"' 1
  · exact shown 0 '"' 2

end Automaton

end StackLang
