import StackLang.Lexeme.Scan
import StackLang.Proofs.Checking.Faults
import StackLang.Proofs.Completeness.Rendering
import StackLang.Proofs.Grammar.Rendered
import StackLang.Proofs.Reading.Statement
import StackLang.Proofs.Termination.Expression

/-!
# Diagnosed expressions

What is wrong with an expression of the grammar is told from its tree alone: the check
reports the faults of the nodes in postorder, and nothing else.
-/

namespace StackLang

open Terminal (Opens)

namespace Reading

/-- An expression, with a semicolon, a closing parenthesis, a comma or a colon behind it, is read
as a tree that it renders.  Whatever is known before, the check of the tree adds the faults of its
nodes, each behind those of its operands and arguments, and nothing else.  An operator on an
operand of unknown type has no fault, and the type of the whole is unknown if and only if some
node that is in no argument of a call has a fault that hides its type. -/
theorem expression_diagnosed {tokens rest : List Token}
    (derived : (Phrase.category .expression).Derives tokens)
    (follows : Opens (Nonterminal.words [";", ")", ",", ":"]) rest)
    (before : Cursor) (position : before.rest = tokens ++ rest) :
    ∃ tree after, tree.Renders 0 tokens ∧ expression.run before = (tree, after) ∧
      after.rest = rest ∧ after.errors = before.errors ∧
      (Marked before → after.stuck = before.stuck) ∧
      ∀ analyzer : Analyzer,
        tree.check.run analyzer =
          (analyzer.typeOf? tree, analyzer.knowing (tree.faults analyzer)) ∧
        (∀ node ∈ tree.postorder, ∀ operand ∈ node.operands,
          analyzer.typeOf? operand = none → node.ownFaults analyzer = []) ∧
        (analyzer.typeOf? tree = none ↔
          ∃ node ∈ tree.outer, ∃ error ∈ node.ownFaults analyzer, error.hidesType = true) := by
  obtain ⟨tree, renders⟩ := Expr.exists_renders_of_derives derived
  obtain ⟨found, unread, errors⟩ :=
    expression_restores tree tokens rest (Nat.le_refl _) renders follows before position
  refine ⟨tree, (expression.run before).2, renders, Prod.ext found rfl, unread, errors,
    (expression_ends before).stuck, ?_⟩
  intro analyzer
  refine ⟨?_, ?_, Expr.typeOf?_eq_none_iff renders.meets⟩
  · have checked : Analysis.Diagnoses analyzer tree.check _ _ := tree.check_diagnoses
    simpa [Analyzer.knowing] using checked []
  · exact fun node _ operand => Expr.ownFaults_of_unknown

/-- Arguments that are wrong in several ways, and an operation that hides the ones above it. -/
theorem expression_diagnosed_call :
    let tokens := tokenize "rate(missing, 9223372036854775808, \"s\") + -\"t\" >= 2 && other()"
    let semicolon : Token := ⟨";", .delimiter, 1⟩
    let rate : Signature := ⟨.int, "rate", [(.int, "a"), (.char, "b"), (.boolean, "c")]⟩
    let analyzer : Analyzer := { Analyzer.initial with methods := MethodTable.empty.declare rate }
    (Phrase.category .expression).Derives tokens ∧
      Opens (Nonterminal.words [";", ")", ",", ":"]) [semicolon] ∧
      ∃ tree after, expression.run (Cursor.initial (tokens ++ [semicolon])) = (tree, after) ∧
        after.rest = [semicolon] ∧
        tree.check.run analyzer = (none, analyzer.knowing [
          .undeclared "missing" 1,
          .integerOutOfRange "9223372036854775808" 1,
          .argumentMismatch "rate" 2 .char .int 1,
          .argumentMismatch "rate" 3 .boolean .string 1,
          .incompatibleTypes .int .string .sub 1,
          .methodUndeclared "other" 1]) := by
  intro tokens semicolon rate analyzer
  -- the source is scanned once, and not again with every evaluation below
  have scanned : tokens = [
      ⟨"rate", .identifier, 1⟩, ⟨"(", .delimiter, 1⟩, ⟨"missing", .identifier, 1⟩,
      ⟨",", .delimiter, 1⟩, ⟨"9223372036854775808", .integer, 1⟩, ⟨",", .delimiter, 1⟩,
      ⟨"\"s\"", .string, 1⟩, ⟨")", .delimiter, 1⟩, ⟨"+", .operator, 1⟩, ⟨"-", .operator, 1⟩,
      ⟨"\"t\"", .string, 1⟩, ⟨">=", .operator, 1⟩, ⟨"2", .integer, 1⟩, ⟨"&&", .operator, 1⟩,
      ⟨"other", .identifier, 1⟩, ⟨"(", .delimiter, 1⟩, ⟨")", .delimiter, 1⟩] := by
    decide +kernel
  have derived : (Phrase.category .expression).Derives tokens :=
    (expression_obeys _ (List.Subset.refl _)).derives trivial (by rw [scanned]; decide +kernel)
      (by rw [scanned]; decide +kernel)
  have opens : Opens (Nonterminal.words [";", ")", ",", ":"]) [semicolon] :=
    Expr.opens_of_mem List.mem_cons_self (by decide)
  obtain ⟨tree, after, -, reads, rest, -, -, checked⟩ :=
    expression_diagnosed derived opens (Cursor.initial (tokens ++ [semicolon])) rfl
  obtain rfl : (expression.run (Cursor.initial (tokens ++ [semicolon]))).1 = tree :=
    congrArg Prod.fst reads
  have unknown : analyzer.typeOf? (expression.run (Cursor.initial (tokens ++ [semicolon]))).1 =
      none := by
    rw [scanned]
    decide +kernel
  have faults : (expression.run (Cursor.initial (tokens ++ [semicolon]))).1.faults analyzer = [
      .undeclared "missing" 1,
      .integerOutOfRange "9223372036854775808" 1,
      .argumentMismatch "rate" 2 .char .int 1,
      .argumentMismatch "rate" 3 .boolean .string 1,
      .incompatibleTypes .int .string .sub 1,
      .methodUndeclared "other" 1] := by
    rw [scanned]
    decide +kernel
  refine ⟨derived, opens, _, after, reads, rest, ?_⟩
  rw [(checked analyzer).1, unknown, faults]

end Reading

end StackLang
