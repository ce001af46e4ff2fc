import StackLang.Compilation
import StackLang.Proofs.Layout.Checking
import StackLang.Proofs.Layout.Program

/-!
# Layout and compilation

The lines of its tokens influence nothing that a program is compiled to.  They are seen
in the errors only, and there in nothing but the line that is named.
-/

namespace StackLang.Compilation

/-- What is compiled, without the lines in the errors. -/
def unlined (compilation : Compilation) : Compilation :=
  { compilation with
    syntaxErrors := compilation.syntaxErrors.map SyntaxError.unlined
    semanticErrors := compilation.semanticErrors.map SemanticError.unlined }

/-- Tokens without lines are compiled to what the tokens are compiled to. -/
theorem ofTokens_unlined (tokens : List Token) :
    (ofTokens (tokens.map Token.unlined)).unlined = (ofTokens tokens).unlined := by
  have twice : SyntaxError.unlined ∘ SyntaxError.unlined = SyntaxError.unlined := by
    funext error
    obtain ⟨complaint, token?⟩ := error
    cases token? with
    | none => rfl
    | some token => rfl
  simp only [unlined, ofTokens, Program.ofTokens_unlined, Reading.Outcome.unlined,
    Program.lower_unlined, Program.analyze_symbols_unlined, Program.analyze_errors_unlined,
    Array.map_map, twice]

/-- Tokens that differ in their lines alone are compiled to the same, with errors that
differ in their lines alone. -/
theorem ofTokens_of_same_lexemes {one other : List Token}
    (alike : one.map Token.lexeme = other.map Token.lexeme) :
    (ofTokens one).trace = (ofTokens other).trace ∧
      (ofTokens one).assembly = (ofTokens other).assembly ∧
      (ofTokens one).symbols = (ofTokens other).symbols ∧
      (ofTokens one).syntaxErrors.map SyntaxError.unlined =
        (ofTokens other).syntaxErrors.map SyntaxError.unlined ∧
      (ofTokens one).semanticErrors.map SemanticError.unlined =
        (ofTokens other).semanticErrors.map SemanticError.unlined := by
  have same : (ofTokens one).unlined = (ofTokens other).unlined := by
    rw [← ofTokens_unlined one, ← ofTokens_unlined other,
      Token.map_unlined_eq_of_map_lexeme_eq alike]
  obtain ⟨trace, syntaxErrors, semanticErrors, symbols, assembly⟩ := mk.inj same
  exact ⟨trace, assembly, symbols, syntaxErrors, semanticErrors⟩

/-- An assignment without a value to a name that is not declared, on three lines and on
one. -/
theorem ofTokens_of_same_lexemes_break :
    let broken : List Token :=
      [⟨"x", .identifier, 1⟩, ⟨"=", .operator, 2⟩, ⟨";", .delimiter, 3⟩]
    let whole : List Token :=
      [⟨"x", .identifier, 1⟩, ⟨"=", .operator, 1⟩, ⟨";", .delimiter, 1⟩]
    broken.map Token.lexeme = whole.map Token.lexeme ∧
      (ofTokens broken).trace = (ofTokens whole).trace ∧
      (ofTokens broken).assembly = (ofTokens whole).assembly ∧
      (ofTokens broken).symbols = (ofTokens whole).symbols ∧
      (ofTokens broken).syntaxErrors.map SyntaxError.unlined =
        (ofTokens whole).syntaxErrors.map SyntaxError.unlined ∧
      (ofTokens broken).semanticErrors.map SemanticError.unlined =
        (ofTokens whole).semanticErrors.map SemanticError.unlined :=
  ⟨rfl, ofTokens_of_same_lexemes rfl⟩

end StackLang.Compilation
