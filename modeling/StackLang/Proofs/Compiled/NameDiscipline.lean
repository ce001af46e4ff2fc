import StackLang.Proofs.Checking.Known
import StackLang.Proofs.Simulation.Compilation

/-!
# Faults of compiled sources

A source without syntax errors never runs out of operands and never carries out an
unknown operation.  It uses a variable that does not exist only if that was reported.
-/

namespace StackLang

/-- Loading declares a variable for every declared name. -/
theorem Analyzer.provides_environment (analyzer : Analyzer) :
    analyzer.Provides analyzer.symbols.environment := by
  intro scope name type declared
  obtain ⟨symbol, member, rfl, -⟩ := SymbolTable.mem_of_type? declared
  rw [SymbolTable.environment, (SymbolTable.foldl_define _).1, List.mem_eraseDups]
  exact List.mem_map_of_mem member

namespace Compilation

/-- The errors of a run that are excluded, or were reported when compiling. -/
structure KeepsNames (semanticErrors : Array SemanticError) (execution : Execution) : Prop where
  underflow : ∀ number, execution.error ≠ some (.stackUnderflow number)
  operation : ∀ code, execution.error ≠ some (.unknownOperation code)
  undefined : ∀ name, execution.error = some (.undefinedVariable name) →
    ∃ line, .undeclared name line ∈ semanticErrors

/-- A run of a source without syntax errors fails for want of a variable only if its name
was reported as undeclared, and never for want of an operand or an operation. -/
theorem name_discipline (source : String)
    (clean : (ofTokens (tokenize source)).syntaxErrors = #[])
    (small : (ofTokens (tokenize source)).assembly.instructions.length < 2 ^ 63) :
    ∃ image, Image.load (ofTokens (tokenize source)).bytecode = .ok image ∧
      ∀ settings,
        KeepsNames (ofTokens (tokenize source)).semanticErrors (image.run settings) := by
  have meets := Program.ofTokens_loose (tokenize source)
  have respects := Program.respects_of_analyze _ meets (False.elim ·)
    (Analyzer.checkDeclared _ (Program.ofTokens (tokenize source)).program.analyze)
  obtain ⟨image, loaded, program, attains⟩ := attains source _ clean small
    (Analyzer.provides_environment _) respects
  refine ⟨image, loaded, ?_⟩
  intro settings
  have excused : ∀ fault, image.ending settings = .faulted fault →
      (Program.ofTokens (tokenize source)).program.analyze.Excuses fault := by
    intro fault faulted
    rw [Image.ending, program] at faulted
    exact Setup.allows_of_attains (attains settings) (setup_halts _ _ small) faulted
  have reported {fault : Fault} (error : (image.run settings).error = some fault) :
      (Program.ofTokens (tokenize source)).program.analyze.Excuses fault ∨
        fault = .stepLimit settings.budget := by
    rw [image.run_error] at error
    exact (Ending.error?_eq_some error).imp_left (excused fault)
  constructor
  · intro number error
    rcases reported error with excuse | limit
    · cases excuse with
      | operands within => cases within
    · cases limit
  · intro code error
    rcases reported error with excuse | limit
    · cases excuse with
      | operands within => cases within
    · cases limit
  · intro name error
    rcases reported error with excuse | limit
    · cases excuse with
      | operands within => cases within
      | undeclared listed => exact ⟨_, listed⟩
    · cases limit

/-- An undeclared name beside a loop that is left by a break and input that is read. -/
theorem name_discipline_undeclared :
    let source := "int x; inputln(x); while (x < 3) \x7b f(x); if (x == y) break; x++; \x7d"
    (ofTokens (tokenize source)).syntaxErrors = #[] ∧
      (ofTokens (tokenize source)).assembly.instructions.length < 2 ^ 63 ∧
      ∃ image, Image.load (ofTokens (tokenize source)).bytecode = .ok image ∧
        ∀ settings,
          KeepsNames (ofTokens (tokenize source)).semanticErrors (image.run settings) := by
  intro source
  have clean : (ofTokens (tokenize source)).syntaxErrors = #[] := by decide +kernel
  have small : (ofTokens (tokenize source)).assembly.instructions.length < 2 ^ 63 := by
    decide +kernel
  exact ⟨clean, small, name_discipline source clean small⟩

end Compilation

end StackLang
