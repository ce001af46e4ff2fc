import StackLang.Proofs.Loading.Compilation
import StackLang.Proofs.Simulation.Run

/-!
# Runs of compiled sources

A source that is read without syntax errors is interpreted directly, or compiled,
loaded and run.  Both end in the same way with the same variables, input and output,
or neither ends.
-/

namespace StackLang

/-- The tree of a source without syntax errors has no gaps, and its names are not
those of labels. -/
theorem TreeStandard.strict_solid {tokens : List Token}
    (recognised : ∀ token ∈ tokens, Lexeme.Recognised token) :
    (TreeStandard.strict tokens).Implies .solid where
  gaps := id
  name token name := ((recognised token name.2).declarable name.1).plain
  literal _ _ := trivial
  foreseen _ _ := trivial

/-- What a program means: how its interpretation ends within some bound on the rounds
of loops.  A program that exceeds every bound means nothing. -/
def Program.Means (program : Program) (store : Store) (outcome : Outcome) : Prop :=
  ∃ bound, program.interpret bound store = outcome ∧ outcome.progress ≠ .exhausted

namespace Compilation

open Setup

variable {source : String}

/-- What a source means before anything has been executed. -/
def initialStore (tokens : List Token) (input : List String) : Store where
  environment := (Program.ofTokens tokens).program.analyze.symbols.environment
  input := input
  output := ""

/-- The setup of the compilation of tokens. -/
def setup (tokens : List Token) (discipline : Discipline)
    (small : (ofTokens tokens).assembly.instructions.length < 2 ^ 63) : Setup :=
  (Program.ofTokens tokens).program.setup (Program.ofTokens tokens).program.analyze.symbols
    discipline small

theorem setup_halts (tokens : List Token) (discipline : Discipline)
    (small : (ofTokens tokens).assembly.instructions.length < 2 ^ 63) (state : MachineState)
    (position : state.position = Listing.size (Program.ofTokens tokens).program.lower.listing) :
    state.Halts (setup tokens discipline small).program :=
  Program.setup_halts position

/-- A compiled source attains whatever its tree means, under any discipline that the
tree respects. -/
theorem attains (source : String) (discipline : Discipline)
    (clean : (ofTokens (tokenize source)).syntaxErrors = #[])
    (small : (ofTokens (tokenize source)).assembly.instructions.length < 2 ^ 63)
    (holds : discipline.holds (initialStore (tokenize source) []).environment)
    (respects : (Program.ofTokens (tokenize source)).program.Respects discipline) :
    ∃ image, Image.load (ofTokens (tokenize source)).bytecode = .ok image ∧
      image.program = (setup (tokenize source) discipline small).program ∧
      ∀ settings bound, (setup (tokenize source) discipline small).Attains 0 bound
        (Listing.size (Program.ofTokens (tokenize source)).program.lower.listing) none
        ((Program.ofTokens (tokenize source)).program.interpret bound
          (initialStore (tokenize source) settings.input)) (image.start settings) := by
  have recognised := tokenize_recognised source
  have readable := readable recognised small
  obtain ⟨image, loaded, program, environment⟩ := Image.load_ofListing readable
  refine ⟨image, loaded, program, ?_⟩
  intro settings bound
  have solid := (TreeStandard.strict_solid recognised).program _ (Program.ofTokens_strict clean)
  apply Program.simulates bound _ solid respects Program.setup_placed
  exact ⟨[], ⟨environment, readable.plain, rfl, rfl⟩, holds, rfl, rfl⟩

/-- The bytecode of a source is loaded.  Running it and interpreting its tree end in the
same way, with the same variables, input and output, or neither of them ends. -/
def RunsAsInterpreted (source : String) : Prop :=
  ∃ image, Image.load (ofTokens (tokenize source)).bytecode = .ok image ∧
    ∀ settings : RunSettings,
      (∀ outcome, (Program.ofTokens (tokenize source)).program.Means
          (initialStore (tokenize source) settings.input) outcome →
        ∃ result, (image.start settings).RunsTo image.program result ∧
          outcome.Describes (ofTokens (tokenize source)).assembly.labels.entries result) ∧
      ((¬ ∃ outcome, (Program.ofTokens (tokenize source)).program.Means
          (initialStore (tokenize source) settings.input) outcome) →
        (image.start settings).RunsForever image.program)

/-- A source without syntax errors runs as it is interpreted. -/
theorem runs_as_interpreted (source : String)
    (clean : (ofTokens (tokenize source)).syntaxErrors = #[])
    (small : (ofTokens (tokenize source)).assembly.instructions.length < 2 ^ 63) :
    RunsAsInterpreted source := by
  obtain ⟨image, loaded, program, attains⟩ :=
    attains source .free clean small trivial (Discipline.free_program _)
  refine ⟨image, loaded, ?_⟩
  intro settings
  rw [program]
  constructor
  · rintro outcome ⟨bound, rfl, ends⟩
    exact (attains settings bound).describes (setup_halts _ _ small) ends
  · intro meaningless
    apply runsForever_of_exhausted (attains settings)
    intro bound
    apply Decidable.byContradiction
    intro ends
    exact meaningless ⟨_, bound, rfl, ends⟩

/-- A switch in a loop that it does not leave. -/
theorem runs_as_interpreted_switch :
    let source := "int i; for (i = 0; i < 3; i++) switch (i) \x7b case 1: break; default: print(i); \x7d"
    (ofTokens (tokenize source)).syntaxErrors = #[] ∧
      (ofTokens (tokenize source)).assembly.instructions.length < 2 ^ 63 ∧
      RunsAsInterpreted source := by
  intro source
  have clean : (ofTokens (tokenize source)).syntaxErrors = #[] := by decide +kernel
  have small : (ofTokens (tokenize source)).assembly.instructions.length < 2 ^ 63 := by
    decide +kernel
  exact ⟨clean, small, runs_as_interpreted source clean small⟩

end Compilation

end StackLang
