import StackLang.Proofs.Checking.Selectors
import StackLang.Proofs.Checking.Typed
import StackLang.Proofs.Simulation.Compilation

/-!
# Type soundness of compiled sources

Suppose that compiling a source reports no errors, that the source reads no input and
that it declares no name with two types.  Then nothing but a division by zero stops its
code, variables always have values of their types, and conditional jumps meet only
truth values.
-/

namespace StackLang

/-- No name of the source is declared with two types, in whatever scopes. -/
def SymbolTable.OneType (symbols : SymbolTable) : Prop :=
  ∀ symbol ∈ symbols.toList, ∀ other ∈ symbols.toList, symbol.name = other.name →
    (∀ number, symbol.name ≠ selectorName number) → symbol.type = other.type

/-- Then this also holds of the hidden variables of switches. -/
theorem Program.type_unique {tokens : List Token}
    (recognised : ∀ token ∈ tokens, Lexeme.Recognised token)
    (oneType : (Program.ofTokens tokens).program.analyze.symbols.OneType) {symbol other : Symbol}
    (member : symbol ∈ (Program.ofTokens tokens).program.analyze.symbols.toList)
    (listed : other ∈ (Program.ofTokens tokens).program.analyze.symbols.toList)
    (same : symbol.name = other.name) : symbol.type = other.type := by
  by_cases hidden : ∃ number, symbol.name = selectorName number
  · obtain ⟨number, hidden⟩ := hidden
    have keys : symbol.key = other.key :=
      Program.selectors_unique recognised (SymbolTable.mem_keys listed)
        (SymbolTable.mem_keys member) (same.symm.trans hidden) hidden
    obtain ⟨scopes, -⟩ := SymbolKey.mk.inj keys
    have type := SymbolTable.type?_of_mem member
    rw [scopes, same, SymbolTable.type?_of_mem listed] at type
    exact (Option.some.inj type).symm
  · exact oneType symbol member other listed same (not_exists.mp hidden)

/-- Loading declares every variable with its type and the default of that type. -/
theorem Analyzer.types_environment {analyzer : Analyzer}
    (unique : ∀ symbol ∈ analyzer.symbols.toList, ∀ other ∈ analyzer.symbols.toList,
      symbol.name = other.name → symbol.type = other.type) :
    analyzer.Types analyzer.symbols.environment := by
  have shown := (SymbolTable.foldl_define analyzer.symbols.toList).2
  constructor
  · intro scope name type declared
    obtain ⟨symbol, member, rfl, rfl⟩ := SymbolTable.mem_of_type? declared
    obtain ⟨last, found⟩ := SymbolTable.last?_isSome member
    obtain ⟨listed, same⟩ := SymbolTable.mem_of_last? found
    refine ⟨.initial last.type, ?_⟩
    rw [SymbolTable.environment, shown, found, ← unique last listed symbol member same]
    rfl
  · intro name entry found
    rw [SymbolTable.environment, shown] at found
    obtain ⟨symbol, -, rfl⟩ := Option.map_eq_some_iff.mp found
    exact Value.initial_hasType symbol.type

namespace Compilation

/-- What holds of the variables of a running program and of its next instruction. -/
structure WellTyped (symbols : SymbolTable) (program : Array Instruction) (state : MachineState) :
    Prop where
  /-- Every declared variable is there with its type. -/
  declared : ∀ symbol ∈ symbols.toList,
    ∃ value, state.environment.bindings.get? symbol.name = some ⟨symbol.type, value⟩
  /-- Every variable has a value of its type. -/
  holds : ∀ entry ∈ state.environment.toList, entry.2.value.HasType entry.2.type
  /-- A conditional jump takes a truth value, or an integer that stands for one. -/
  tests : ∀ instruction, program[state.position]? = some instruction →
    instruction.opcode = .jmc → ∀ value ∈ state.stack.head?,
      (∃ truth, value = .bool truth) ∨ value = .int 0 ∨ value = .int 1
  /-- What it compares tells whether the value counts as true. -/
  agrees : ∀ instruction, program[state.position]? = some instruction →
    instruction.opcode = .jmc → ∀ value ∈ state.stack.head?,
      (value.flag = canonicalFlag "1" ↔ value.isTruthy = true) ∧
        (value.flag = canonicalFlag "0" ↔ value.isTruthy = false)

theorem wellTyped_of_admits {setup : Setup} {final : Analyzer} {state : MachineState}
    (discipline : setup.discipline = .typed final)
    (plain : ∀ symbol ∈ final.symbols.toList, Plain symbol.name)
    (admits : setup.Admits state) : WellTyped final.symbols setup.program state := by
  obtain ⟨⟨store, shown, types⟩, pops⟩ := admits
  rw [discipline] at types pops
  have stands : ∀ instruction, setup.program[state.position]? = some instruction →
      instruction.opcode = .jmc → ∀ value ∈ state.stack.head?, value.StandsFor .boolean := pops
  constructor
  · intro symbol member
    obtain ⟨value, found⟩ := types.declared _ _ _ (SymbolTable.type?_of_mem member)
    exact ⟨value, (shown.lookup?_plain (plain symbol member)).trans found⟩
  · rintro ⟨name, entry⟩ member
    rw [shown.environment] at member
    rcases List.mem_append.mp member with stored | label
    · exact types.typed name entry
        (OrderedMap.lookup?_of_mem store.environment.bindings.distinct stored)
    · obtain ⟨⟨other, number⟩, -, same⟩ := List.mem_map.mp label
      obtain ⟨-, rfl⟩ := Prod.mk.inj same
      exact .int _
  · intro instruction here jump value top
    exact (stands instruction here jump value top).truth
  · intro instruction here jump value top
    rw [(stands instruction here jump value top).flag_eq]
    cases value.isTruthy <;> decide

/-- Nothing but a division by zero or the step limit stops a run, and every state that
the machine passes through is well typed. -/
structure RunsSafely (symbols : SymbolTable) (image : Image) (settings : RunSettings) : Prop where
  ends : (image.run settings).error = none ∨ (image.run settings).error = some .divisionByZero ∨
    (image.run settings).error = some (.stepLimit settings.budget)
  passes : ∀ steps state, Walk (fun _ => True) image.program steps (image.start settings) state →
    WellTyped symbols image.program state

/-- A source that is compiled without errors, reads no input and declares no name with two
types runs safely. -/
theorem type_soundness (source : String)
    (syntaxClean : (ofTokens (tokenize source)).syntaxErrors = #[])
    (semanticClean : (ofTokens (tokenize source)).semanticErrors = #[])
    (quiet : (Program.ofTokens (tokenize source)).program.isQuiet = true)
    (oneType : (Program.ofTokens (tokenize source)).program.analyze.symbols.OneType)
    (small : (ofTokens (tokenize source)).assembly.instructions.length < 2 ^ 63) :
    ∃ image, Image.load (ofTokens (tokenize source)).bytecode = .ok image ∧
      ∀ settings, RunsSafely (Program.ofTokens (tokenize source)).program.analyze.symbols
        image settings := by
  have recognised := tokenize_recognised source
  have strict := Program.ofTokens_strict syntaxClean
  have respects := Program.respects_of_analyze _ strict (fun _ => quiet)
    (Analyzer.checkTyped recognised semanticClean)
  have types := Analyzer.types_environment fun _ member _ listed =>
    Program.type_unique recognised oneType member listed
  obtain ⟨image, loaded, program, attains⟩ := attains source _ syntaxClean small types respects
  have plain : ∀ symbol ∈ (Program.ofTokens (tokenize source)).program.analyze.symbols.toList,
      Plain symbol.name := by
    intro symbol member
    have named := (Program.analyze_named _ (Program.ofTokens_loose (tokenize source))).symbols _
      (SymbolTable.mem_keys member)
    exact (named.1.declarable (TreeStandard.loose_scanned recognised)).plain
  refine ⟨image, loaded, ?_⟩
  intro settings
  constructor
  · cases error : (image.run settings).error with
    | none => exact .inl rfl
    | some fault =>
        rw [image.run_error] at error
        rcases Ending.error?_eq_some error with faulted | rfl
        · rw [Image.ending, program] at faulted
          have divides : fault = .divisionByZero :=
            Setup.allows_of_attains (attains settings) (setup_halts _ _ small) faulted
          exact .inr (.inl (congrArg some divides))
        · exact .inr (.inr rfl)
  · intro steps state walk
    rw [program] at walk ⊢
    exact wellTyped_of_admits rfl plain
      (Setup.admits_of_attains (attains settings) (setup_halts _ _ small) walk)

/-- A name that is declared in two scopes, and a division by it in a loop. -/
theorem type_soundness_scopes :
    let source := "class A \x7b int n = 3; float f(int n) \x7b boolean b = n < 3; while (b) n = 1 / n; return n; \x7d \x7d"
    (ofTokens (tokenize source)).syntaxErrors = #[] ∧
      (ofTokens (tokenize source)).semanticErrors = #[] ∧
      (Program.ofTokens (tokenize source)).program.isQuiet = true ∧
      (Program.ofTokens (tokenize source)).program.analyze.symbols.OneType ∧
      (ofTokens (tokenize source)).assembly.instructions.length < 2 ^ 63 ∧
      ∃ image, Image.load (ofTokens (tokenize source)).bytecode = .ok image ∧
        ∀ settings, RunsSafely (Program.ofTokens (tokenize source)).program.analyze.symbols
          image settings := by
  intro source
  have checked : (ofTokens (tokenize source)).syntaxErrors = #[] ∧
      (ofTokens (tokenize source)).semanticErrors = #[] ∧
      (Program.ofTokens (tokenize source)).program.isQuiet = true ∧
      (∀ symbol ∈ (Program.ofTokens (tokenize source)).program.analyze.symbols.toList,
        ∀ other ∈ (Program.ofTokens (tokenize source)).program.analyze.symbols.toList,
          symbol.name = other.name → symbol.type = other.type) ∧
      (ofTokens (tokenize source)).assembly.instructions.length < 2 ^ 63 := by
    decide +kernel
  obtain ⟨syntaxClean, semanticClean, quiet, types, small⟩ := checked
  have oneType : (Program.ofTokens (tokenize source)).program.analyze.symbols.OneType :=
    fun symbol member other listed same _ => types symbol member other listed same
  exact ⟨syntaxClean, semanticClean, quiet, oneType, small,
    type_soundness source syntaxClean semanticClean quiet oneType small⟩

end Compilation

end StackLang
