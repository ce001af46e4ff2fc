import StackLang.Proofs.Checking.Rows
import StackLang.Proofs.Checking.Silence

/-!
# Sequences of operations

The analyzer is used in any order: scopes are opened and left, variables and methods are
declared, values are recorded and checks are made.  One operation adds a row, a method or
errors at most, and from this follows what the tables look like after all of them.
-/

namespace StackLang

theorem MethodTable.get?_of_insert? {table after : MethodTable} {signature known : Signature}
    {name : String} (added : table.insert? signature = some after)
    (declared : table.get? name = some known) : after.get? name = some known := by
  by_cases taken : table.entries.contains signature.name = true
  · rw [insert?, if_pos taken] at added
    contradiction
  · rw [insert?, if_neg taken] at added
    obtain rfl := Option.some.inj added
    have other : signature.name ≠ name := by
      rintro rfl
      exact taken (Option.isSome_iff_exists.mpr ⟨known, declared⟩)
    rw [get?, OrderedMap.get?_insert, if_neg other]
    exact declared

namespace Analyzer

/-- What the analyzer is asked to do. -/
inductive Operation where
  | enter (scope : String)
  | exit
  | report (error : SemanticError)
  | declareVariable (type : TypeName) (name : String) (line : Nat)
  | useVariable (name : String) (line : Nat)
  | checkOperation (left right : TypeName) (operator : Operator) (line : Nat)
  | checkAssignment (target value : TypeName) (line : Nat)
  | checkBoolean (found : TypeName) (context : String) (line : Nat)
  | declareMethod (signature : Signature) (line : Nat)
  | checkCall (name : String) (arguments : List (Option TypeName)) (line : Nat)
  | checkReturnValue (expected : TypeName) (found? : Option TypeName) (line : Nat)
  | checkEmptyReturn (expected : TypeName) (line : Nat)
  | setValue (name value : String)

/-- The analyzer after an operation, whatever the answer is. -/
def apply (analyzer : Analyzer) : Operation → Analyzer
  | .enter scope => ((Analysis.enter scope).run analyzer).2
  | .exit => (Analysis.exit.run analyzer).2
  | .report error => ((Analysis.report error).run analyzer).2
  | .declareVariable type name line => ((Analysis.declareVariable type name line).run analyzer).2
  | .useVariable name line => ((Analysis.useVariable name line).run analyzer).2
  | .checkOperation left right operator line =>
      ((Analysis.checkOperation left right operator line).run analyzer).2
  | .checkAssignment target value line =>
      ((Analysis.checkAssignment target value line).run analyzer).2
  | .checkBoolean found context line => ((Analysis.checkBoolean found context line).run analyzer).2
  | .declareMethod signature line => ((Analysis.declareMethod signature line).run analyzer).2
  | .checkCall name arguments line => ((Analysis.checkCall name arguments line).run analyzer).2
  | .checkReturnValue expected found? line =>
      ((Analysis.checkReturnValue expected found? line).run analyzer).2
  | .checkEmptyReturn expected line => ((Analysis.checkEmptyReturn expected line).run analyzer).2
  | .setValue name value => ((Analysis.setValue name value).run analyzer).2

/-- The analyzer after operations. -/
def after (operations : List Operation) : Analyzer := operations.foldl apply initial

/-- The variable that an operation declares, if it is a declaration and it succeeds. -/
def declaration? (analyzer : Analyzer) : Operation → Option (SymbolKey × TypeName)
  | .declareVariable type name line =>
      if ((Analysis.declareVariable type name line).run analyzer).1 then
        some (⟨analyzer.scope, name⟩, type)
      else none
  | _ => none

/-- The variables that are declared by operations one after the other. -/
def declarations (analyzer : Analyzer) : List Operation → List (SymbolKey × TypeName)
  | [] => []
  | operation :: rest =>
      (analyzer.declaration? operation).toList ++ (analyzer.apply operation).declarations rest

/-- All scopes that are open, the innermost first. -/
def stack (analyzer : Analyzer) : List String := analyzer.scopes ++ [globalScope]

/-- A scope is put on the open ones, and all but the last are taken off again. -/
def Operation.stack (scopes : List String) : Operation → List String
  | .enter scope => scope :: scopes
  | .exit => if 1 < scopes.length then scopes.tail else scopes
  | _ => scopes

/-- What one operation does. -/
structure Step (operation : Operation) (before after : Analyzer) : Prop where
  stack : after.stack = operation.stack before.stack
  types : after.symbols.types = before.symbols.types ++ (before.declaration? operation).toList
  signatures : ∀ name signature, before.method? name = some signature →
    after.method? name = some signature
  errors : before.errors.toList <+: after.errors.toList

/-- A check only adds errors. -/
theorem Step.of_reported {operation : Operation} {before after : Analyzer}
    (reported : before.Reported after) (stays : operation.stack before.stack = before.stack)
    (none : before.declaration? operation = none) : Step operation before after := by
  obtain ⟨added, rfl⟩ := reported
  refine ⟨stays.symm, ?_, fun _ _ => id, ?_⟩
  · rw [none, Option.toList_none, List.append_nil]
  · rw [Array.toList_append]
    exact List.prefix_append _ _

theorem exit_stack (analyzer : Analyzer) :
    (analyzer.apply .exit).stack = Operation.exit.stack analyzer.stack := by
  show analyzer.scopes.tail ++ [globalScope] = if 1 < analyzer.stack.length then _ else _
  rw [stack]
  cases analyzer.scopes with
  | nil => rfl
  | cons innermost outer => simp

theorem declareVariable_step (type : TypeName) (name : String) (line : Nat) (analyzer : Analyzer) :
    Step (.declareVariable type name line) analyzer
      (analyzer.apply (.declareVariable type name line)) := by
  have run := Analysis.declareVariable_run type name line analyzer
  have answer : analyzer.declaration? (.declareVariable type name line) =
    if ((Analysis.declareVariable type name line).run analyzer).1 then _ else _ := rfl
  rw [apply]
  cases added : analyzer.symbols.insert? (.fresh name type analyzer.scope) with
  | some symbols =>
      rw [added] at run
      rw [run] at answer ⊢
      refine ⟨rfl, ?_, fun _ _ => id, List.prefix_rfl⟩
      rw [answer, SymbolTable.types, SymbolTable.insert?_eq_some added, List.map_append]
      rfl
  | none =>
      rw [added] at run
      rw [run] at answer ⊢
      exact .of_reported ⟨#[_], rfl⟩ rfl answer

theorem declareMethod_step (signature : Signature) (line : Nat) (analyzer : Analyzer) :
    Step (.declareMethod signature line) analyzer
      (analyzer.apply (.declareMethod signature line)) := by
  rw [apply, Analysis.declareMethod_run]
  cases added : analyzer.methods.insert? signature with
  | some methods =>
      exact ⟨rfl, (List.append_nil _).symm, fun _ _ => MethodTable.get?_of_insert? added,
        List.prefix_rfl⟩
  | none => exact .of_reported ⟨#[_], rfl⟩ rfl rfl

theorem apply_step (operation : Operation) (analyzer : Analyzer) :
    Step operation analyzer (analyzer.apply operation) := by
  have checks {α : Type} {action : Analysis α}
      (kept : ∀ before : Analyzer, ReportInvariant before.Reported →
        Analysis.Keeps before.Reported action) :
      analyzer.Reported (action.run analyzer).2 :=
    Analysis.OnlyReports.of_invariant kept analyzer
  cases operation with
  | enter scope => exact ⟨rfl, (List.append_nil _).symm, fun _ _ => id, List.prefix_rfl⟩
  | exit =>
      exact ⟨exit_stack analyzer, (List.append_nil _).symm, fun _ _ => id, List.prefix_rfl⟩
  | declareVariable type name line => exact declareVariable_step type name line analyzer
  | declareMethod signature line => exact declareMethod_step signature line analyzer
  | setValue name value =>
      refine ⟨rfl, ?_, fun _ _ => id, List.prefix_rfl⟩
      exact (analyzer.symbols.setValue?_types _ name value).trans (List.append_nil _).symm
  | report error => exact .of_reported (checks fun _ kept => kept.report error) rfl rfl
  | useVariable name line =>
      exact .of_reported (checks fun _ kept => kept.useVariable name line) rfl rfl
  | checkOperation left right operator line =>
      exact .of_reported (checks fun _ kept => kept.checkOperation left right operator line) rfl rfl
  | checkAssignment target value line =>
      exact .of_reported (checks fun _ kept => kept.checkAssignment target value line) rfl rfl
  | checkBoolean found context line =>
      exact .of_reported (checks fun _ kept => kept.checkBoolean found context line) rfl rfl
  | checkCall name arguments line =>
      exact .of_reported (checks fun _ kept => kept.checkCall name arguments line) rfl rfl
  | checkReturnValue expected found? line =>
      exact .of_reported (checks fun _ kept => kept.checkReturnValue expected found? line) rfl rfl
  | checkEmptyReturn expected line =>
      exact .of_reported (checks fun _ kept => kept.checkEmptyReturn expected line) rfl rfl

/-- What operations do one after the other. -/
structure Run (operations : List Operation) (before after : Analyzer) : Prop where
  stack : after.stack = operations.foldl Operation.stack before.stack
  types : after.symbols.types = before.symbols.types ++ before.declarations operations
  signatures : ∀ name signature, before.method? name = some signature →
    after.method? name = some signature
  errors : before.errors.toList <+: after.errors.toList

theorem foldl_run (operations : List Operation) (analyzer : Analyzer) :
    Run operations analyzer (operations.foldl apply analyzer) := by
  induction operations generalizing analyzer with
  | nil => exact ⟨rfl, (List.append_nil _).symm, fun _ _ => id, List.prefix_rfl⟩
  | cons operation rest ih =>
      have first := apply_step operation analyzer
      have later := ih (analyzer.apply operation)
      refine ⟨?_, ?_, ?_, first.errors.trans later.errors⟩
      · rw [List.foldl_cons, List.foldl_cons, later.stack, first.stack]
      · rw [List.foldl_cons, later.types, first.types, declarations, List.append_assoc]
      · exact fun name signature declared =>
          later.signatures name signature (first.signatures name signature declared)

theorem stack_getLast? (analyzer : Analyzer) : analyzer.stack.getLast? = some globalScope :=
  List.getLast?_concat

theorem stack_head? (analyzer : Analyzer) : analyzer.stack.head? = some analyzer.scope := by
  rw [stack, scope]
  cases analyzer.scopes <;> rfl

/-- A declaration succeeds if the current scope has no row for the name.  Then a row is
added, otherwise an error, and nothing else changes. -/
theorem declareVariable_outcome (type : TypeName) (name : String) (line : Nat)
    (analyzer : Analyzer) :
    let outcome := (Analysis.declareVariable type name line).run analyzer
    (outcome.1 = true ↔ ∀ row ∈ analyzer.symbols.toList, row.key ≠ ⟨analyzer.scope, name⟩) ∧
    (outcome.1 = true → outcome.2 = { analyzer with symbols := outcome.2.symbols } ∧
      outcome.2.symbols.toList =
        analyzer.symbols.toList ++ [.fresh name type analyzer.scope]) ∧
    (outcome.1 = false → outcome.2 = { analyzer with
      errors := analyzer.errors.push (.alreadyDeclared name analyzer.scope line) }) := by
  intro outcome
  have run : outcome = _ := Analysis.declareVariable_run type name line analyzer
  rw [← SymbolTable.contains_eq_false_iff]
  cases added : analyzer.symbols.insert? (.fresh name type analyzer.scope) with
  | some symbols =>
      rw [added] at run
      rw [run]
      have free : analyzer.symbols.contains analyzer.scope name = false :=
        SymbolTable.type?_eq_none_iff.mp (SymbolTable.type?_of_insert?_fresh added)
      exact ⟨iff_of_true rfl free, fun _ => ⟨rfl, SymbolTable.toList_of_insert? added⟩, nofun⟩
  | none =>
      rw [added] at run
      rw [run]
      have taken : analyzer.symbols.contains analyzer.scope name = true :=
        SymbolTable.insert?_eq_none_iff.mp added
      exact ⟨iff_of_false nofun (by rw [taken]; nofun), nofun, fun _ => rfl⟩

theorem lookup?_eq_find? (analyzer : Analyzer) (name : String) :
    analyzer.lookup? name =
      ((analyzer.symbols.toList.find? (·.key = ⟨analyzer.scope, name⟩)).or
        (analyzer.symbols.toList.find? (·.key = ⟨globalScope, name⟩))).map Symbol.type := by
  rw [lookup?, SymbolTable.get?_eq_find?, SymbolTable.get?_eq_find?]

/-- After any operations the tables are consistent: rows have distinct scopes and names, stand
in the order in which they were declared and keep scope, name and type, signatures stay, errors
are only added, and the global scope is never left.  The next declaration succeeds if the current
scope has no row for its name, recording a value changes the value of one row, and a name is
looked up in the current scope before the global one. -/
theorem tables_consistent (operations later : List Operation) :
    let analyzer := after operations
    let final := after (operations ++ later)
    let rows := analyzer.symbols.toList
    let scopes := operations.foldl Operation.stack [globalScope]
    (rows.map Symbol.key).Nodup ∧
    rows.map (fun row => (row.key, row.type)) = initial.declarations operations ∧
    rows.map (fun row => (row.key, row.type)) <+:
      final.symbols.toList.map (fun row => (row.key, row.type)) ∧
    (∀ type name line,
      let outcome := (Analysis.declareVariable type name line).run analyzer
      (outcome.1 = true ↔ ∀ row ∈ rows, row.key ≠ ⟨analyzer.scope, name⟩) ∧
      (outcome.1 = true → outcome.2 = { analyzer with symbols := outcome.2.symbols } ∧
        outcome.2.symbols.toList = rows ++ [.fresh name type analyzer.scope]) ∧
      (outcome.1 = false → outcome.2 = { analyzer with
        errors := analyzer.errors.push (.alreadyDeclared name analyzer.scope line) })) ∧
    (∀ name value,
      let changed := ((Analysis.setValue name value).run analyzer).2
      changed = { analyzer with symbols := changed.symbols } ∧
      changed.symbols.toList = rows.map fun row =>
        if row.key = ⟨analyzer.scope, name⟩ then { row with value := value } else row) ∧
    (∀ name, analyzer.lookup? name =
      ((rows.find? (·.key = ⟨analyzer.scope, name⟩)).or
        (rows.find? (·.key = ⟨globalScope, name⟩))).map Symbol.type) ∧
    (∀ name signature, analyzer.method? name = some signature →
      final.method? name = some signature) ∧
    (analyzer.stack = scopes ∧ scopes.head? = some analyzer.scope ∧
      scopes.getLast? = some globalScope) ∧
    analyzer.errors.toList <+: final.errors.toList := by
  intro analyzer final rows scopes
  have early : Run operations initial analyzer := foldl_run operations initial
  have late : Run later analyzer final := by
    have parts : final = later.foldl apply analyzer := List.foldl_append
    rw [parts]
    exact foldl_run later analyzer
  have stack : analyzer.stack = scopes := early.stack
  refine ⟨analyzer.symbols.keys_nodup, ?_, ?_, ?_, ?_, analyzer.lookup?_eq_find?, late.signatures,
    ⟨stack, ?_, ?_⟩, late.errors⟩
  · rw [← SymbolTable.types_eq, early.types]
    rfl
  · rw [← SymbolTable.types_eq, ← SymbolTable.types_eq, late.types]
    exact List.prefix_append _ _
  · exact fun type name line => declareVariable_outcome type name line analyzer
  · exact fun name value => ⟨rfl, analyzer.symbols.toList_setValue analyzer.scope name value⟩
  · rw [← stack]
    exact analyzer.stack_head?
  · rw [← stack]
    exact analyzer.stack_getLast?

end Analyzer

end StackLang
