import StackLang.Proofs.Checking.Invariant

/-!
# Names of symbols

Every symbol of a checked program has a name of its tree or of the hidden variable
of a switch, and stands in the global scope or in that of a method.
-/

namespace StackLang

/-- What identifies a symbol in a table. -/
def Symbol.key (symbol : Symbol) : SymbolKey := ⟨symbol.scope, symbol.name⟩

namespace SymbolTable

/-- The scopes and names of the symbols, in declaration order. -/
def keys (table : SymbolTable) : List SymbolKey := table.entries.keys

theorem toList_keys (table : SymbolTable) : table.toList.map Symbol.key = table.keys := by
  rw [toList, List.map_map]
  rfl

theorem mem_keys {table : SymbolTable} {symbol : Symbol} (member : symbol ∈ table.toList) :
    symbol.key ∈ table.keys :=
  table.toList_keys ▸ List.mem_map_of_mem member

/-- A symbol is added at the end, under a new key. -/
theorem insert?_eq_some {table after : SymbolTable} {symbol : Symbol}
    (added : table.insert? symbol = some after) :
    after.entries.entries =
      table.entries.entries ++ [(symbol.key, ⟨symbol.type, symbol.value⟩)] := by
  by_cases taken : table.contains symbol.scope symbol.name = true
  · rw [insert?, if_pos taken] at added
    contradiction
  · rw [insert?, if_neg taken] at added
    obtain rfl := Option.some.inj added
    have absent : symbol.key ∉ table.entries.keys := by
      rw [← OrderedMap.get?_eq_none_iff]
      simpa [contains, OrderedMap.contains, Symbol.key] using taken
    exact OrderedMap.place_of_not_mem absent

theorem keys_of_insert? {table after : SymbolTable} {symbol : Symbol}
    (added : table.insert? symbol = some after) :
    after.keys = table.keys ++ [symbol.key] := by
  rw [keys, OrderedMap.keys, insert?_eq_some added, List.map_append]
  rfl

theorem toList_of_insert? {table after : SymbolTable} {symbol : Symbol}
    (added : table.insert? symbol = some after) : after.toList = table.toList ++ [symbol] := by
  rw [toList, insert?_eq_some added, List.map_append]
  rfl

theorem keys_of_setValue? {table after : SymbolTable} {scope name value : String}
    (replaced : table.setValue? scope name value = some after) : after.keys = table.keys := by
  obtain ⟨entry, found, rfl⟩ := Option.map_eq_some_iff.mp replaced
  rw [keys, OrderedMap.keys_insert, if_pos (OrderedMap.mem_keys_of_get? found)]
  rfl

end SymbolTable

/-- The global scope or that of a method. -/
inductive ScopeName (standard : TreeStandard) : String → Prop where
  | global : ScopeName standard globalScope
  | method {token : Token} : standard.name token → ScopeName standard token.value

/-- What declared symbols and open scopes are called. -/
structure Analyzer.Named (standard : TreeStandard) (analyzer : Analyzer) : Prop where
  symbols : ∀ key ∈ analyzer.symbols.keys,
    VariableName standard key.name ∧ ScopeName standard key.scope
  scopes : ∀ scope ∈ analyzer.scopes, ScopeName standard scope

namespace Analyzer.Named

open Analysis

variable {standard : TreeStandard}

theorem initial : Analyzer.initial.Named standard :=
  ⟨nofun, nofun⟩

theorem scope {analyzer : Analyzer} (named : analyzer.Named standard) :
    ScopeName standard analyzer.scope := by
  rw [Analyzer.scope]
  cases opened : analyzer.scopes with
  | nil => exact .global
  | cons innermost outer => exact named.scopes innermost (by simp [opened])

theorem report (error : SemanticError) : Keeps (Named standard) (Analysis.report error) :=
  fun _ named => ⟨named.symbols, named.scopes⟩

theorem declare (type : TypeName) {name : String} (line : Nat)
    (named : VariableName standard name) :
    Keeps (Named standard) (declareVariable type name line) := by
  intro analyzer before
  rw [declareVariable_run]
  split
  · next symbols added =>
      refine ⟨?_, before.scopes⟩
      intro key member
      rw [SymbolTable.keys_of_insert? added] at member
      rcases List.mem_append.mp member with declared | fresh
      · exact before.symbols key declared
      · obtain rfl := List.mem_singleton.mp fresh
        exact ⟨named, before.scope⟩
  · exact report _ analyzer before

theorem setValue (name value : String) : Keeps (Named standard) (Analysis.setValue name value) := by
  intro analyzer before
  refine ⟨?_, before.scopes⟩
  show ∀ key ∈ ((analyzer.symbols.setValue? analyzer.scope name value).getD analyzer.symbols).keys, _
  cases replaced : analyzer.symbols.setValue? analyzer.scope name value with
  | none => exact before.symbols
  | some symbols =>
      rw [Option.getD_some, SymbolTable.keys_of_setValue? replaced]
      exact before.symbols

theorem invariant : CheckInvariant standard (Named standard) where
  report := report
  declare type _ line named := declare type line (.source named)
  setValue := setValue
  select type line number := declare type line (.selector number)

theorem enter {scope : String} (named : ScopeName standard scope) :
    Keeps (Named standard) (Analysis.enter scope) := by
  intro analyzer before
  refine ⟨before.symbols, ?_⟩
  intro other member
  rcases List.mem_cons.mp member with rfl | outer
  · exact named
  · exact before.scopes other outer

theorem exit : Keeps (Named standard) Analysis.exit := by
  intro analyzer before
  exact ⟨before.symbols, fun scope member => before.scopes scope (List.mem_of_mem_tail member)⟩

theorem declareMethod (signature : Signature) (line : Nat) :
    Keeps (Named standard) (Analysis.declareMethod signature line) := by
  intro analyzer before
  rw [declareMethod_run]
  split
  · exact ⟨before.symbols, before.scopes⟩
  · exact report _ analyzer before

theorem programInvariant : ProgramInvariant standard fun _ => Named standard where
  toStatementInvariant := invariant.uncounted
  declareMethod signature line _ := declareMethod signature line
  enter named _ := enter (.method named)
  exit _ := exit

end Analyzer.Named

/-- What the symbols of a checked program are called. -/
theorem Program.analyze_named {standard : TreeStandard} (program : Program)
    (meets : program.Meets standard) : program.analyze.Named standard :=
  Analyzer.Named.programInvariant.program program meets [] _ .initial

end StackLang
