import StackLang.Proofs.Checking.Names
import StackLang.Proofs.Loading.Operands
import StackLang.Proofs.Reading.Switches

/-!
# Hidden variables of switches

Every switch declares a hidden variable of its own, whose name is no name of a source.
So no two symbols of a checked source share such a name, although they may stand in
different scopes.
-/

namespace StackLang

theorem selectorName_injective : Function.Injective selectorName :=
  Numeral.append_toString_injective _

/-- No identifier of a source is the name of a hidden variable. -/
theorem Lexeme.Recognised.ne_selectorName {token : Token} (recognised : Recognised token)
    (named : token.isIdentifier = true) (number : Nat) : token.value ≠ selectorName number := by
  intro same
  have point : '.' ∈ token.value.toList := by simp [same, selectorName]
  exact absurd ((recognised.name_parts named).2 '.' point) (by decide)

/-- As long as no number was used twice, the hidden variables are those of the given
switches, and no two of them are those of the same switch. -/
def Analyzer.Selects (seen : List Nat) (analyzer : Analyzer) : Prop :=
  seen.Nodup → ∀ key ∈ analyzer.symbols.keys, ∀ number, key.name = selectorName number →
    number ∈ seen ∧ ∀ other ∈ analyzer.symbols.keys, other.name = selectorName number → other = key

namespace Analyzer.Selects

open Analysis

variable {seen : List Nat}

theorem initial (seen : List Nat) : Analyzer.initial.Selects seen := fun _ => nofun

/-- Only the symbols matter. -/
theorem of_keys {before after : Analyzer} (selects : before.Selects seen)
    (same : after.symbols.keys = before.symbols.keys) : after.Selects seen := by
  rw [Selects, same]
  exact selects

theorem report (error : SemanticError) : Keeps (Selects seen) (Analysis.report error) :=
  fun _ selects => selects

theorem setValue (name value : String) : Keeps (Selects seen) (Analysis.setValue name value) := by
  intro analyzer selects
  apply selects.of_keys
  show ((analyzer.symbols.setValue? analyzer.scope name value).getD analyzer.symbols).keys = _
  cases replaced : analyzer.symbols.setValue? analyzer.scope name value with
  | none => rfl
  | some symbols => exact SymbolTable.keys_of_setValue? replaced

/-- A variable of the source is not a hidden one. -/
theorem declare (type : TypeName) {name : String} (line : Nat)
    (visible : ∀ number, name ≠ selectorName number) :
    Keeps (Selects seen) (declareVariable type name line) := by
  intro analyzer selects
  rw [declareVariable_run]
  split
  · next symbols added =>
      have keys := SymbolTable.keys_of_insert? added
      intro distinct key member number hidden
      have old {key : SymbolKey} (member : key ∈ symbols.keys)
          (hidden : key.name = selectorName number) : key ∈ analyzer.symbols.keys := by
        rw [keys] at member
        rcases List.mem_append.mp member with declared | fresh
        · exact declared
        · obtain rfl := List.mem_singleton.mp fresh
          exact absurd hidden (visible number)
      obtain ⟨counted, unique⟩ := selects distinct key (old member hidden) number hidden
      exact ⟨counted, fun other listed same => unique other (old listed same) same⟩
  · exact selects

/-- The next switch has a hidden variable that was not there before. -/
theorem select (type : TypeName) (line number : Nat) :
    Carries Selects [number] (declareVariable type (selectorName number) line) := by
  intro seen analyzer selects distinct
  obtain ⟨before, -, apart⟩ := List.nodup_append'.mp distinct
  have fresh : number ∉ seen := List.disjoint_singleton.mp apart
  have selects := selects before
  rw [declareVariable_run]
  split
  · next symbols added =>
      have keys := SymbolTable.keys_of_insert? added
      intro key member other hidden
      have split {key : SymbolKey} (member : key ∈ symbols.keys) :
          key ∈ analyzer.symbols.keys ∨ key = ⟨analyzer.scope, selectorName number⟩ := by
        rw [keys] at member
        exact (List.mem_append.mp member).imp_right List.mem_singleton.mp
      have apart {key : SymbolKey} (declared : key ∈ analyzer.symbols.keys) :
          key.name ≠ selectorName number :=
        fun same => fresh (selects key declared number same).1
      rcases split member with declared | rfl
      · obtain ⟨counted, unique⟩ := selects key declared other hidden
        refine ⟨List.mem_append_left _ counted, ?_⟩
        intro second listed same
        rcases split listed with old | rfl
        · exact unique second old same
        · exact absurd (hidden.trans same.symm) (apart declared)
      · obtain rfl := selectorName_injective hidden
        refine ⟨List.mem_append_right _ List.mem_cons_self, ?_⟩
        intro second listed same
        rcases split listed with old | rfl
        · exact absurd same (apart old)
        · rfl
  · intro key member other hidden
    obtain ⟨counted, unique⟩ := selects key member other hidden
    exact ⟨List.mem_append_left _ counted, unique⟩

theorem invariant {source : List Token} (recognised : ∀ token ∈ source, Lexeme.Recognised token) :
    ProgramInvariant (.loose source) Selects where
  parts _ :=
    { report := report
      declare := fun type _ line named =>
        declare type line fun number => (recognised _ named.2).ne_selectorName named.1 number
      setValue := setValue }
  select := select
  declareMethod signature line _ := by
    intro analyzer selects
    rw [declareMethod_run]
    split
    · exact selects
    · exact selects
  enter _ _ _ selects := selects
  exit _ _ selects := selects

end Analyzer.Selects

/-- No two symbols of a source have the name of the same hidden variable. -/
theorem Program.selectors_unique {tokens : List Token}
    (recognised : ∀ token ∈ tokens, Lexeme.Recognised token) {number : Nat} {key other : SymbolKey}
    (member : key ∈ (Program.ofTokens tokens).program.analyze.symbols.keys)
    (listed : other ∈ (Program.ofTokens tokens).program.analyze.symbols.keys)
    (hidden : key.name = selectorName number) (same : other.name = selectorName number) :
    other = key :=
  have selects := (Analyzer.Selects.invariant recognised).program _ (Program.ofTokens_loose tokens)
    [] _ (.initial [])
  (selects (Program.ofTokens_switches_nodup tokens) key member number hidden).2 other listed same

end StackLang
