import Mathlib.Data.List.Basic
import Mathlib.Data.List.Induction
import StackLang.Machine.Environment
import StackLang.Symbol.Table

/-!
# Variables of a loaded program

A name may be declared in several scopes, but a running program knows variables by
name alone.  Each declared name is listed once, at the place of its first
declaration and with the type of its last one.
-/

namespace StackLang

/-- A map is given by its keys and by what it shows under them. -/
theorem OrderedMap.entries_eq_filterMap {κ α : Type} [DecidableEq κ] (map : OrderedMap κ α) :
    map.entries = map.keys.filterMap fun key => (map.get? key).map (key, ·) := by
  have shown : ∀ entry ∈ map.entries,
      (map.get? entry.1).map (entry.1, ·) = some entry := by
    intro entry member
    rw [get?, lookup?_of_mem map.distinct member]
    rfl
  rw [keys, List.filterMap_map]
  calc
    map.entries = map.entries.filterMap some := List.filterMap_some.symm
    _ = map.entries.filterMap _ := (List.filterMap_congr shown).symm

namespace SymbolTable

/-- The variables that symbols declare, with the defaults of their types. -/
def environment (symbols : SymbolTable) : Environment :=
  symbols.toList.foldl
    (fun environment symbol => environment.define symbol.name symbol.type (.initial symbol.type))
    .empty

/-- The last symbol with a name, in whatever scope. -/
def last? (symbols : List Symbol) (name : String) : Option Symbol :=
  symbols.reverse.find? fun symbol => symbol.name == name

/-- Every declared name once, in the order of the first declarations, with the type of
its last declaration and the default of that type. -/
def declaredVariables (symbols : List Symbol) : List (String × Variable) :=
  (symbols.map Symbol.name).eraseDups.filterMap fun name =>
    (last? symbols name).map fun symbol => (name, ⟨symbol.type, .initial symbol.type⟩)

theorem mem_of_last? {symbols : List Symbol} {name : String} {symbol : Symbol}
    (found : last? symbols name = some symbol) : symbol ∈ symbols ∧ symbol.name = name := by
  rw [last?] at found
  have same := List.find?_some found
  exact ⟨List.mem_reverse.mp (List.mem_of_find?_eq_some found), eq_of_beq same⟩

theorem last?_isSome {symbols : List Symbol} {symbol : Symbol} (member : symbol ∈ symbols) :
    ∃ other, last? symbols symbol.name = some other := by
  apply Option.isSome_iff_exists.mp
  rw [last?, List.find?_isSome]
  exact ⟨symbol, List.mem_reverse.mpr member, beq_self_eq_true _⟩

theorem last?_append_singleton (front : List Symbol) (symbol : Symbol) (name : String) :
    last? (front ++ [symbol]) name = if symbol.name = name then some symbol else last? front name := by
  rw [last?, List.reverse_append, List.reverse_singleton, List.singleton_append, List.find?_cons]
  by_cases same : symbol.name = name
  · simp [same]
  · rw [if_neg same, beq_false_of_ne same]
    rfl

theorem eraseDups_append_singleton (front : List String) (name : String) :
    (front ++ [name]).eraseDups =
      if name ∈ front.eraseDups then front.eraseDups else front.eraseDups ++ [name] := by
  rw [List.eraseDups_append]
  by_cases present : name ∈ front
  · simp [present, List.removeAll]
  · simp [present, List.removeAll, List.eraseDups_cons]

/-- The names of the variables and what is known of each, after all declarations. -/
theorem foldl_define (symbols : List Symbol) :
    let environment := symbols.foldl
      (fun environment symbol => environment.define symbol.name symbol.type (.initial symbol.type))
      Environment.empty
    environment.bindings.keys = (symbols.map Symbol.name).eraseDups ∧
      ∀ name, environment.bindings.get? name =
        (last? symbols name).map fun symbol => ⟨symbol.type, .initial symbol.type⟩ := by
  induction symbols using List.reverseRecOn with
  | nil => exact ⟨rfl, fun _ => rfl⟩
  | append_singleton front symbol ih =>
      obtain ⟨names, shown⟩ := ih
      rw [List.foldl_append]
      constructor
      · rw [List.map_append, List.map_singleton, eraseDups_append_singleton, ← names]
        exact OrderedMap.keys_insert _ _ _
      · intro name
        rw [last?_append_singleton, apply_ite (Option.map _), ← shown]
        exact OrderedMap.get?_insert _ _ _ _

/-- Loading declares the variables of the symbols. -/
theorem environment_toList (symbols : SymbolTable) :
    symbols.environment.toList = declaredVariables symbols.toList := by
  obtain ⟨names, shown⟩ := foldl_define symbols.toList
  rw [Environment.toList, OrderedMap.entries_eq_filterMap, declaredVariables, ← names]
  apply List.filterMap_congr
  intro name _
  rw [environment, shown, Option.map_map]
  rfl

/-- Only declared names are names of variables. -/
theorem environment_keys {symbols : SymbolTable} {name : String}
    (member : name ∈ symbols.environment.bindings.keys) :
    ∃ symbol ∈ symbols.toList, symbol.name = name := by
  rw [environment, (foldl_define symbols.toList).1, List.mem_eraseDups] at member
  exact List.mem_map.mp member

end SymbolTable

end StackLang
