import StackLang.OrderedMap
import StackLang.Typing.Basic

/-!
# Symbol tables

A table holds declared variables and resolved labels in the order of their
declaration.  A symbol is identified by its scope and its name; a declaration
under a taken key is refused.
-/

namespace StackLang

/-- The scope of everything declared outside of methods. -/
def globalScope : String := "global"

/-- A declared variable or a resolved label. -/
structure Symbol where
  name : String
  type : TypeName
  scope : String
  /-- The value as text. -/
  value : String
  deriving DecidableEq, Repr, Inhabited

namespace Symbol

/-- A symbol that has the default value of its type. -/
def fresh (name : String) (type : TypeName) (scope : String) : Symbol :=
  ⟨name, type, scope, type.defaultText⟩

/-- The row of a symbol in the symbol table. -/
def row (symbol : Symbol) : String :=
  symbol.name ++ "\t" ++ symbol.type.text ++ "\t" ++ symbol.scope ++ "\t" ++ symbol.value

/-- The declaration of a symbol in bytecode, which always carries the default
value of its type. -/
def declaration (symbol : Symbol) : String :=
  symbol.name ++ ", " ++ symbol.type.text ++ ", " ++ symbol.scope ++ ", " ++
    symbol.type.defaultText

end Symbol

/-- What identifies a symbol. -/
structure SymbolKey where
  scope : String
  name : String
  deriving DecidableEq, Repr

/-- The part of a symbol that its key does not tell. -/
structure SymbolEntry where
  type : TypeName
  value : String
  deriving DecidableEq, Repr

/-- Symbols in declaration order. -/
structure SymbolTable where
  entries : OrderedMap SymbolKey SymbolEntry

namespace SymbolTable

/-- The table without symbols. -/
def empty : SymbolTable := ⟨.empty⟩

instance : Inhabited SymbolTable := ⟨empty⟩

/-- The number of symbols. -/
def size (table : SymbolTable) : Nat := table.entries.size

/-- The symbols in declaration order. -/
def toList (table : SymbolTable) : List Symbol :=
  table.entries.entries.map fun (key, entry) => ⟨key.name, entry.type, key.scope, entry.value⟩

/-- The symbol with a name in a scope. -/
def get? (table : SymbolTable) (scope name : String) : Option Symbol :=
  (table.entries.get? ⟨scope, name⟩).map fun entry => ⟨name, entry.type, scope, entry.value⟩

/-- Whether a scope has a symbol with the name. -/
def contains (table : SymbolTable) (scope name : String) : Bool :=
  table.entries.contains ⟨scope, name⟩

/-- Add a symbol at the end, unless its key is taken. -/
def insert? (table : SymbolTable) (symbol : Symbol) : Option SymbolTable :=
  if table.contains symbol.scope symbol.name then none
  else some ⟨table.entries.insert ⟨symbol.scope, symbol.name⟩ ⟨symbol.type, symbol.value⟩⟩

/-- Replace the value text of a symbol, if it is there. -/
def setValue? (table : SymbolTable) (scope name value : String) : Option SymbolTable :=
  (table.entries.get? ⟨scope, name⟩).map fun entry =>
    ⟨table.entries.insert ⟨scope, name⟩ { entry with value := value }⟩

/-- Add all symbols whose keys are free, in order. -/
def insertAll (table : SymbolTable) (symbols : List Symbol) : SymbolTable :=
  symbols.foldl (fun table symbol => (table.insert? symbol).getD table) table

theorem insert?_eq_none_iff {table : SymbolTable} {symbol : Symbol} :
    table.insert? symbol = none ↔ table.contains symbol.scope symbol.name = true := by
  by_cases taken : table.contains symbol.scope symbol.name = true
  · simp [insert?, taken]
  · simp [insert?, taken]

/-- A symbol that was added is found under its scope and name, and every other
key shows what it showed before. -/
theorem get?_of_insert? {table after : SymbolTable} {symbol : Symbol}
    (added : table.insert? symbol = some after) (scope name : String) :
    after.get? scope name =
      if symbol.scope = scope ∧ symbol.name = name then some symbol else table.get? scope name := by
  by_cases taken : table.contains symbol.scope symbol.name = true
  · simp [insert?, taken] at added
  · simp only [insert?, taken, Bool.false_eq_true, if_false, Option.some.injEq] at added
    subst added
    by_cases here : symbol.scope = scope ∧ symbol.name = name
    · obtain ⟨rfl, rfl⟩ := here
      simp [get?, OrderedMap.get?_insert]
    · simp [get?, OrderedMap.get?_insert, here]

end SymbolTable

end StackLang
