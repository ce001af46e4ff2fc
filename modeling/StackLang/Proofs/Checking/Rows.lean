import StackLang.Proofs.Checking.Names

/-!
# Rows of symbol tables

The rows of a table have distinct keys.  Finding a symbol, adding one and recording a value
are described by the rows here; what the rows say apart from the values is never changed by
recording one.
-/

namespace StackLang

namespace OrderedMap

variable {κ α β : Type} [DecidableEq κ]

theorem lookup?_map (change : α → β) (key : κ) (entries : List (κ × α)) :
    lookup? key (entries.map (Prod.map id change)) = (lookup? key entries).map change := by
  induction entries with
  | nil => rfl
  | cons entry rest ih =>
      rw [List.map_cons, lookup?, lookup?, Prod.map_fst, Prod.map_snd, id_eq, ih]
      split <;> rfl

theorem place_map (change : α → β) (key : κ) (value : α) (entries : List (κ × α)) :
    place key (change value) (entries.map (Prod.map id change)) =
      (place key value entries).map (Prod.map id change) := by
  induction entries with
  | nil => rfl
  | cons entry rest ih =>
      rw [List.map_cons, place, place, Prod.map_fst, id_eq, ih]
      split <;> rfl

/-- What is there already changes nothing. -/
theorem place_of_lookup? {key : κ} {value : α} {entries : List (κ × α)}
    (found : lookup? key entries = some value) : place key value entries = entries := by
  induction entries with
  | nil => exact nomatch found
  | cons entry rest ih =>
      rw [lookup?] at found
      rw [place]
      split
      · next same =>
          rw [if_pos same] at found
          rw [← same, ← Option.some.inj found]
      · next other =>
          rw [if_neg other] at found
          rw [ih found]

theorem lookup?_eq_find? (key : κ) (entries : List (κ × α)) :
    lookup? key entries = (entries.find? (·.1 = key)).map Prod.snd := by
  induction entries with
  | nil => rfl
  | cons entry rest ih =>
      by_cases same : entry.1 = key
      · simp [lookup?, same]
      · simp [lookup?, same, ih]

/-- Among distinct keys the value under a present key changes, and nothing else. -/
theorem place_change (change : α → α) {key : κ} {value : α} {entries : List (κ × α)}
    (distinct : (entries.map Prod.fst).Nodup) (found : lookup? key entries = some value) :
    place key (change value) entries =
      entries.map fun entry => if entry.1 = key then (entry.1, change entry.2) else entry := by
  induction entries with
  | nil => exact nomatch found
  | cons entry rest ih =>
      obtain ⟨absent, others⟩ := List.nodup_cons.mp distinct
      rw [place, List.map_cons]
      by_cases same : entry.1 = key
      · have here : entry.2 = value := by
          rw [lookup?, if_pos same] at found
          exact Option.some.inj found
        have kept : ∀ other ∈ rest,
            (if other.1 = key then (other.1, change other.2) else other) = other := by
          intro other member
          refine if_neg fun equal => absent ?_
          rw [same, ← equal]
          exact List.mem_map_of_mem member
        rw [if_pos same, if_pos same, same, here, List.map_congr_left kept, List.map_id']
      · rw [lookup?, if_neg same] at found
        rw [if_neg same, if_neg same, ih others found]

end OrderedMap

namespace SymbolTable

open OrderedMap (lookup? place)

/-- The types of the symbols under their keys. -/
def types (table : SymbolTable) : List (SymbolKey × TypeName) :=
  table.entries.entries.map (Prod.map id SymbolEntry.type)

theorem type?_types (table : SymbolTable) (scope name : String) :
    (table.get? scope name).map Symbol.type = lookup? ⟨scope, name⟩ table.types := by
  rw [types, OrderedMap.lookup?_map, get?, Option.map_map]
  rfl

theorem contains_types (table : SymbolTable) (scope name : String) :
    table.contains scope name = (lookup? ⟨scope, name⟩ table.types).isSome := by
  rw [types, OrderedMap.lookup?_map, Option.isSome_map]
  rfl

theorem insert?_types (table : SymbolTable) (symbol : Symbol) :
    (table.insert? symbol).map types =
      if (lookup? ⟨symbol.scope, symbol.name⟩ table.types).isSome then none
      else some (place ⟨symbol.scope, symbol.name⟩ symbol.type table.types) := by
  rw [insert?, contains_types]
  split
  · rfl
  · exact congrArg some (OrderedMap.place_map ..).symm

/-- Recorded values do not show in the types. -/
theorem setValue?_types (table : SymbolTable) (scope name value : String) :
    ((table.setValue? scope name value).getD table).types = table.types := by
  rw [setValue?, OrderedMap.get?]
  cases found : lookup? ⟨scope, name⟩ table.entries.entries with
  | none => rfl
  | some entry =>
      have placed := OrderedMap.place_map SymbolEntry.type (⟨scope, name⟩ : SymbolKey)
        { entry with value := value } table.entries.entries
      have same : lookup? ⟨scope, name⟩ table.types = some entry.type := by
        rw [types, OrderedMap.lookup?_map, found]
        rfl
      exact placed.symm.trans (OrderedMap.place_of_lookup? same)

/-- Declarations tell the types only. -/
theorem declarations_eq_of_types {one other : SymbolTable} (same : one.types = other.types) :
    one.toList.map Symbol.declaration = other.toList.map Symbol.declaration := by
  have shown (table : SymbolTable) : table.toList.map Symbol.declaration =
      table.types.map fun (key, type) =>
        Symbol.declaration ⟨key.name, type, key.scope, type.defaultText⟩ := by
    rw [toList, types, List.map_map, List.map_map]
    rfl
  rw [shown, shown, same]

theorem types_eq (table : SymbolTable) :
    table.types = table.toList.map fun row => (row.key, row.type) := by
  rw [types, toList, List.map_map]
  rfl

theorem keys_nodup (table : SymbolTable) : (table.toList.map Symbol.key).Nodup := by
  rw [toList_keys]
  exact table.entries.distinct

theorem get?_eq_find? (table : SymbolTable) (scope name : String) :
    table.get? scope name = table.toList.find? (·.key = ⟨scope, name⟩) := by
  rw [get?, OrderedMap.get?, OrderedMap.lookup?_eq_find?, toList, List.find?_map, Option.map_map]
  show _ = Option.map _ (table.entries.entries.find? (·.1 = ⟨scope, name⟩))
  cases found : table.entries.entries.find? (·.1 = ⟨scope, name⟩) with
  | none => rfl
  | some entry =>
      obtain ⟨key, entry⟩ := entry
      obtain rfl : key = ⟨scope, name⟩ := by simpa using List.find?_some found
      rfl

theorem contains_eq_false_iff {table : SymbolTable} {scope name : String} :
    table.contains scope name = false ↔ ∀ row ∈ table.toList, row.key ≠ ⟨scope, name⟩ := by
  rw [contains, OrderedMap.contains, Option.isSome_eq_false_iff, Option.isNone_iff_eq_none,
    OrderedMap.get?_eq_none_iff, ← keys, ← toList_keys, List.mem_map]
  constructor
  · exact fun absent row member same => absent ⟨row, member, same⟩
  · rintro others ⟨row, member, same⟩
    exact others row member same

/-- Recording a value changes the value of one row. -/
theorem toList_setValue (table : SymbolTable) (scope name value : String) :
    ((table.setValue? scope name value).getD table).toList = table.toList.map fun row =>
      if row.key = ⟨scope, name⟩ then { row with value := value } else row := by
  cases found : table.entries.get? ⟨scope, name⟩ with
  | none =>
      have absent : table.contains scope name = false := by
        rw [contains, OrderedMap.contains, found]
        rfl
      have kept : ∀ row ∈ table.toList,
          (if row.key = ⟨scope, name⟩ then { row with value := value } else row) = row :=
        fun row member => if_neg (contains_eq_false_iff.mp absent row member)
      rw [setValue?, found, List.map_congr_left kept, List.map_id']
      rfl
  | some entry =>
      have changed := OrderedMap.place_change (fun entry => { entry with value := value })
        table.entries.distinct found
      rw [setValue?, found]
      show (place _ _ table.entries.entries).map _ = _
      rw [changed, toList, List.map_map, List.map_map]
      refine List.map_congr_left fun row _ => ?_
      show _ = if row.1 = _ then _ else _
      by_cases same : row.1 = ⟨scope, name⟩
      · rw [if_pos same, Function.comp_apply, if_pos same]
      · rw [if_neg same, Function.comp_apply, if_neg same]

end SymbolTable

end StackLang
