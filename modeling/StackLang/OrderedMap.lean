/-!
# Maps in insertion order

An `OrderedMap` keeps its entries in the order in which their keys were first
inserted.  Keys are pairwise distinct by construction.  Inserting under a
present key replaces the value and keeps the key's place.
-/

namespace StackLang

namespace OrderedMap

/-- Replace the value under `key` where it stands, or add the entry at the end. -/
def place [DecidableEq κ] (key : κ) (value : α) : List (κ × α) → List (κ × α)
  | [] => [(key, value)]
  | entry :: rest =>
      if entry.1 = key then (key, value) :: rest else entry :: place key value rest

/-- The value of the first entry under `key`. -/
def lookup? [DecidableEq κ] (key : κ) : List (κ × α) → Option α
  | [] => none
  | entry :: rest => if entry.1 = key then some entry.2 else lookup? key rest

theorem map_fst_place [DecidableEq κ] (key : κ) (value : α) (entries : List (κ × α)) :
    (place key value entries).map Prod.fst =
      if key ∈ entries.map Prod.fst then entries.map Prod.fst
      else entries.map Prod.fst ++ [key] := by
  induction entries with
  | nil => simp [place]
  | cons entry rest ih =>
      by_cases same : entry.1 = key
      · simp [place, same]
      · have different : ¬ key = entry.1 := fun equal => same equal.symm
        by_cases later : key ∈ rest.map Prod.fst <;>
          simp_all [place]

theorem lookup?_place [DecidableEq κ] (key other : κ) (value : α) (entries : List (κ × α)) :
    lookup? other (place key value entries) =
      if key = other then some value else lookup? other entries := by
  induction entries with
  | nil => simp [place, lookup?]
  | cons entry rest ih =>
      by_cases same : entry.1 = key
      · subst same
        by_cases here : entry.1 = other <;> simp [place, lookup?, here]
      · by_cases here : entry.1 = other
        · have different : ¬ key = other := fun equal => same (here.trans equal.symm)
          rw [place, if_neg same, if_neg different]
          simp [lookup?, here]
        · simp [place, lookup?, same, here, ih]

theorem lookup?_eq_none_iff [DecidableEq κ] {key : κ} {entries : List (κ × α)} :
    lookup? key entries = none ↔ key ∉ entries.map Prod.fst := by
  induction entries with
  | nil => simp [lookup?]
  | cons entry rest ih =>
      by_cases same : entry.1 = key
      · simp [lookup?, same]
      · have different : ¬ key = entry.1 := fun equal => same equal.symm
        simp [lookup?, same, different, ih]

theorem lookup?_append [DecidableEq κ] (key : κ) (front back : List (κ × α)) :
    lookup? key (front ++ back) = (lookup? key front).or (lookup? key back) := by
  induction front with
  | nil => rfl
  | cons entry rest ih =>
      by_cases same : entry.1 = key
      · simp [lookup?, same]
      · simp [lookup?, same, ih]

/-- A new key comes last. -/
theorem place_of_not_mem [DecidableEq κ] {key : κ} {value : α} {entries : List (κ × α)}
    (absent : key ∉ entries.map Prod.fst) : place key value entries = entries ++ [(key, value)] := by
  induction entries with
  | nil => rfl
  | cons entry rest ih =>
      simp only [List.map_cons, List.mem_cons, not_or] at absent
      rw [place, if_neg (Ne.symm absent.1), ih absent.2]
      rfl

/-- A present key is replaced where it stands. -/
theorem place_append [DecidableEq κ] {key : κ} {value : α} {front : List (κ × α)}
    (present : key ∈ front.map Prod.fst) (back : List (κ × α)) :
    place key value (front ++ back) = place key value front ++ back := by
  induction front with
  | nil => simp at present
  | cons entry rest ih =>
      by_cases same : entry.1 = key
      · simp [place, same]
      · have later : key ∈ rest.map Prod.fst := by
          rw [List.map_cons, List.mem_cons] at present
          exact present.resolve_left fun equal => same equal.symm
        simp [place, same, ih later]

/-- Among distinct keys every entry is found. -/
theorem lookup?_of_mem [DecidableEq κ] {key : κ} {value : α} {entries : List (κ × α)}
    (distinct : (entries.map Prod.fst).Nodup) (member : (key, value) ∈ entries) :
    lookup? key entries = some value := by
  induction entries with
  | nil => simp at member
  | cons entry rest ih =>
      rw [List.map_cons, List.nodup_cons] at distinct
      rcases List.mem_cons.mp member with here | later
      · simp [lookup?, ← here]
      · have different : ¬ entry.1 = key := by
          intro same
          exact distinct.1 (same ▸ List.mem_map_of_mem later)
        simp [lookup?, different, ih distinct.2 later]

theorem mem_of_lookup? [DecidableEq κ] {key : κ} {value : α} {entries : List (κ × α)}
    (found : lookup? key entries = some value) : (key, value) ∈ entries := by
  induction entries with
  | nil => contradiction
  | cons entry rest ih =>
      rw [lookup?] at found
      by_cases same : entry.1 = key
      · rw [if_pos same] at found
        obtain rfl := Option.some.inj found
        rw [← same]
        exact List.mem_cons_self
      · rw [if_neg same] at found
        exact List.mem_cons_of_mem entry (ih found)

end OrderedMap

/-- A finite map that remembers the order in which its keys first appeared. -/
structure OrderedMap (κ : Type) (α : Type) where
  entries : List (κ × α)
  distinct : (entries.map Prod.fst).Nodup

namespace OrderedMap

variable {κ α : Type}

/-- The map without entries. -/
def empty : OrderedMap κ α := ⟨[], List.nodup_nil⟩

instance : Inhabited (OrderedMap κ α) := ⟨empty⟩

/-- The number of keys. -/
def size (map : OrderedMap κ α) : Nat := map.entries.length

/-- The keys in order of first insertion. -/
def keys (map : OrderedMap κ α) : List κ := map.entries.map Prod.fst

variable [DecidableEq κ]

/-- The value stored under a key. -/
def get? (map : OrderedMap κ α) (key : κ) : Option α := lookup? key map.entries

/-- Whether a key is present. -/
def contains (map : OrderedMap κ α) (key : κ) : Bool := (map.get? key).isSome

/-- Store a value; a present key keeps its place, a new key comes last. -/
def insert (map : OrderedMap κ α) (key : κ) (value : α) : OrderedMap κ α where
  entries := place key value map.entries
  distinct := by
    rw [map_fst_place]
    split
    · exact map.distinct
    · next absent =>
        rw [List.nodup_append]
        refine ⟨map.distinct, by simp, ?_⟩
        intro present member added addedMember
        simp only [List.mem_singleton] at addedMember
        subst addedMember
        intro equal
        exact absent (equal ▸ member)

@[simp] theorem get?_empty (key : κ) : (empty : OrderedMap κ α).get? key = none := rfl

theorem get?_insert (map : OrderedMap κ α) (key other : κ) (value : α) :
    (map.insert key value).get? other = if key = other then some value else map.get? other :=
  lookup?_place key other value map.entries

theorem keys_insert (map : OrderedMap κ α) (key : κ) (value : α) :
    (map.insert key value).keys =
      if key ∈ map.keys then map.keys else map.keys ++ [key] :=
  map_fst_place key value map.entries

theorem get?_eq_none_iff {map : OrderedMap κ α} {key : κ} :
    map.get? key = none ↔ key ∉ map.keys :=
  lookup?_eq_none_iff

/-- The entries are what is stored under the keys. -/
theorem mem_entries_iff {map : OrderedMap κ α} {key : κ} {value : α} :
    (key, value) ∈ map.entries ↔ map.get? key = some value := by
  constructor
  · exact lookup?_of_mem map.distinct
  · exact mem_of_lookup?

theorem mem_keys_of_get? {map : OrderedMap κ α} {key : κ} {value : α}
    (found : map.get? key = some value) : key ∈ map.keys := by
  apply Decidable.byContradiction
  intro absent
  rw [get?_eq_none_iff.mpr absent] at found
  contradiction

end OrderedMap

end StackLang
