import Mathlib.Data.List.Sort
import Mathlib.Data.Prod.Lex
import StackLang.Automaton.Graph

/-!
# Tables that are filled in any order

The edges, the symbols of an edge and the accepting states are determined by what the table
says, whatever the order of its entries is.  They are sorted strictly, and two lists that are
sorted strictly are the same if they have the same members.
-/

namespace StackLang

section

variable {α : Type}

theorem nodup_eraseDups [BEq α] [LawfulBEq α] : (items : List α) → items.eraseDups.Nodup
  | [] => List.nodup_nil
  | item :: rest => by
      rw [List.eraseDups_cons, List.nodup_cons]
      constructor
      · intro member
        simpa using (List.mem_filter.mp (List.mem_eraseDups.mp member)).2
      · exact nodup_eraseDups (rest.filter fun other => !other == item)
  termination_by items => items.length
  decreasing_by exact Nat.lt_succ_of_le (List.length_filter_le _ _)

/-- Sorting distinct items leaves no two that are equal in the order. -/
theorem ascending_mergeSort {le : α → α → Bool} {before : α → α → Prop} {items : List α}
    (transitive : ∀ first second third, le first second = true → le second third = true →
      le first third = true)
    (total : ∀ first second, (le first second || le second first) = true)
    (strict : ∀ first ∈ items, ∀ second ∈ items, le first second = true → first ≠ second →
      before first second)
    (distinct : items.Nodup) : (items.mergeSort le).Pairwise before := by
  have sorted := List.pairwise_mergeSort transitive total items
  have apart : (items.mergeSort le).Nodup := (List.mergeSort_perm items le).nodup_iff.mpr distinct
  apply (sorted.and apart).imp_of_mem
  intro first second firstMember secondMember ordered
  exact strict first (List.mem_mergeSort.mp firstMember) second (List.mem_mergeSort.mp secondMember)
    ordered.1 ordered.2

theorem eq_of_ascending {before : α → α → Prop}
    (asymmetric : ∀ first second, before first second → ¬ before second first)
    {one other : List α} (oneAscends : one.Pairwise before) (otherAscends : other.Pairwise before)
    (same : ∀ item, item ∈ one ↔ item ∈ other) : one = other := by
  have antisymmetric : Std.Antisymm before :=
    ⟨fun first second forth back => absurd back (asymmetric first second forth)⟩
  have irreflexive : Std.Irrefl before := ⟨fun item here => asymmetric item item here here⟩
  exact oneAscends.eq_of_mem_iff otherAscends same

end

namespace OrderedMap

variable {κ α : Type} [DecidableEq κ]

theorem get?_eq_of_perm {one other : OrderedMap κ α} (same : one.entries.Perm other.entries)
    (key : κ) : one.get? key = other.get? key := by
  apply Option.ext
  intro value
  rw [← mem_entries_iff, ← mem_entries_iff, same.mem_iff]

/-- Store entries one after the other. -/
def insertEach (map : OrderedMap κ α) (entries : List (κ × α)) : OrderedMap κ α :=
  entries.foldl (fun map entry => map.insert entry.1 entry.2) map

/-- Entries under new and distinct keys come behind the others. -/
theorem entries_insertEach (map : OrderedMap κ α) {entries : List (κ × α)}
    (distinct : (map.keys ++ entries.map Prod.fst).Nodup) :
    (map.insertEach entries).entries = map.entries ++ entries := by
  induction entries generalizing map with
  | nil => exact (List.append_nil _).symm
  | cons entry rest ih =>
      have absent : entry.1 ∉ map.keys := by
        intro present
        exact (List.nodup_append.mp distinct).2.2 entry.1 present entry.1 (by simp) rfl
      have placed : (map.insert entry.1 entry.2).entries = map.entries ++ [entry] :=
        place_of_not_mem absent
      have keys : (map.insert entry.1 entry.2).keys = map.keys ++ [entry.1] := by
        rw [keys_insert, if_neg absent]
      have later := ih (map.insert entry.1 entry.2) (by
        rw [keys]
        simpa using distinct)
      rw [placed, List.append_assoc] at later
      exact later

/-- Entries under distinct keys are stored in any order. -/
theorem insertEach_perm {one other : List (κ × α)} (reordered : one.Perm other)
    (distinct : (one.map Prod.fst).Nodup) :
    ((empty : OrderedMap κ α).insertEach one).entries.Perm (empty.insertEach other).entries := by
  have others : (other.map Prod.fst).Nodup := (reordered.map Prod.fst).nodup_iff.mp distinct
  rw [entries_insertEach empty distinct, entries_insertEach empty others]
  exact reordered

end OrderedMap

namespace Automaton

variable {automaton one other : Automaton}

theorem pairLE_iff {left right : Nat × Nat} :
    pairLE left right = true ↔ left.1 < right.1 ∨ left.1 = right.1 ∧ left.2 ≤ right.2 := by
  simp [pairLE]

theorem mem_edges {edge : Nat × Nat} :
    edge ∈ automaton.edges ↔ ∃ symbol, automaton.next? edge.1 symbol = some edge.2 := by
  rw [edges, List.mem_mergeSort, List.mem_eraseDups, List.mem_map]
  constructor
  · rintro ⟨⟨⟨source, symbol⟩, target⟩, member, rfl⟩
    exact ⟨symbol, OrderedMap.mem_entries_iff.mp member⟩
  · rintro ⟨symbol, step⟩
    exact ⟨((edge.1, symbol), edge.2), OrderedMap.mem_entries_iff.mpr step, rfl⟩

theorem edges_ascending (automaton : Automaton) :
    automaton.edges.Pairwise (Prod.Lex (· < ·) (· < ·)) := by
  apply ascending_mergeSort
  · intro first second third
    simp only [pairLE_iff]
    omega
  · intro first second
    simp only [Bool.or_eq_true, pairLE_iff]
    omega
  · intro first _ second _ ordered different
    rw [pairLE_iff] at ordered
    rw [Prod.lex_def]
    rcases ordered with less | ⟨same, le⟩
    · exact .inl less
    · exact .inr ⟨same, Nat.lt_of_le_of_ne le fun equal => different (Prod.ext same equal)⟩
  · exact nodup_eraseDups _

theorem mem_symbols {edge : Nat × Nat} {symbol : Char} :
    symbol ∈ automaton.symbols edge ↔ automaton.next? edge.1 symbol = some edge.2 := by
  rw [symbols, List.mem_mergeSort, List.mem_map]
  constructor
  · rintro ⟨⟨⟨source, char⟩, target⟩, member, rfl⟩
    obtain ⟨stored, ends⟩ := List.mem_filter.mp member
    simp only [Bool.and_eq_true, beq_iff_eq] at ends
    rw [← ends.1, ← ends.2]
    exact OrderedMap.mem_entries_iff.mp stored
  · intro step
    refine ⟨((edge.1, symbol), edge.2), ?_, rfl⟩
    rw [List.mem_filter]
    exact ⟨OrderedMap.mem_entries_iff.mpr step, by simp⟩

/-- The symbols of an edge differ, since with its first state they are keys of the table. -/
theorem symbols_ascending (automaton : Automaton) (edge : Nat × Nat) :
    (automaton.symbols edge).Pairwise (· < ·) := by
  apply ascending_mergeSort
  · intro first second third
    simp only [decide_eq_true_eq]
    omega
  · intro first second
    simp only [Bool.or_eq_true, decide_eq_true_eq]
    omega
  · intro first _ second _ ordered different
    rw [decide_eq_true_eq] at ordered
    have codes : first.toNat ≠ second.toNat := fun same => different (Char.toNat_inj.mp same)
    exact Char.lt_def.mpr (UInt32.lt_iff_toNat_lt.mpr (Nat.lt_of_le_of_ne ordered codes))
  · have keys := List.pairwise_map.mp automaton.transitions.distinct
    apply List.pairwise_map.mpr
    apply (keys.filter _).imp_of_mem
    intro first second firstHere secondHere different sameSymbol
    have firstEnds := (List.mem_filter.mp firstHere).2
    have secondEnds := (List.mem_filter.mp secondHere).2
    simp only [Bool.and_eq_true, beq_iff_eq] at firstEnds secondEnds
    exact different (Prod.ext (firstEnds.1.trans secondEnds.1.symm) sameSymbol)

theorem mem_accepted {entry : Nat × TokenKind} :
    entry ∈ automaton.accepted ↔ automaton.kind? entry.1 = some entry.2 := by
  rw [accepted, List.mem_mergeSort]
  exact OrderedMap.mem_entries_iff

theorem accepted_ascending (automaton : Automaton) :
    automaton.accepted.Pairwise fun left right => left.1 < right.1 := by
  have keys := List.pairwise_map.mp automaton.accepting.distinct
  apply ascending_mergeSort
  · intro first second third
    simp only [decide_eq_true_eq]
    omega
  · intro first second
    simp only [Bool.or_eq_true, decide_eq_true_eq]
    omega
  · intro first firstMember second secondMember ordered different
    rw [decide_eq_true_eq] at ordered
    apply Nat.lt_of_le_of_ne ordered
    intro same
    have kinds : some first.2 = some second.2 := by
      rw [← OrderedMap.mem_entries_iff.mp firstMember, same,
        OrderedMap.mem_entries_iff.mp secondMember]
    exact different (Prod.ext same (Option.some.inj kinds))
  · exact keys.imp fun different same => different (congrArg Prod.fst same)

/-- Tables that say the same. -/
structure SameTable (one other : Automaton) : Prop where
  transitions : ∀ state symbol, one.next? state symbol = other.next? state symbol
  accepting : ∀ state, one.kind? state = other.kind? state

theorem SameTable.symm (same : SameTable one other) : SameTable other one :=
  ⟨fun state symbol => (same.transitions state symbol).symm,
    fun state => (same.accepting state).symm⟩

theorem SameTable.trans {third : Automaton} (first : SameTable one other)
    (second : SameTable other third) : SameTable one third :=
  ⟨fun state symbol => (first.transitions state symbol).trans (second.transitions state symbol),
    fun state => (first.accepting state).trans (second.accepting state)⟩

/-- The drawing is determined by what the table says. -/
theorem toDot_eq_of_same_table (same : SameTable one other) : one.toDot = other.toDot := by
  have sameEdges : one.edges = other.edges := by
    refine eq_of_ascending ?_ one.edges_ascending other.edges_ascending ?_
    · intro first second
      simp only [Prod.lex_def]
      omega
    · intro edge
      simp only [mem_edges, same.transitions]
  have sameSymbols : one.symbols = other.symbols := by
    funext edge
    refine eq_of_ascending ?_ (one.symbols_ascending edge) (other.symbols_ascending edge) ?_
    · intro first second
      exact Char.lt_asymm
    · intro symbol
      simp only [mem_symbols, same.transitions]
  have sameAccepted : one.accepted = other.accepted := by
    refine eq_of_ascending ?_ one.accepted_ascending other.accepted_ascending ?_
    · intro first second
      exact Nat.lt_asymm
    · intro entry
      simp only [mem_accepted, same.accepting]
  have sameLines : one.edgeLine = other.edgeLine := by
    funext edge
    unfold edgeLine
    rw [sameSymbols]
  unfold toDot
  rw [sameEdges, sameAccepted, sameLines]

/-- What a table is filled with. -/
inductive Operation where
  | addTransition (state : Nat) (symbol : Char) (next : Nat)
  | markAccept (state : Nat) (kind : TokenKind)

namespace Operation

/-- The entry that an operation makes among the transitions. -/
def transition? : Operation → Option ((Nat × Char) × Nat)
  | .addTransition state symbol next => some ((state, symbol), next)
  | .markAccept _ _ => none

/-- The entry that an operation makes among the accepting states. -/
def accepting? : Operation → Option (Nat × TokenKind)
  | .addTransition _ _ _ => none
  | .markAccept state kind => some (state, kind)

end Operation

/-- The automaton after one more operation. -/
def apply (automaton : Automaton) : Operation → Automaton
  | .addTransition state symbol next => automaton.addTransition state symbol next
  | .markAccept state kind => automaton.markAccept state kind

/-- The automaton after operations on an empty table. -/
def after (operations : List Operation) : Automaton := operations.foldl apply empty

/-- The same entries in another order. -/
structure Reordered (one other : Automaton) : Prop where
  transitions : one.transitions.entries.Perm other.transitions.entries
  accepting : one.accepting.entries.Perm other.accepting.entries

theorem Reordered.sameTable (reordered : Reordered one other) : SameTable one other where
  transitions state symbol := OrderedMap.get?_eq_of_perm reordered.transitions (state, symbol)
  accepting state := OrderedMap.get?_eq_of_perm reordered.accepting state

theorem foldl_apply (operations : List Operation) (automaton : Automaton) :
    operations.foldl apply automaton =
      ⟨automaton.transitions.insertEach (operations.filterMap Operation.transition?),
        automaton.accepting.insertEach (operations.filterMap Operation.accepting?)⟩ := by
  induction operations generalizing automaton with
  | nil => rfl
  | cons operation rest ih =>
      rw [List.foldl_cons, ih]
      cases operation with
      | addTransition state symbol next => rfl
      | markAccept state kind => rfl

/-- Operations with distinct keys may be carried out in any order. -/
theorem after_reordered {first second : List Operation} (reordered : first.Perm second)
    (symbols : ((first.filterMap Operation.transition?).map Prod.fst).Nodup)
    (states : ((first.filterMap Operation.accepting?).map Prod.fst).Nodup) :
    Reordered (after first) (after second) := by
  rw [after, after, foldl_apply, foldl_apply]
  constructor
  · exact OrderedMap.insertEach_perm (reordered.filterMap Operation.transition?) symbols
  · exact OrderedMap.insertEach_perm (reordered.filterMap Operation.accepting?) states

end Automaton

end StackLang
