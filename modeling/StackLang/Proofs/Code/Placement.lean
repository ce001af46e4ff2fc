import Mathlib.Data.List.Basic
import StackLang.Code.Listing

/-!
# Placed listings

A listing is placed in a program where its instructions stand one after another
and its markers have the numbers that the labels resolve to.  A listing whose
markers are pairwise distinct is placed in every program that it is assembled
into.
-/

namespace StackLang

/-- The name that a marker places. -/
def Emitted.label? : Emitted → Option String
  | .instruction _ => none
  | .label name => some name

namespace Listing

/-- The names of the markers of a listing, in order. -/
def markers (listing : Listing) : List String := listing.filterMap Emitted.label?

/-- The number of instructions of a listing. -/
def size (listing : Listing) : Nat := (instructions listing).length

/-- The markers with their numbers, if the first instruction has number `next`. -/
def numbersFrom (next : Nat) : Listing → List (String × Nat)
  | [] => []
  | .instruction _ :: rest => numbersFrom (next + 1) rest
  | .label name :: rest => (name, next) :: numbersFrom next rest

/-- The listing stands in the program from an index on. -/
def PlacedAt (program : Array Instruction) (labels : List (String × Nat)) : Nat → Listing → Prop
  | _, [] => True
  | position, .instruction command :: rest =>
      program[position]? = some command ∧ PlacedAt program labels (position + 1) rest
  | position, .label name :: rest =>
      (name, position + 1) ∈ labels ∧ PlacedAt program labels position rest

@[simp]
theorem markers_nil : markers [] = [] := rfl

@[simp]
theorem markers_instruction_cons (command : Instruction) (rest : Listing) :
    markers (.instruction command :: rest) = markers rest := rfl

@[simp]
theorem markers_label_cons (name : String) (rest : Listing) :
    markers (.label name :: rest) = name :: markers rest := rfl

@[simp]
theorem markers_append (first second : Listing) :
    markers (first ++ second) = markers first ++ markers second :=
  List.filterMap_append

@[simp]
theorem markers_ofInstructions (code : List Instruction) : markers (ofInstructions code) = [] := by
  induction code with
  | nil => rfl
  | cons command rest ih => exact ih

@[simp]
theorem size_nil : size [] = 0 := rfl

@[simp]
theorem size_instruction_cons (command : Instruction) (rest : Listing) :
    size (.instruction command :: rest) = size rest + 1 := rfl

@[simp]
theorem size_label_cons (name : String) (rest : Listing) :
    size (.label name :: rest) = size rest := rfl

@[simp]
theorem size_append (first second : Listing) : size (first ++ second) = size first + size second := by
  rw [size, instructions_append, List.length_append]
  rfl

@[simp]
theorem size_ofInstructions (code : List Instruction) : size (ofInstructions code) = code.length :=
  congrArg List.length (instructions_ofInstructions code)

theorem numbersFrom_names (next : Nat) (listing : Listing) :
    (numbersFrom next listing).map Prod.fst = markers listing := by
  induction listing generalizing next with
  | nil => rfl
  | cons line rest ih =>
      cases line with
      | instruction command => exact ih (next + 1)
      | label name => exact congrArg (name :: ·) (ih next)

theorem numbersFrom_bounds {next number : Nat} {name : String} {listing : Listing}
    (member : (name, number) ∈ numbersFrom next listing) :
    next ≤ number ∧ number ≤ next + size listing := by
  induction listing generalizing next with
  | nil => simp [numbersFrom] at member
  | cons line rest ih =>
      cases line with
      | instruction command =>
          have bounds := ih member
          simp only [size_instruction_cons]
          omega
      | label other =>
          simp only [numbersFrom, List.mem_cons, Prod.mk.injEq] at member
          rcases member with here | later
          · simp [here.2]
          · exact ih later

theorem resolveFrom_entries (next : Nat) (labels : OrderedMap String Nat) (listing : Listing)
    (distinct : (labels.entries.map Prod.fst ++ markers listing).Nodup) :
    (resolveFrom next labels listing).entries = labels.entries ++ numbersFrom next listing := by
  induction listing generalizing next labels with
  | nil => simp [resolveFrom, numbersFrom]
  | cons line rest ih =>
      cases line with
      | instruction command => exact ih (next + 1) labels distinct
      | label name =>
          have absent : name ∉ labels.entries.map Prod.fst := by
            intro present
            exact (List.nodup_append.mp distinct).2.2 name present name (by simp) rfl
          have placed : (labels.insert name next).entries = labels.entries ++ [(name, next)] :=
            OrderedMap.place_of_not_mem absent
          have later := ih next (labels.insert name next) (by
            rw [placed]
            simpa using distinct)
          rw [placed] at later
          simpa [resolveFrom, numbersFrom] using later

/-- Distinct markers resolve to their numbers, in order. -/
theorem resolve_entries {listing : Listing} (distinct : (markers listing).Nodup) :
    listing.resolve.entries = numbersFrom 1 listing := by
  have entries := resolveFrom_entries 1 .empty listing (by simpa [OrderedMap.empty] using distinct)
  simpa [resolve, OrderedMap.empty] using entries

section

variable {program : Array Instruction} {labels : List (String × Nat)} {position : Nat}

theorem placedAt_append {first second : Listing} :
    PlacedAt program labels position (first ++ second) ↔
      PlacedAt program labels position first ∧
        PlacedAt program labels (position + size first) second := by
  induction first generalizing position with
  | nil => simp [PlacedAt]
  | cons line rest ih =>
      cases line with
      | instruction command =>
          have number : position + (size rest + 1) = position + 1 + size rest := by omega
          simp [PlacedAt, ih, number, and_assoc]
      | label name => simp [PlacedAt, ih, and_assoc]

theorem PlacedAt.left {first second : Listing}
    (placed : PlacedAt program labels position (first ++ second)) :
    PlacedAt program labels position first :=
  (placedAt_append.mp placed).1

theorem PlacedAt.right {first second : Listing}
    (placed : PlacedAt program labels position (first ++ second)) :
    PlacedAt program labels (position + size first) second :=
  (placedAt_append.mp placed).2

/-- A listing is placed where its instructions stand, if its labels are known. -/
theorem placedAt_of_instructions (listing : Listing)
    (stands : ∀ index command, (instructions listing)[index]? = some command →
      program[position + index]? = some command)
    (known : ∀ entry ∈ numbersFrom (position + 1) listing, entry ∈ labels) :
    PlacedAt program labels position listing := by
  induction listing generalizing position with
  | nil => trivial
  | cons line rest ih =>
      cases line with
      | instruction command =>
          constructor
          · exact stands 0 command (by simp)
          · apply ih
            · intro index later found
              have here := stands (index + 1) later (by simpa using found)
              rwa [Nat.add_comm index 1, ← Nat.add_assoc] at here
            · exact known
      | label name =>
          constructor
          · exact known _ (by simp [numbersFrom])
          · apply ih
            · exact stands
            · intro entry member
              exact known entry (by simp [numbersFrom, member])

end

end Listing

end StackLang
