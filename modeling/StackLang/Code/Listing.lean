import StackLang.Code.Instruction
import StackLang.OrderedMap

/-!
# Listings

A listing is code in which jump targets are still symbolic: instructions and
markers that place a label in front of the next instruction.  `resolve` numbers
the labels and `instructions` drops the markers.
-/

namespace StackLang

/-- An instruction or a label marker. -/
inductive Emitted where
  | instruction (command : Instruction)
  | label (name : String)
  deriving DecidableEq, Repr

namespace Emitted

/-- The text of a listing line; a marker is the label with a colon. -/
def text : Emitted → String
  | .instruction command => command.text
  | .label name => name ++ ":"

/-- The instruction of a listing line. -/
def instruction? : Emitted → Option Instruction
  | .instruction command => some command
  | .label _ => none

end Emitted

/-- Code with symbolic jump targets. -/
abbrev Listing := List Emitted

namespace Listing

/-- The instructions of a listing, without the markers. -/
def instructions (listing : Listing) : List Instruction := listing.filterMap Emitted.instruction?

/-- Number the markers of a listing whose first instruction has number `next`. -/
def resolveFrom (next : Nat) (labels : OrderedMap String Nat) : Listing → OrderedMap String Nat
  | [] => labels
  | .instruction _ :: rest => resolveFrom (next + 1) labels rest
  | .label name :: rest => resolveFrom next (labels.insert name next) rest

/-- The number of the instruction that follows each label, counted from one.  A
label that is placed again keeps its rank and takes the later number. -/
def resolve (listing : Listing) : OrderedMap String Nat := resolveFrom 1 .empty listing

/-- Plain instructions as a listing. -/
def ofInstructions (instructions : List Instruction) : Listing := instructions.map Emitted.instruction

@[simp] theorem instructions_nil : instructions [] = [] := rfl

@[simp] theorem instructions_instruction_cons (command : Instruction) (rest : Listing) :
    instructions (.instruction command :: rest) = command :: instructions rest := rfl

@[simp] theorem instructions_label_cons (name : String) (rest : Listing) :
    instructions (.label name :: rest) = instructions rest := rfl

@[simp] theorem instructions_append (first second : Listing) :
    instructions (first ++ second) = instructions first ++ instructions second :=
  List.filterMap_append

@[simp] theorem instructions_ofInstructions (code : List Instruction) :
    instructions (ofInstructions code) = code := by
  induction code with
  | nil => rfl
  | cons command rest ih => exact congrArg (command :: ·) ih

/-- The second part of a listing is numbered from the number after the first. -/
theorem resolveFrom_append (next : Nat) (labels : OrderedMap String Nat) (first second : Listing) :
    resolveFrom next labels (first ++ second) =
      resolveFrom (next + (instructions first).length) (resolveFrom next labels first) second := by
  induction first generalizing next labels with
  | nil => rfl
  | cons line rest ih =>
      cases line with
      | instruction command =>
          have number : next + ((instructions rest).length + 1) =
              next + 1 + (instructions rest).length := by omega
          simp only [List.cons_append, resolveFrom, instructions_instruction_cons,
            List.length_cons, number]
          exact ih (next + 1) labels
      | label name =>
          simp only [List.cons_append, resolveFrom, instructions_label_cons]
          exact ih next (labels.insert name next)

end Listing

end StackLang
