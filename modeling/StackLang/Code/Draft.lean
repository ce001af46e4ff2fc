import StackLang.Code.Assembly

/-!
# Drafts

A draft is a listing under construction.  Code is emitted at its end, labels are
numbered in the order in which they are made, and the code behind a mark can be
taken off and emitted again later.
-/

namespace StackLang

/-- The label with the given number. -/
def labelName (number : Nat) : String := "#label" ++ toString number

/-- A listing under construction with the number of labels made so far. -/
structure Draft where
  listing : Listing
  labels : Nat

namespace Draft

/-- The draft without code. -/
def empty : Draft := ⟨[], 0⟩

/-- Emit code at the end. -/
def append (draft : Draft) (piece : Listing) : Draft :=
  { draft with listing := draft.listing ++ piece }

/-- Emit one instruction. -/
def emit (draft : Draft) (instruction : Instruction) : Draft :=
  draft.append [.instruction instruction]

/-- Place a label in front of the next instruction. -/
def addLabel (draft : Draft) (name : String) : Draft := draft.append [.label name]

/-- Make a new label. -/
def freshLabel (draft : Draft) : String × Draft :=
  (labelName (draft.labels + 1), { draft with labels := draft.labels + 1 })

/-- The end of the draft, to split it at later. -/
def mark (draft : Draft) : Nat := draft.listing.length

/-- Take off the code behind a mark; a mark past the end takes nothing. -/
def splitOff (draft : Draft) (mark : Nat) : Listing × Draft :=
  (draft.listing.drop mark, { draft with listing := draft.listing.take mark })

/-- Assemble the code of a draft. -/
def assemble (draft : Draft) (symbols : SymbolTable) : Assembly :=
  .ofListing draft.listing symbols

/-- Splitting at a mark takes off what was emitted behind it. -/
theorem splitOff_append (draft : Draft) (piece : Listing) :
    (draft.append piece).splitOff draft.mark = (piece, draft) := by
  simp [splitOff, append, mark]

/-- Putting back what was taken off gives the same draft. -/
theorem append_splitOff (draft : Draft) (mark : Nat) :
    (draft.splitOff mark).2.append (draft.splitOff mark).1 = draft := by
  simp [splitOff, append]

end Draft

end StackLang
