import Mathlib.Data.List.Dedup
import StackLang.Code.Draft
import StackLang.Proofs.Code.Placement

/-!
# Drafts in any order of work

Code may be emitted, taken off behind any position and put back anywhere.  However a listing
came about, numbering its markers and dropping them agree: a label has the number of the
instruction that follows its last marker.
-/

namespace StackLang

theorem eraseDups_of_nodup {α : Type} [DecidableEq α] {items : List α} (distinct : items.Nodup) :
    items.eraseDups = items := by
  induction items with
  | nil => rfl
  | cons item rest ih =>
      obtain ⟨absent, others⟩ := List.nodup_cons.mp distinct
      have kept : (rest.filter fun other => !other == item) = rest := by
        apply List.filter_eq_self.mpr
        intro other member
        have different : other ≠ item := fun same => absent (same ▸ member)
        simpa using different
      rw [List.eraseDups_cons, kept, ih others]

namespace Listing

/-- Labels are listed in the order of their first markers. -/
theorem keys_resolveFrom (next : Nat) (labels : OrderedMap String Nat) (listing : Listing) :
    (resolveFrom next labels listing).keys = (labels.keys ++ markers listing).eraseDups := by
  induction listing generalizing next labels with
  | nil =>
      rw [resolveFrom, markers_nil, List.append_nil]
      exact (eraseDups_of_nodup labels.distinct).symm
  | cons line rest ih =>
      cases line with
      | instruction command =>
          rw [resolveFrom, markers_instruction_cons]
          exact ih (next + 1) labels
      | label name =>
          rw [resolveFrom, ih, OrderedMap.keys_insert, markers_label_cons]
          by_cases known : name ∈ labels.keys
          · have passed : (name :: markers rest).removeAll labels.keys =
                (markers rest).removeAll labels.keys := by
              simp [List.cons_removeAll, known]
            rw [if_pos known, List.eraseDups_append, List.eraseDups_append, passed]
          · rw [if_neg known, List.append_assoc, List.singleton_append]

theorem get?_resolveFrom_of_not_mem {name : String} {listing : Listing}
    (absent : name ∉ markers listing) (next : Nat) (labels : OrderedMap String Nat) :
    (resolveFrom next labels listing).get? name = labels.get? name := by
  induction listing generalizing next labels with
  | nil => rfl
  | cons line rest ih =>
      cases line with
      | instruction command => exact ih absent (next + 1) labels
      | label other =>
          rw [markers_label_cons, List.mem_cons, not_or] at absent
          rw [resolveFrom, ih absent.2, OrderedMap.get?_insert, if_neg (Ne.symm absent.1)]

/-- The last marker of a label decides on its number. -/
theorem get?_resolve {name : String} {back : Listing} (last : name ∉ markers back)
    (front : Listing) :
    (resolve (front ++ .label name :: back)).get? name = some (size front + 1) := by
  rw [resolve, resolveFrom_append, resolveFrom, get?_resolveFrom_of_not_mem last,
    OrderedMap.get?_insert, if_pos rfl, Nat.add_comm]
  rfl

theorem mem_markers {name : String} {listing : Listing} :
    name ∈ markers listing ↔ .label name ∈ listing := by
  induction listing with
  | nil => simp
  | cons line rest ih =>
      cases line with
      | instruction command => simp [ih]
      | label other => simp [ih]

/-- A listing is parted at the last marker of a label. -/
theorem parted_at_last {name : String} {listing : Listing} {index : Nat}
    (marked : listing[index]? = some (.label name))
    (last : ∀ later, index < later → listing[later]? ≠ some (.label name)) :
    listing.drop index = .label name :: listing.drop (index + 1) ∧
      name ∉ markers (listing.drop (index + 1)) := by
  obtain ⟨inside, here⟩ := List.getElem?_eq_some_iff.mp marked
  constructor
  · rw [List.drop_eq_getElem_cons inside, here]
  · rw [mem_markers]
    intro member
    obtain ⟨offset, found⟩ := List.mem_iff_getElem?.mp member
    rw [List.getElem?_drop] at found
    exact last (index + 1 + offset) (by omega) found

end Listing

/-- A label has the number of the instruction that follows its last marker. -/
theorem Assembly.label_resolved (symbols : SymbolTable) {name : String} {listing : Listing}
    {index : Nat} (marked : listing[index]? = some (.label name))
    (last : ∀ later, index < later → listing[later]? ≠ some (.label name)) :
    (ofListing listing symbols).labels.get? name = some (Listing.size (listing.take index) + 1) ∧
    (ofListing listing symbols).instructions.drop (Listing.size (listing.take index)) =
      Listing.instructions (listing.drop index) ++ [.operate .halt] := by
  obtain ⟨behind, unmarked⟩ := Listing.parted_at_last marked last
  have parts : listing = listing.take index ++ .label name :: listing.drop (index + 1) := by
    rw [← behind, List.take_append_drop]
  generalize listing.take index = front at parts ⊢
  generalize listing.drop index = rear at behind ⊢
  subst behind
  generalize listing.drop (index + 1) = back at parts unmarked ⊢
  subst parts
  constructor
  · exact Listing.get?_resolve unmarked front
  · rw [ofListing, Listing.instructions_append, Listing.instructions_label_cons, List.append_assoc,
      Listing.size, List.drop_left]

namespace Draft

/-- What is done with a draft.  A mark is the position of the end, and setting it changes
nothing, so code may be taken off behind any number. -/
inductive Action where
  | emit (instruction : Instruction)
  | freshLabel
  | addLabel (name : String)
  | splitOff (mark : Nat)
  /-- Emit a piece that was taken off earlier. -/
  | append (piece : Nat)

/-- The line that an action writes anew. -/
def Action.line? : Action → Option Emitted
  | .emit instruction => some (.instruction instruction)
  | .addLabel name => some (.label name)
  | _ => none

/-- A draft with the pieces that were taken off it, in the order in which they were. -/
structure Session where
  draft : Draft
  pieces : List Listing

namespace Session

/-- The session after one more action. -/
def perform (session : Session) : Action → Session
  | .emit instruction => { session with draft := session.draft.emit instruction }
  | .freshLabel => { session with draft := session.draft.freshLabel.2 }
  | .addLabel name => { session with draft := session.draft.addLabel name }
  | .splitOff mark =>
      ⟨(session.draft.splitOff mark).2, session.pieces ++ [(session.draft.splitOff mark).1]⟩
  | .append piece =>
      { session with draft := session.draft.append (session.pieces[piece]?.getD []) }

/-- The session after actions on an empty draft. -/
def after (actions : List Action) : Session := actions.foldl perform ⟨.empty, []⟩

/-- All lines, those of the draft and those of the pieces. -/
def lines (session : Session) : List Emitted := session.draft.listing ++ session.pieces.flatten

theorem mem_lines_append {session : Session} {piece : Listing} {line : Emitted}
    (member : line ∈ lines { session with draft := session.draft.append piece }) :
    line ∈ session.lines ∨ line ∈ piece := by
  simp only [lines, Draft.append, List.mem_append] at member ⊢
  rcases member with (before | added) | taken
  · exact .inl (.inl before)
  · exact .inr added
  · exact .inl (.inr taken)

/-- An action adds no line but the one that it writes. -/
theorem mem_lines_perform {session : Session} {action : Action} {line : Emitted}
    (member : line ∈ (session.perform action).lines) :
    line ∈ session.lines ∨ action.line? = some line := by
  cases action with
  | emit instruction =>
      apply (mem_lines_append member).imp_right
      intro written
      rw [List.mem_singleton.mp written]
      rfl
  | freshLabel => exact .inl member
  | addLabel name =>
      apply (mem_lines_append member).imp_right
      intro written
      rw [List.mem_singleton.mp written]
      rfl
  | splitOff mark =>
      left
      simp only [lines, perform, splitOff, List.flatten_append, List.flatten_singleton,
        List.mem_append] at member ⊢
      rcases member with front | taken | back
      · exact .inl (List.mem_of_mem_take front)
      · exact .inr taken
      · exact .inl (List.mem_of_mem_drop back)
  | append piece =>
      left
      rcases mem_lines_append member with before | again
      · exact before
      · apply List.mem_append_right
        cases found : session.pieces[piece]? with
        | none =>
            rw [found] at again
            contradiction
        | some lines =>
            rw [found] at again
            exact List.mem_flatten_of_mem (List.mem_of_getElem? found) again

theorem mem_lines_foldl {actions : List Action} {session : Session} {line : Emitted}
    (member : line ∈ (actions.foldl perform session).lines) :
    line ∈ session.lines ∨ ∃ action ∈ actions, action.line? = some line := by
  induction actions generalizing session with
  | nil => exact .inl member
  | cons action rest ih =>
      rcases ih member with early | ⟨later, done, writes⟩
      · rcases mem_lines_perform early with before | writes
        · exact .inl before
        · exact .inr ⟨action, List.mem_cons_self, writes⟩
      · exact .inr ⟨later, List.mem_cons_of_mem _ done, writes⟩

end Session

open Session

end Draft

end StackLang
