import StackLang.Proofs.Completeness.Rendering
import StackLang.Proofs.Reading.Statement

/-!
# Assignments are read back

An assignment of a rendered expression is read as one that stores the expression, with a
preview that shows it, and the statement around the assignment ends at the semicolon.
-/

namespace StackLang

namespace AssignmentOperator

theorem symbol_injective : Function.Injective symbol := by
  intro one other same
  cases one <;> cases other <;> first | rfl | exact absurd same (by decide)

theorem ofToken?_of_spells {token : Token} {operator : AssignmentOperator}
    (signed : token.spells operator.symbol = true) : ofToken? token = some operator := by
  have listed : operator ∈ all := by cases operator <;> decide
  exact Reading.find?_of_spells symbol_injective listed signed

end AssignmentOperator

namespace Reading

open Terminal (Opens)
open StackLang.Expr (Renders)

variable {target sign semicolon : Token} {tokens rest : List Token} {tree : Expr}
  {operator : AssignmentOperator}

/-- A rendered expression is foreseen as it is read. -/
theorem foreseen_takes (renders : Renders 0 tree tokens) (follows : Opens expressionEnd rest) :
    Takes foreseen tokens rest fun foreseen =>
      foreseen.preview = some tree.skeleton ∧ foreseen.value = tree := by
  have read := expression_restores tree tokens rest (Nat.le_refl _) renders follows
  have taken : Takes foreseen tokens rest fun foreseen => foreseen.value = tree := read.foresee
  intro before position
  obtain ⟨found, unread, errors⟩ := taken before position
  obtain ⟨-, shown, -⟩ := (foreseen_gives before (List.Subset.refl _)).clean errors
  exact ⟨⟨found ▸ shown, found⟩, unread, errors⟩

theorem assignment_takes (named : target.isIdentifier = true)
    (signed : sign.spells operator.symbol = true) {good : Option Assignment → Prop}
    (value : Takes (match operator.step? with
      | some step => pure (some ⟨target, .step step⟩)
      | none => do
          if ← seesStart .expression then
            return some ⟨target, .store operator.arithmetic? (← foreseen)⟩
          abandonAssignment target .assignedValue) tokens rest good) :
    Takes assignment (target :: sign :: tokens) rest good := by
  have start : Opens [.identifier] (target :: (sign :: tokens ++ rest)) :=
    Expr.opens_of_mem List.mem_cons_self named
  have name : Takes identifier? [target] (sign :: tokens ++ rest) (· = some target) :=
    .yes asks_seesIdentifier start (.take _)
  change Takes _ ([target] ++ (sign :: tokens)) rest good
  refine .rule (.bind name ?_)
  rintro _ rfl
  refine .look (fun _ => rfl) fun cursor position => ?_
  have next : (cursor.next?.bind AssignmentOperator.ofToken?) = some operator := by
    rw [next?_eq position]
    exact AssignmentOperator.ofToken?_of_spells signed
  rw [next]
  exact .consume value

theorem step_takes {step : BinaryOperator} (named : target.isIdentifier = true)
    (signed : sign.spells operator.symbol = true) (stepped : operator.step? = some step) :
    Takes assignment [target, sign] rest (· = some ⟨target, .step step⟩) := by
  refine assignment_takes named signed ?_
  rw [stepped]
  exact .pure rfl

theorem store_takes (named : target.isIdentifier = true)
    (signed : sign.spells operator.symbol = true) (stores : operator.step? = none)
    (renders : Renders 0 tree tokens) (follows : Opens expressionEnd rest) :
    Takes assignment (target :: sign :: tokens) rest fun assignment? =>
      ∃ value : Foreseen, assignment? = some ⟨target, .store operator.arithmetic? value⟩ ∧
        value.preview = some tree.skeleton ∧ value.value = tree := by
  refine assignment_takes named signed ?_
  rw [stores]
  refine .yes (asks_seesStart _) (renders.opens rest) ?_
  exact .after (foreseen_takes renders follows) fun value found => .pure ⟨value, rfl, found⟩

/-- The statement around an assignment, whatever its nested statements are read with. -/
theorem assignmentStatement_takes {good : Option Assignment → Prop} {assigned : Statement → Prop}
    (nested : Reading Statement) (named : target.isIdentifier = true)
    (signed : sign.spells operator.symbol = true) (ends : semicolon.spells ";" = true)
    (taken : Takes assignment (target :: sign :: tokens) (semicolon :: rest) good)
    (implied : ∀ assignment?, good assignment? →
      assigned ((assignment?.map Statement.assign).getD .skipped)) :
    Takes (statementOf nested) (target :: sign :: (tokens ++ [semicolon])) rest assigned := by
  have start : Opens [.identifier] (target :: (sign :: (tokens ++ [semicolon]) ++ rest)) :=
    Expr.opens_of_mem List.mem_cons_self named
  have noCall : Terminal.anyAccepts [.word "("] (some sign) = false := by
    have other : sign.spells "(" = false := by
      rw [Token.spells, value_of_spells signed]
      cases operator <;> simp [AssignmentOperator.symbol]
    simpa [Terminal.anyAccepts] using other
  refine .no (asks_seesStart .type) start (by decide) (.yes asks_seesIdentifier start ?_)
  refine .askSecond noCall ?_
  refine .look (fun _ => rfl) fun cursor position => ?_
  have second : cursor.rest.tail.head?.bind AssignmentOperator.ofToken? = some operator := by
    rw [position]
    exact AssignmentOperator.ofToken?_of_spells signed
  rw [second]
  change Takes _ ((target :: sign :: tokens) ++ [semicolon]) rest assigned
  refine .bind (.after taken fun assignment? holds => .pure (implied assignment? holds)) ?_
  exact fun statement holds => .after (.demand ends) fun _ _ => .pure holds

end Reading

end StackLang
