import Mathlib.Data.List.Chain
import StackLang.Proofs.Course.Program

/-!
# Complaints in the order of the tokens

A course is a chain of single steps.  No step leads back to a token that has been passed,
and a complaint is about the next token.  So the syntax errors of a parse are about tokens
in their order, and behind one about the end of input there are only such errors.
-/

namespace StackLang

namespace Cursor

variable {tokens : List Token} {cursor next last : Cursor} {visited : List Cursor}

/-- One thing that a reader does to a cursor. -/
inductive Step : Cursor → Cursor → Prop
  | skip (cursor : Cursor) :
      Step cursor { cursor with
        rest := cursor.rest.tail, stuck := cursor.stuck || cursor.rest.isEmpty }
  | skipTo (stop : Option Token → Bool) (cursor : Cursor) :
      Step cursor { cursor with
        rest := cursor.rest.dropWhile fun token => !stop (some token) }
  | complain (complaint : Complaint) (cursor : Cursor) :
      Step cursor { cursor with errors := cursor.errors.push ⟨complaint, cursor.next?⟩ }
  | log (entry : TraceEntry) (cursor : Cursor) :
      Step cursor { cursor with trace := cursor.trace.push ⟨cursor.depth, entry⟩ }
  | note (stuck : Bool) (cursor : Cursor) : Step cursor { cursor with stuck := stuck }
  | count (cursor : Cursor) : Step cursor { cursor with switches := cursor.switches + 1 }
  | enter (nonterminal : Nonterminal) (cursor : Cursor) : Step cursor (cursor.enter nonterminal)
  | leave (depth : Nat) (cursor : Cursor) : Step cursor { cursor with depth := depth }

/-- What a reader does is one step after another. -/
theorem Course.steps {before after : Cursor} (course : before.Course after) :
    Relation.ReflTransGen Step before after := by
  induction course with
  | done => exact .refl
  | trans _ _ ihFront ihBack => exact ihFront.trans ihBack
  | skip cursor => exact .single (.skip cursor)
  | skipTo stop cursor => exact .single (.skipTo stop cursor)
  | complain complaint cursor => exact .single (.complain complaint cursor)
  | log entry _ cursor => exact .single (.log entry cursor)
  | note stuck cursor => exact .single (.note stuck cursor)
  | count cursor => exact .single (.count cursor)
  | @rule nonterminal before after _ ih =>
      exact .head (.enter nonterminal before) (ih.tail (.leave before.depth after))

/-- Nothing is ahead of the later cursor but what was ahead of the earlier one. -/
def Onward (cursor later : Cursor) : Prop := later.rest <:+ cursor.rest

instance : IsTrans Cursor Onward := ⟨fun _ _ _ front back => List.IsSuffix.trans back front⟩

/-- No step leads back. -/
theorem Step.onward (step : Step cursor next) : cursor.Onward next := by
  cases step with
  | skip => exact List.tail_suffix _
  | skipTo => exact List.dropWhile_suffix _
  | complain | log | note | count | enter | leave => exact List.suffix_refl _

/-- A step records at most one error, which is about the next token. -/
theorem Step.errors (step : Step cursor next) :
    next.errors = cursor.errors ∨
      ∃ complaint, next.errors = cursor.errors.push ⟨complaint, cursor.next?⟩ := by
  cases step with
  | complain complaint => exact .inr ⟨complaint, rfl⟩
  | skip | skipTo | log | note | count | enter | leave => exact .inl rfl

/-- Along a chain of steps all cursors further on are onward. -/
theorem pairwise_onward (steps : visited.IsChain Step) : visited.Pairwise Onward :=
  List.isChain_iff_pairwise.mp (steps.imp fun _ _ => Step.onward)

/-- The errors recorded along a chain of steps are about the next tokens of some of its
cursors, in the order of the chain. -/
theorem exists_complaining (steps : (cursor :: visited).IsChain Step)
    (ends : (cursor :: visited).getLast? = some last) :
    ∃ complaining : List Cursor, complaining.Sublist (cursor :: visited) ∧
      last.errors.toList.map SyntaxError.token? =
        cursor.errors.toList.map SyntaxError.token? ++ complaining.map next? := by
  induction visited generalizing cursor with
  | nil =>
      obtain rfl := Option.some.inj ends
      exact ⟨[], List.nil_sublist _, (List.append_nil _).symm⟩
  | cons next visited ih =>
      obtain ⟨step, later⟩ := List.isChain_cons_cons.mp steps
      rw [List.getLast?_cons_cons] at ends
      obtain ⟨complaining, listed, recorded⟩ := ih later ends
      rcases step.errors with same | ⟨complaint, pushed⟩
      · exact ⟨complaining, listed.cons cursor, by rw [recorded, same]⟩
      · refine ⟨cursor :: complaining, listed.cons_cons cursor, ?_⟩
        rw [recorded, pushed]
        simp

/-- The position of the next token in the list of all tokens. -/
def position (tokens : List Token) (cursor : Cursor) : Nat := tokens.length - cursor.rest.length

/-- What is ahead starts at the position. -/
theorem rest_eq_drop (ahead : cursor.rest <:+ tokens) :
    cursor.rest = tokens.drop (cursor.position tokens) :=
  List.suffix_iff_eq_drop.mp ahead

theorem next?_eq_getElem? (ahead : cursor.rest <:+ tokens) :
    cursor.next? = tokens[cursor.position tokens]? := by
  rw [next?, rest_eq_drop ahead, List.head?_drop]

theorem Onward.position_le {later : Cursor} (onward : cursor.Onward later) :
    cursor.position tokens ≤ later.position tokens :=
  Nat.sub_le_sub_left onward.length_le _

/-- Cursors that a parse of the tokens goes through one step after another, never backwards. -/
structure Passage (tokens : List Token) (visited : List Cursor) : Prop where
  starts : visited.head? = some (.initial tokens)
  ends : visited.getLast? = some (Reading.wholeProgram.run (.initial tokens)).2
  steps : visited.IsChain Step
  placed : ∀ cursor ∈ visited, cursor.rest = tokens.drop (cursor.position tokens)
  forward : (visited.map (position tokens)).Pairwise (· ≤ ·)

end Cursor

namespace Reading

theorem checkEnd_courses (before : Cursor) : Courses checkEnd before :=
  .look before.rest.isEmpty rfl (.ite (fun _ => complain_courses _ before) fun _ => .pure ())

theorem wholeProgram_courses (before : Cursor) : Courses wholeProgram before := by
  obtain ⟨inside, course, left⟩ := program_enters before
  have program : Courses program before := by
    rw [Courses, left]
    exact .rule .program course
  exact program.bind fun _ middle _ => (checkEnd_courses middle).bind fun _ _ _ => .pure _

end Reading

/-- A parse goes through the tokens from the first on and never backwards.  Its syntax errors
are about tokens at positions that it comes to, in that order, so behind an error about the
end of input all errors are about the end of input. -/
theorem Program.ofTokens_errors_in_order (tokens : List Token) :
    let errors := (Program.ofTokens tokens).errors.toList
    ∃ visited : List Cursor, Cursor.Passage tokens visited ∧
      (∃ positions : List Nat, positions.Sublist (visited.map (Cursor.position tokens)) ∧
        positions.Pairwise (· ≤ ·) ∧
        errors.map SyntaxError.token? = positions.map fun position => tokens[position]?) ∧
      errors.Pairwise fun error later => error.token? = none → later.token? = none := by
  intro errors
  obtain ⟨behind, steps, ends⟩ := List.exists_isChain_cons_of_relationReflTransGen
    (Reading.wholeProgram_courses (.initial tokens)).steps
  rw [List.getLast_eq_iff_getLast?_eq_some] at ends
  have onward := Cursor.pairwise_onward steps
  have ahead : ∀ cursor ∈ Cursor.initial tokens :: behind, cursor.rest <:+ tokens :=
    List.forall_mem_cons.mpr ⟨List.suffix_refl _, fun _ => (List.pairwise_cons.mp onward).1 _⟩
  have forward : ((Cursor.initial tokens :: behind).map (Cursor.position tokens)).Pairwise (· ≤ ·) :=
    List.pairwise_map.mpr (onward.imp Cursor.Onward.position_le)
  obtain ⟨complaining, listed, recorded⟩ := Cursor.exists_complaining steps ends
  have told : errors.map SyntaxError.token? = complaining.map Cursor.next? := recorded
  refine ⟨_, ⟨rfl, ends, steps, fun cursor member => Cursor.rest_eq_drop (ahead cursor member),
    forward⟩, ⟨_, listed.map _, forward.sublist (listed.map _), ?_⟩, ?_⟩
  · rw [told, List.map_map]
    exact List.map_congr_left fun cursor member =>
      Cursor.next?_eq_getElem? (ahead cursor (listed.subset member))
  · have closing : (complaining.map Cursor.next?).Pairwise
        fun token? later? => token? = none → later? = none := by
      refine List.pairwise_map.mpr ((onward.sublist listed).imp fun {cursor later} suffix ended => ?_)
      have empty : cursor.rest = [] := List.head?_eq_none_iff.mp ended
      exact List.head?_eq_none_iff.mpr (List.suffix_nil.mp (empty ▸ suffix))
    rw [← told] at closing
    exact List.pairwise_map.mp closing

end StackLang
