import StackLang.Proofs.Layout.Expression

/-!
# Reading statements without lines

Every reader of declarations, assignments and statements reads the same from tokens
without lines, up to the lines that names and statements remember.
-/

namespace StackLang.Reading

open Unlines

/-! ## Declarations and assignments -/

theorem resume_unmoved {stop : Option Token → Bool} (alike : StopsAlike stop) :
    Unmoved (resume stop) (resume stop) := by
  have stops : StopsAlike fun next => (Terminal.word ";").accepts next || stop next := by
    intro next
    dsimp only
    rw [Terminal.accepts_unlined, alike]
  refine (skipTo_unmoved stops).andThen fun _ => (sees_unmoved ";").andThen fun _ => ?_
  exact .ite (skip_unmoved.andThen fun _ => log_unmoved _) (.pure rfl)

theorem terminate_unmoved (complaint : Complaint) :
    Unmoved (terminate complaint) (terminate complaint) :=
  demand_unmoved ";" ((complain_unmoved complaint).andThen fun _ =>
    resume_unmoved fun next => by simp)

theorem typeName_unmoved : Unmoved typeName typeName := by
  refine .rule (peek_unlines.bind fun next => ?_)
  cases next with
  | none => exact .pure rfl
  | some token => exact (take_unlines fun _ => rfl).bind fun _ => .pure rfl

theorem constant?_unlines : Unlines (Option.map Token.unlined) constant? constant? := by
  refine peek_unlines.bind fun next => ?_
  cases next with
  | none => exact .pure rfl
  | some token =>
      refine (seesSecond_unmoved ";").andThen fun ends => .pure ?_
      rw [apply_ite (Option.map Token.unlined)]
      rfl

theorem declaration_unlines :
    Unlines (Option.map Declaration.unlined) declaration declaration := by
  refine .rule (typeName_unmoved.andThen fun type? => ?_)
  cases type? with
  | none => exact .pure rfl
  | some type =>
      refine identifier?_unlines.bind fun name? => ?_
      cases name? with
      | none =>
          exact (abandon_unmoved .variableName fun next => by simp).andThen fun _ => .pure rfl
      | some name =>
          refine (accept_unmoved "=").andThen fun _ => .ite (.pure rfl) ?_
          refine (seesStart_unmoved .expression).andThen fun _ => .ite ?_ ?_
          · refine constant?_unlines.bind fun constant => ?_
            exact foreseen_unlines.bind fun value => .pure rfl
          · exact (abandon_unmoved .initializer fun next => by simp).andThen fun _ => .pure rfl

theorem ofToken?_unlined (next : Option Token) :
    (next.map Token.unlined).bind AssignmentOperator.ofToken? =
      next.bind AssignmentOperator.ofToken? := by
  cases next with
  | none => rfl
  | some token => rfl

theorem abandonAssignment_unlines (target : Token) (complaint : Complaint) :
    Unlines (Option.map Assignment.unlined) (abandonAssignment target complaint)
      (abandonAssignment target.unlined complaint) :=
  (abandon_unmoved complaint fun next => by simp).andThen fun _ => .pure rfl

theorem assignment_unlines : Unlines (Option.map Assignment.unlined) assignment assignment := by
  refine .rule (identifier?_unlines.bind fun target? => ?_)
  cases target? with
  | none => exact .pure rfl
  | some target =>
      refine peek_unlines.bind fun next => ?_
      rw [ofToken?_unlined]
      cases next.bind AssignmentOperator.ofToken? with
      | none => exact abandonAssignment_unlines target _
      | some operator =>
          refine skip_unmoved.andThen fun _ => (log_unmoved _).andThen fun _ => ?_
          cases operator.step? with
          | some step => exact .pure rfl
          | none =>
              refine (seesStart_unmoved .expression).andThen fun _ => .ite ?_ ?_
              · exact foreseen_unlines.bind fun value => .pure rfl
              · exact abandonAssignment_unlines target _

/-! ## Simple statements -/

/-- The counterparts of readers of statements are themselves. -/
abbrev StatementUnlines (reader : Reading Statement) : Prop :=
  Unlines Statement.unlined reader reader

/-- The counterparts of readers of lists of statements are themselves. -/
abbrev BodyUnlines (reader : Reading (List Statement)) : Prop :=
  Unlines (List.map Statement.unlined) reader reader

variable {α : Type} {block statement : Reading Statement} {body : Reading (List Statement)}

theorem skipped_unlines : StatementUnlines (return .skipped) :=
  .pure Statement.unlined_skipped.symm

theorem unlessSees_unlines {erase : α → α} {reader : Reading α} (symbol : String)
    (inner : Unlines erase reader reader) :
    Unlines (Option.map erase) (unlessSees symbol reader) (unlessSees symbol reader) :=
  (sees_unmoved symbol).andThen fun _ => .ite (.pure rfl) (inner.bind fun _ => .pure rfl)

theorem abandoned_unlines (complaint : Complaint) {stop : Option Token → Bool}
    (alike : StopsAlike stop) :
    StatementUnlines (do abandon complaint stop; return .skipped) :=
  (abandon_unmoved complaint alike).andThen fun _ => skipped_unlines

theorem print_unlines : StatementUnlines print := by
  refine .rule ((take_unlines fun _ => rfl).bind fun keyword? => ?_)
  cases keyword? with
  | none => exact skipped_unlines
  | some keyword =>
      refine (accept_unmoved "(").andThen fun _ => .ite ?_ ?_
      · exact abandoned_unlines _ fun next => by simp
      · refine (unlessSees_unlines ")" expression_unlines).bind fun value => ?_
        refine (demand_abandon_unmoved ")" .printClose fun next => by simp).andThen fun _ => ?_
        exact .pure (by rw [Statement.unlined]; rfl)

theorem read_unlines : StatementUnlines read := by
  refine .rule ((keyword_unmoved "inputln").andThen fun _ => ?_)
  refine (accept_unmoved "(").andThen fun _ => .ite ?_ ?_
  · exact abandoned_unlines _ fun next => by simp
  · refine identifier?_unlines.bind fun target? => ?_
    cases target? with
    | none => exact abandoned_unlines _ fun next => by simp
    | some target =>
        refine (demand_abandon_unmoved ")" .readClose fun next => by simp).andThen fun _ => ?_
        exact .pure (by rw [Statement.unlined])

theorem leave_unlines : StatementUnlines leave := by
  refine line_unlines.bind fun line => (keyword_unmoved "break").andThen fun _ => ?_
  exact (terminate_unmoved .breakEnd).andThen fun _ => .pure (by rw [Statement.unlined])

theorem returned_unlines : Unlines Returned.unlined returned returned := by
  refine (sees_unmoved ";").andThen fun _ => .ite (.pure rfl) ?_
  refine (seesStart_unmoved .expression).andThen fun _ => .ite ?_ ?_
  · exact expression_unlines.bind fun given => .pure rfl
  · exact (abandon_unmoved .returnValue fun next => by simp).andThen fun _ => .pure rfl

theorem giveBack_unlines : StatementUnlines giveBack := by
  refine .rule (line_unlines.bind fun line => (keyword_unmoved "return").andThen fun _ => ?_)
  refine returned_unlines.bind fun value => (terminate_unmoved .returnEnd).andThen fun _ => ?_
  exact .pure (by rw [Statement.unlined])

/-! ## Control constructs -/

theorem condition_unlines (form : ConditionForm) :
    Unlines Foreseen.unlined (condition form) (condition form) := by
  refine (demand_complain_unmoved "(" form.opening).andThen fun _ => ?_
  refine (demandForeseen_unlines (abandon_unmoved _ fun next => by simp)).bind fun value => ?_
  refine (demand_unmoved ")" ?_).andThen fun _ => .pure rfl
  refine (abandon_unmoved _ fun next => by simp).andThen fun _ => ?_
  exact (accept_unmoved ")").andThen fun _ => .pure rfl

theorem whileLoop_unlines (inner : StatementUnlines block) :
    StatementUnlines (whileLoop block) := by
  refine .rule ((keyword_unmoved "while").andThen fun _ => ?_)
  refine (condition_unlines _).bind fun condition => inner.bind fun body => ?_
  exact .pure (by rw [Statement.unlined])

theorem choice_unlines (inner : StatementUnlines block) : StatementUnlines (choice block) := by
  refine .rule ((keyword_unmoved "if").andThen fun _ => ?_)
  refine (condition_unlines _).bind fun condition => inner.bind fun yes => ?_
  refine (accept_unmoved "else").andThen fun _ => .ite ?_ ?_
  · exact inner.bind fun no => .pure (by rw [Statement.unlined])
  · exact .pure (by rw [Statement.unlined])

theorem repeatKeyword_unmoved : Unmoved repeatKeyword repeatKeyword := by
  refine (accept_unmoved "while").andThen fun _ => .ite (.pure rfl) ?_
  exact (abandon_unmoved .doWhileKeyword fun next => by simp).andThen fun _ => sees_unmoved "("

theorem doWhile_unlines (inner : StatementUnlines block) : StatementUnlines (doWhile block) := by
  refine .rule ((keyword_unmoved "do").andThen fun _ => inner.bind fun body => ?_)
  refine repeatKeyword_unmoved.andThen fun _ => .ite ?_ ?_
  · exact .pure (by rw [Statement.unlined]; rfl)
  · refine (condition_unlines _).bind fun condition => ?_
    refine (terminate_unmoved .doWhileEnd).andThen fun _ => ?_
    exact .pure (by rw [Statement.unlined]; rfl)

theorem headerSeparator_unmoved (complaint : Complaint) :
    Unmoved (headerSeparator complaint) (headerSeparator complaint) := by
  refine demand_unmoved ";" ((abandon_unmoved _ fun next => by simp).andThen fun _ => ?_)
  exact (accept_unmoved ";").andThen fun _ => .pure rfl

theorem loopStart_unlines : Unlines LoopStart.unlined loopStart loopStart := by
  refine seesType_unmoved.andThen fun _ => .ite ?_ ?_
  · refine declaration_unlines.bind fun declaration? => .pure ?_
    cases declaration? with
    | none => rfl
    | some declaration => rfl
  · refine seesIdentifier_unmoved.andThen fun _ => .ite ?_ (.pure rfl)
    refine assignment_unlines.bind fun assignment? => .pure ?_
    cases assignment? with
    | none => rfl
    | some assignment => rfl

theorem closeHeader_unmoved (complaint : Complaint) :
    Unmoved (closeHeader complaint) (closeHeader complaint) := by
  refine demand_unmoved ")" ((abandon_unmoved _ fun next => by simp).andThen fun _ => ?_)
  exact (accept_unmoved ")").andThen fun _ => .pure rfl

theorem loopStep_unlines : Unlines (Option.map Assignment.unlined) loopStep loopStep :=
  seesIdentifier_unmoved.andThen fun _ => .ite assignment_unlines (.pure rfl)

theorem forLoop_unlines (inner : StatementUnlines block) : StatementUnlines (forLoop block) := by
  refine .rule ((keyword_unmoved "for").andThen fun _ => ?_)
  refine (demand_complain_unmoved "(" .forOpen).andThen fun _ => ?_
  refine loopStart_unlines.bind fun start => (headerSeparator_unmoved _).andThen fun _ => ?_
  refine (unlessSees_unlines ";" foreseen_unlines).bind fun condition => ?_
  refine (headerSeparator_unmoved _).andThen fun _ => loopStep_unlines.bind fun step => ?_
  refine (closeHeader_unmoved _).andThen fun _ => inner.bind fun body => ?_
  exact .pure (by rw [Statement.unlined])

/-! ## Switches -/

theorem caseValue_unlines : Unlines (Option.map Foreseen.unlined) caseValue caseValue := by
  refine (seesStart_unmoved .expression).andThen fun _ => .ite ?_ ?_
  · exact foreseen_unlines.bind fun value => .pure rfl
  · exact (abandon_unmoved .caseValue fun next => by simp).andThen fun _ => .pure rfl

theorem clauseFrom_unlines (inner : BodyUnlines body) (test : Option Foreseen) :
    Unlines Clause.unlined (clauseFrom body test) (clauseFrom body (test.map Foreseen.unlined)) := by
  refine (demand_complain_unmoved ":" .clauseColon).andThen fun _ => inner.bind fun found => ?_
  exact .pure (by rw [Clause.unlined])

theorem clause?_unlines (inner : BodyUnlines body) :
    Unlines (Option.map (Option.map Clause.unlined)) (clause? body) (clause? body) := by
  refine (sees_unmoved "case").andThen fun isCase => ?_
  refine (sees_unmoved "default").andThen fun isDefault => .ite ?_ ?_
  · refine skip_unmoved.andThen fun _ => (log_unmoved _).andThen fun _ => ?_
    have clause (test : Option Foreseen) :
        Unlines (Option.map (Option.map Clause.unlined))
          (do return some (some (← clauseFrom body test)))
          (do return some (some (← clauseFrom body (test.map Foreseen.unlined)))) :=
      (clauseFrom_unlines inner test).bind fun _ => .pure rfl
    exact .ite (caseValue_unlines.bind clause) (clause none)
  · refine atEnd_unmoved.andThen fun ended => (sees_unmoved "\x7d").andThen fun closed => ?_
    refine .ite (.pure rfl) ?_
    refine (abandon_unmoved _ fun next => by simp).andThen fun _ => ?_
    exact .pure rfl

theorem countSwitch_unmoved : Unmoved countSwitch countSwitch := fun _ => rfl

theorem switch_unlines (inner : BodyUnlines body) : StatementUnlines (switch body) := by
  refine .rule (line_unlines.bind fun line => (keyword_unmoved "switch").andThen fun _ => ?_)
  refine (demand_complain_unmoved "(" .switchOpen).andThen fun _ => ?_
  refine (demandForeseen_unlines (complain_unmoved .switchValue)).bind fun value => ?_
  refine (closeHeader_unmoved _).andThen fun _ => countSwitch_unmoved.andThen fun number => ?_
  refine (accept_unmoved "\x7b").andThen fun _ => .ite ?_ ?_
  · refine (abandon_unmoved _ fun next => by simp).andThen fun _ => ?_
    exact .pure (by rw [Statement.unlined])
  · refine (collect_unlines (clause?_unlines inner)).bind fun clauses => ?_
    refine (demand_complain_unmoved "\x7d" .switchEnd).andThen fun _ => .pure ?_
    rw [Statement.unlined, List.map_filterMap, List.filterMap_map]
    rfl

/-! ## Blocks and lists of statements -/

theorem skipUnlessBelow_unmoved (size : Nat) :
    Unmoved (skipUnlessBelow size) (skipUnlessBelow size) := by
  refine .get fun cursor => ?_
  rw [Cursor.unlined_length]
  exact .ite skip_unmoved (.pure rfl)

theorem nextStatement_unlines (inner : StatementUnlines statement) :
    Unlines (Option.map Statement.unlined) (nextStatement statement) (nextStatement statement) := by
  refine atEnd_unmoved.andThen fun _ => (seesAny_unmoved _).andThen fun _ => .ite (.pure rfl) ?_
  refine .get fun cursor => ?_
  rw [Cursor.unlined_length]
  exact inner.bind fun result => (skipUnlessBelow_unmoved _).andThen fun _ => .pure rfl

theorem bodyOf_unlines (inner : StatementUnlines statement) : BodyUnlines (bodyOf statement) :=
  .rule (collect_unlines (nextStatement_unlines inner))

theorem blockOf_unlines (inner : StatementUnlines statement) :
    StatementUnlines (blockOf statement) := by
  refine .rule ((expect_unmoved .block .blockStart).andThen fun _ => .ite skipped_unlines ?_)
  refine (accept_unmoved "\x7b").andThen fun _ => .ite ?_ inner
  refine (bodyOf_unlines inner).bind fun body => ?_
  refine (demand_complain_unmoved "\x7d" .blockEnd).andThen fun _ => ?_
  exact .pure (by rw [Statement.unlined])

theorem terminated_unlines (complaint : Complaint) (inner : StatementUnlines statement) :
    StatementUnlines (terminated complaint statement) :=
  inner.bind fun _ => (terminate_unmoved complaint).andThen fun _ => .pure rfl

theorem evaluation_unlines : StatementUnlines evaluation :=
  terminated_unlines _ (expression_unlines.map fun _ => by rw [Statement.unlined])

theorem named_unlines : StatementUnlines named := by
  refine (seesSecond_unmoved "(").andThen fun _ => .ite ?_ (.get fun cursor => ?_)
  · refine terminated_unlines _ ((call_unlines expression_unlines).bind fun call? => ?_)
    cases call? with
    | none => exact skipped_unlines
    | some call => exact .pure (by rw [Statement.unlined])
  · have second : cursor.unlined.rest.tail.head?.bind AssignmentOperator.ofToken? =
        cursor.rest.tail.head?.bind AssignmentOperator.ofToken? := by
      show (cursor.rest.map Token.unlined).tail.head?.bind _ = _
      rw [← List.map_tail, List.head?_map, ofToken?_unlined]
    rw [second]
    refine .ite (terminated_unlines _ (assignment_unlines.bind fun assignment? => .pure ?_))
      evaluation_unlines
    cases assignment? with
    | none => exact Statement.unlined_skipped.symm
    | some assignment => simp only [Option.map_some, Option.getD_some, Statement.unlined]

theorem stray_unlines : StatementUnlines stray :=
  (complain_unmoved .statementStart).andThen fun _ =>
    (resume_unmoved fun next => by simp).andThen fun _ => skipped_unlines

theorem statementOf_unlines (inner : StatementUnlines statement) :
    StatementUnlines (statementOf statement) := by
  refine seesType_unmoved.andThen fun _ => .ite ?_ ?_
  · refine terminated_unlines _ (declaration_unlines.bind fun declaration? => .pure ?_)
    cases declaration? with
    | none => exact Statement.unlined_skipped.symm
    | some declaration => simp only [Option.map_some, Option.getD_some, Statement.unlined]
  refine seesIdentifier_unmoved.andThen fun _ => .ite named_unlines ?_
  refine (seesStart_unmoved .print).andThen fun _ => .ite (terminated_unlines _ print_unlines) ?_
  refine (sees_unmoved "inputln").andThen fun _ => .ite (terminated_unlines _ read_unlines) ?_
  refine (sees_unmoved "break").andThen fun _ => .ite leave_unlines ?_
  refine (sees_unmoved "return").andThen fun _ => .ite giveBack_unlines ?_
  have block := blockOf_unlines inner
  refine (sees_unmoved "while").andThen fun _ => .ite (whileLoop_unlines block) ?_
  refine (sees_unmoved "if").andThen fun _ => .ite (choice_unlines block) ?_
  refine (sees_unmoved "do").andThen fun _ => .ite (doWhile_unlines block) ?_
  refine (sees_unmoved "for").andThen fun _ => .ite (forLoop_unlines block) ?_
  refine (sees_unmoved "switch").andThen fun _ => .ite (switch_unlines (bodyOf_unlines inner)) ?_
  refine (sees_unmoved "\x7b").andThen fun _ => .ite block ?_
  exact (seesStart_unmoved .expression).andThen fun _ => .ite evaluation_unlines stray_unlines

theorem statementFor_unlines (depth : Nat) : StatementUnlines (statementFor depth) := by
  induction depth with
  | zero => exact getStuck_unmoved.andThen fun _ => skipped_unlines
  | succ depth ih => exact statementOf_unlines ih

theorem body_unlines : BodyUnlines Reading.body :=
  length_unmoved.andThen fun size => bodyOf_unlines (statementFor_unlines (size + 1))

end StackLang.Reading
