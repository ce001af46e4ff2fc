import StackLang.Grammar.Statement
import StackLang.Proofs.Retyping.Expression

/-!
# Reading statements from retyped tokens

The statements that are read from retyped tokens have the same code.  Declarations differ in
the types that they name, and what is foreseen of an expression is left open.
-/

namespace StackLang.Reading

open ConcursFrom

/-! ## Declarations and assignments -/

/-- Results of which both or neither are there. -/
abbrev BothFound {α : Type} (one other : Option α) : Prop := one.isSome = other.isSome

theorem endsBody_blind : Blind endsBody := .follow .body

theorem openers_blind : Blind (Terminal.anyAccepts openers) := .of_unifies (by decide)

theorem resume_steady {stop : Option Token → Bool} (blind : Blind stop) :
    Steady Eq (resume stop) := by
  refine (skipTo_steady (.or (.word (by decide)) blind)).andThen fun _ => ?_
  refine (sees_steady (by decide)).andThen fun _ => .ite ?_ (.pure rfl)
  exact skip_steady.andThen fun _ => log_concurs _ _

theorem terminate_steady (complaint : Complaint) : Steady Eq (terminate complaint) :=
  demand_steady (by decide) ((complain_steady complaint).andThen fun _ =>
    resume_steady (.or openers_blind endsBody_blind))

/-- Where a type is named another one may be. -/
theorem typeName_steady : Steady BothFound typeName := by
  refine .rule (peek_steady.bind fun _ _ alike => ?_)
  cases alike with
  | none => exact .pure rfl
  | some alike => exact (take_steady _).bind fun _ _ _ => .pure alike.isSome_ofText?_eq

/-- A type that is not replaced is read as it is. -/
theorem typeName_concursFrom : ConcursFrom Token.Kept Eq typeName typeName := by
  refine .rule (peek_concursFrom.andThen fun next => ?_)
  cases next with
  | none => exact .pure rfl
  | some token => exact (take_steady _).bind fun _ _ _ => .pure rfl

/-- A constant gets into no code. -/
theorem constant?_steady : Steady (fun _ _ => True) constant? := by
  refine peek_steady.bind fun _ _ alike => ?_
  cases alike with
  | none => exact .pure trivial
  | some alike => exact (seesSecond_steady (by decide)).andThen fun _ => .pure trivial

theorem declaration_steady : Steady (Option.Rel Declaration.SameCode) declaration := by
  refine .rule (typeName_steady.bind fun type? otherType? same => ?_)
  match type?, otherType?, same with
  | none, none, _ => exact .pure .none
  | some type, some otherType, _ =>
      refine identifier?_steady.andThen fun name? => ?_
      have stops := (Blind.follow .variable).or endsBody_blind
      cases name? with
      | none => exact (abandon_steady .variableName stops).andThen fun _ => .pure .none
      | some name =>
          have plain := Declaration.SameCode.plain type otherType name
          refine (accept_steady (by decide)).andThen fun _ => .ite (.pure (.some plain)) ?_
          refine (seesStart_steady .expression).andThen fun _ => .ite ?_ ?_
          · refine constant?_steady.bind fun constant? other? _ => ?_
            refine foreseen_steady.bind fun _ _ values => .pure (.some ?_)
            exact .initialized type otherType name constant? other? values
          · exact (abandon_steady .initializer stops).andThen fun _ => .pure (.some plain)

theorem ofToken?_blind : Blind fun next => next.bind AssignmentOperator.ofToken? := by
  rintro _ _ (@⟨one, other, alike⟩ | _)
  · have same (operator : AssignmentOperator) :
        one.spells operator.symbol = other.spells operator.symbol :=
      alike.spells_eq (by cases operator <;> decide)
    simp only [Option.bind_some, AssignmentOperator.ofToken?, same]
  · rfl

theorem abandonAssignment_steady (target : Token) (complaint : Complaint) :
    Steady (Option.Rel Assignment.SameCode) (abandonAssignment target complaint) :=
  (abandon_steady complaint (.or (.follow _) (.word (by decide)))).andThen fun _ =>
    .pure (.some (.unfinished target))

theorem assignment_steady : Steady (Option.Rel Assignment.SameCode) assignment := by
  refine .rule (identifier?_steady.andThen fun target? => ?_)
  cases target? with
  | none => exact .pure .none
  | some target =>
      refine peek_steady.bind fun next counterpart alike => ?_
      have same : next.bind AssignmentOperator.ofToken? =
          counterpart.bind AssignmentOperator.ofToken? := ofToken?_blind _ _ alike
      rw [same]
      cases counterpart.bind AssignmentOperator.ofToken? with
      | none => exact abandonAssignment_steady target _
      | some operator =>
          refine skip_steady.andThen fun _ => (log_concurs _ _).andThen fun _ => ?_
          cases operator.step? with
          | some step => exact .pure (.some (.step target step))
          | none =>
              refine (seesStart_steady .expression).andThen fun _ => .ite ?_ ?_
              · exact foreseen_steady.bind fun _ _ values => .pure (.some (.store target _ values))
              · exact abandonAssignment_steady target _

/-! ## Simple statements -/

/-- The reader finds statements with the same code on retyped tokens. -/
abbrev StatementSteady (reader : Reading Statement) : Prop := Steady Statement.SameCode reader

/-- The reader finds lists of statements with the same code on retyped tokens. -/
abbrev BodySteady (reader : Reading (List Statement)) : Prop :=
  Steady (List.Forall₂ Statement.SameCode) reader

variable {α : Type} {block statement : Reading Statement} {body : Reading (List Statement)}

theorem skipped_steady : StatementSteady (return .skipped) := .pure .skipped

theorem unlessSees_steady {rel : α → α → Prop} {reader : Reading α} {symbol : String}
    (apart : symbol ∉ Nonterminal.typeWords) (inner : Steady rel reader) :
    Steady (Option.Rel rel) (unlessSees symbol reader) :=
  (sees_steady apart).andThen fun _ =>
    .ite (.pure .none) (inner.bind fun _ _ related => .pure (.some related))

theorem abandoned_steady (complaint : Complaint) {stop : Option Token → Bool}
    (blind : Blind stop) : StatementSteady (do abandon complaint stop; return .skipped) :=
  (abandon_steady complaint blind).andThen fun _ => skipped_steady

theorem print_steady : StatementSteady print := by
  refine .rule ((take_steady _).bind fun _ _ alike => ?_)
  cases alike with
  | none => exact skipped_steady
  | some alike =>
      refine (accept_steady (by decide)).andThen fun _ => .ite ?_ ?_
      · exact abandoned_steady _ (.follow _)
      · refine (unlessSees_steady (by decide) expression_steady).bind fun value answer same => ?_
        have same : value = answer := by cases same with | none => rfl | some same => rw [same]
        refine (demand_steady (by decide) (abandon_steady .printClose (.follow _))).andThen fun _ => ?_
        rw [alike.spells_eq (by decide), same]
        exact .pure (.print _ answer)

theorem read_steady : StatementSteady read := by
  refine .rule ((keyword_steady "inputln").andThen fun _ => ?_)
  refine (accept_steady (by decide)).andThen fun _ => .ite ?_ ?_
  · exact abandoned_steady _ (.follow _)
  · refine identifier?_steady.andThen fun target? => ?_
    cases target? with
    | none => exact abandoned_steady _ (.follow _)
    | some target =>
        refine (demand_steady (by decide) (abandon_steady .readClose (.follow _))).andThen fun _ => ?_
        exact .pure (.read target)

theorem leave_steady : StatementSteady leave :=
  line_steady.andThen fun line => (keyword_steady "break").andThen fun _ =>
    (terminate_steady .breakEnd).andThen fun _ => .pure (.leave line)

theorem returned_steady : Steady Eq returned := by
  refine (sees_steady (by decide)).andThen fun _ => .ite (.pure rfl) ?_
  refine (seesStart_steady .expression).andThen fun _ => .ite ?_ ?_
  · exact expression_steady.andThen fun _ => .pure rfl
  · exact (abandon_steady .returnValue (.or (.word (by decide)) (.follow _))).andThen fun _ =>
      .pure rfl

theorem giveBack_steady : StatementSteady giveBack := by
  refine .rule (line_steady.andThen fun line => (keyword_steady "return").andThen fun _ => ?_)
  exact returned_steady.andThen fun value => (terminate_steady .returnEnd).andThen fun _ =>
    .pure (.giveBack line value)

/-! ## Control constructs -/

theorem condition_steady (form : ConditionForm) :
    Steady Foreseen.SameValue (condition form) := by
  refine (demand_steady (by decide) (complain_steady form.opening)).andThen fun _ => ?_
  refine (demandForeseen_steady (abandon_steady _ ?_)).bind fun value answer values => ?_
  · exact .or (.of_unifies (by decide)) endsBody_blind
  refine (demand_steady (by decide) ?_).andThen fun _ => .pure values
  refine (abandon_steady _ (.or (.of_unifies (by decide)) endsBody_blind)).andThen fun _ => ?_
  exact (accept_steady (by decide)).andThen fun _ => .pure rfl

theorem whileLoop_steady (inner : StatementSteady block) : StatementSteady (whileLoop block) := by
  refine .rule ((keyword_steady "while").andThen fun _ => ?_)
  refine (condition_steady _).bind fun _ _ conditions => inner.bind fun _ _ bodies => ?_
  exact .pure (.whileLoop conditions bodies)

theorem choice_steady (inner : StatementSteady block) : StatementSteady (choice block) := by
  refine .rule ((keyword_steady "if").andThen fun _ => ?_)
  refine (condition_steady _).bind fun _ _ conditions => inner.bind fun _ _ bodies => ?_
  refine (accept_steady (by decide)).andThen fun _ => .ite ?_ (.pure (.ifThen conditions bodies))
  exact inner.bind fun _ _ alternatives => .pure (.ifElse conditions bodies alternatives)

theorem repeatKeyword_steady : Steady Eq repeatKeyword := by
  refine (accept_steady (by decide)).andThen fun _ => .ite (.pure rfl) ?_
  exact (abandon_steady .doWhileKeyword (.or (.word (by decide)) (.follow _))).andThen fun _ =>
    sees_steady (by decide)

theorem doWhile_steady (inner : StatementSteady block) : StatementSteady (doWhile block) := by
  refine .rule ((keyword_steady "do").andThen fun _ => inner.bind fun _ _ bodies => ?_)
  refine repeatKeyword_steady.andThen fun _ => .ite (.pure (.doWhile .none bodies)) ?_
  refine (condition_steady _).bind fun _ _ conditions => ?_
  exact (terminate_steady .doWhileEnd).andThen fun _ => .pure (.doWhile (.some conditions) bodies)

theorem headerSeparator_steady (complaint : Complaint) :
    Steady Eq (headerSeparator complaint) := by
  refine demand_steady (by decide) ((abandon_steady _ (.of_unifies (by decide))).andThen fun _ => ?_)
  exact (accept_steady (by decide)).andThen fun _ => .pure rfl

theorem loopStart_steady : Steady LoopStart.SameCode loopStart := by
  refine (seesStart_steady .type).andThen fun _ => .ite ?_ ?_
  · refine declaration_steady.bind fun _ _ declared => .pure ?_
    cases declared with
    | none => exact .nothing
    | some alike => exact .declare alike
  · refine seesIdentifier_steady.andThen fun _ => .ite ?_ (.pure .nothing)
    refine assignment_steady.bind fun _ _ assigned => .pure ?_
    cases assigned with
    | none => exact .nothing
    | some alike => exact .assign alike

theorem closeHeader_steady (complaint : Complaint) : Steady Eq (closeHeader complaint) := by
  have stops : Blind fun next => Terminal.anyAccepts [.word ")", .word "\x7b"] next || endsBody next :=
    .or (.of_unifies (by decide)) endsBody_blind
  refine demand_steady (by decide) ((abandon_steady _ stops).andThen fun _ => ?_)
  exact (accept_steady (by decide)).andThen fun _ => .pure rfl

theorem loopStep_steady : Steady (Option.Rel Assignment.SameCode) loopStep :=
  seesIdentifier_steady.andThen fun _ => .ite assignment_steady (.pure .none)

theorem forLoop_steady (inner : StatementSteady block) : StatementSteady (forLoop block) := by
  refine .rule ((keyword_steady "for").andThen fun _ => ?_)
  refine (demand_steady (by decide) (complain_steady .forOpen)).andThen fun _ => ?_
  refine loopStart_steady.bind fun _ _ starts => (headerSeparator_steady _).andThen fun _ => ?_
  refine (unlessSees_steady (by decide) foreseen_steady).bind fun _ _ conditions => ?_
  refine (headerSeparator_steady _).andThen fun _ => loopStep_steady.bind fun _ _ steps => ?_
  refine (closeHeader_steady _).andThen fun _ => inner.bind fun _ _ bodies => ?_
  exact .pure (.forLoop starts conditions steps bodies)

/-! ## Switches -/

theorem caseValue_steady : Steady (Option.Rel Foreseen.SameValue) caseValue := by
  refine (seesStart_steady .expression).andThen fun _ => .ite ?_ ?_
  · exact foreseen_steady.bind fun _ _ values => .pure (.some values)
  · exact (abandon_steady .caseValue (.or (.word (by decide)) endsBody_blind)).andThen fun _ =>
      .pure .none

theorem clauseFrom_concurs (inner : BodySteady body) {test? counterpart? : Option Foreseen}
    (tests : Option.Rel Foreseen.SameValue test? counterpart?) :
    Concurs Clause.SameCode (clauseFrom body test?) (clauseFrom body counterpart?) :=
  (demand_steady (by decide) (complain_steady .clauseColon)).andThen fun _ =>
    inner.bind fun _ _ bodies => .pure (.clause tests bodies)

theorem clause?_steady (inner : BodySteady body) :
    Steady (Option.Rel (Option.Rel Clause.SameCode)) (clause? body) := by
  refine (sees_steady (by decide)).andThen fun isCase => ?_
  refine (sees_steady (by decide)).andThen fun isDefault => .ite ?_ ?_
  · refine skip_steady.andThen fun _ => (log_concurs _ _).andThen fun _ => ?_
    have clause (test? counterpart? : Option Foreseen)
        (tests : Option.Rel Foreseen.SameValue test? counterpart?) :
        Concurs (Option.Rel (Option.Rel Clause.SameCode))
          (do return some (some (← clauseFrom body test?)))
          (do return some (some (← clauseFrom body counterpart?))) :=
      (clauseFrom_concurs inner tests).bind fun _ _ alike => .pure (.some (.some alike))
    exact .ite (caseValue_steady.bind clause) (clause none none .none)
  · refine atEnd_steady.andThen fun _ => (sees_steady (by decide)).andThen fun _ => ?_
    refine .ite (.pure .none) ?_
    refine (abandon_steady _ (.of_unifies (by decide))).andThen fun _ => ?_
    exact .pure (.some .none)

theorem countSwitch_steady : Steady Eq countSwitch := by
  intro before counterpart retyped _
  have number : before.switches + 1 = counterpart.switches + 1 := congrArg (· + 1) retyped.switches
  exact ⟨number, retyped.rest, retyped.errors, number⟩

theorem switch_steady (inner : BodySteady body) : StatementSteady (switch body) := by
  refine .rule (line_steady.andThen fun line => (keyword_steady "switch").andThen fun _ => ?_)
  refine (demand_steady (by decide) (complain_steady .switchOpen)).andThen fun _ => ?_
  refine (demandForeseen_steady (complain_steady .switchValue)).bind fun _ _ values => ?_
  refine (closeHeader_steady _).andThen fun _ => countSwitch_steady.andThen fun number => ?_
  refine (accept_steady (by decide)).andThen fun _ => .ite ?_ ?_
  · exact (abandon_steady _ (.follow _)).andThen fun _ => .pure (.switchHead line number values)
  · refine (collect_steady (clause?_steady inner)).bind fun _ _ found => ?_
    refine (demand_steady (by decide) (complain_steady .switchEnd)).andThen fun _ => .pure ?_
    exact .switch line number values (List.rel_filterMap (fun _ _ => id) found)

/-! ## Blocks and lists of statements -/

theorem skipUnlessBelow_steady (size : Nat) : Steady Eq (skipUnlessBelow size) := by
  refine .get fun cursor counterpart retyped => ?_
  rw [retyped.rest.length_eq]
  exact .ite skip_steady (.pure rfl)

theorem nextStatement_steady (inner : StatementSteady statement) :
    Steady (Option.Rel Statement.SameCode) (nextStatement statement) := by
  refine atEnd_steady.andThen fun _ => (seesAny_steady (by decide)).andThen fun _ => ?_
  refine .ite (.pure .none) (.get fun cursor counterpart retyped => ?_)
  rw [retyped.rest.length_eq]
  exact inner.bind fun _ _ alike => (skipUnlessBelow_steady _).andThen fun _ => .pure (.some alike)

theorem bodyOf_steady (inner : StatementSteady statement) : BodySteady (bodyOf statement) :=
  .rule (collect_steady (nextStatement_steady inner))

theorem blockOf_steady (inner : StatementSteady statement) :
    StatementSteady (blockOf statement) := by
  refine .rule ((expect_steady .block .blockStart).andThen fun _ => .ite skipped_steady ?_)
  refine (accept_steady (by decide)).andThen fun _ => .ite ?_ inner
  refine (bodyOf_steady inner).bind fun _ _ bodies => ?_
  refine (demand_steady (by decide) (complain_steady .blockEnd)).andThen fun _ => ?_
  exact .pure (.block bodies)

theorem terminated_steady (complaint : Complaint) (inner : StatementSteady statement) :
    StatementSteady (terminated complaint statement) :=
  inner.bind fun _ _ alike => (terminate_steady complaint).andThen fun _ => .pure alike

theorem evaluation_steady : StatementSteady evaluation := by
  refine terminated_steady _ ?_
  rw [map_eq_pure_bind]
  exact expression_steady.andThen fun value => .pure (.evaluate value)

theorem named_steady : StatementSteady named := by
  refine (seesSecond_steady (by decide)).andThen fun _ => .ite ?_ (.get fun _ _ retyped => ?_)
  · refine terminated_steady _ ((call_steady expression_steady).andThen fun call? => ?_)
    cases call? with
    | none => exact skipped_steady
    | some call => exact .pure (.call call.1 call.2)
  · have same := ofToken?_blind _ _ retyped.rest.tail.head?
    dsimp only at same
    rw [same]
    refine .ite (terminated_steady _ (assignment_steady.bind fun _ _ assigned => .pure ?_))
      evaluation_steady
    cases assigned with
    | none => exact .skipped
    | some alike => exact .assign alike

theorem stray_steady : StatementSteady stray :=
  (complain_steady .statementStart).andThen fun _ =>
    (resume_steady (.or (.or openers_blind (.first _)) endsBody_blind)).andThen fun _ =>
      skipped_steady

theorem statementOf_steady (inner : StatementSteady statement) :
    StatementSteady (statementOf statement) := by
  refine (seesStart_steady .type).andThen fun _ => .ite ?_ ?_
  · refine terminated_steady _ (declaration_steady.bind fun _ _ declared => .pure ?_)
    cases declared with
    | none => exact .skipped
    | some alike => exact .declare alike
  refine seesIdentifier_steady.andThen fun _ => .ite named_steady ?_
  refine (seesStart_steady .print).andThen fun _ => .ite (terminated_steady _ print_steady) ?_
  refine (sees_steady (by decide)).andThen fun _ => .ite (terminated_steady _ read_steady) ?_
  refine (sees_steady (by decide)).andThen fun _ => .ite leave_steady ?_
  refine (sees_steady (by decide)).andThen fun _ => .ite giveBack_steady ?_
  have block := blockOf_steady inner
  refine (sees_steady (by decide)).andThen fun _ => .ite (whileLoop_steady block) ?_
  refine (sees_steady (by decide)).andThen fun _ => .ite (choice_steady block) ?_
  refine (sees_steady (by decide)).andThen fun _ => .ite (doWhile_steady block) ?_
  refine (sees_steady (by decide)).andThen fun _ => .ite (forLoop_steady block) ?_
  refine (sees_steady (by decide)).andThen fun _ => .ite (switch_steady (bodyOf_steady inner)) ?_
  refine (sees_steady (by decide)).andThen fun _ => .ite block ?_
  exact (seesStart_steady .expression).andThen fun _ => .ite evaluation_steady stray_steady

theorem statementFor_steady (depth : Nat) : StatementSteady (statementFor depth) := by
  induction depth with
  | zero => exact getStuck_steady.andThen fun _ => skipped_steady
  | succ depth ih => exact statementOf_steady ih

theorem body_steady : BodySteady Reading.body :=
  length_steady.andThen fun size => bodyOf_steady (statementFor_steady (size + 1))

end StackLang.Reading
