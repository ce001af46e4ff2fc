import StackLang.Grammar.Statement
import StackLang.Proofs.Course.Expression
import StackLang.Proofs.Reading.Statement

/-!
# Courses of statements

A statement is a course if the statements nested in it are.  Where the spelling of a token
is logged as a symbol, the token is a keyword of the nonterminal that can start there.
-/

namespace StackLang

theorem AssignmentOperator.symbol_legible (operator : AssignmentOperator) :
    Legible operator.symbol := by
  cases operator <;> decide

namespace Reading

variable {α : Type} {before : Cursor}

/-- The keyword that a nonterminal starts with is taken. -/
theorem take_word_courses {nonterminal : Nonterminal} {texts : List String}
    (shape : nonterminal.first = Nonterminal.words texts)
    (legible : ∀ text ∈ texts, Legible text) (starts : before.seesStart nonterminal = true) :
    Courses (take fun token => .symbol token.value) before := by
  refine take_courses _ fun token next => ?_
  obtain ⟨text, listed, seen⟩ := exists_of_seesStart_words shape starts
  have spelled : token.spells text = true := by simpa [Cursor.sees, next] using seen
  exact (value_of_spells spelled).symm ▸ legible text listed

theorem abandon_accept_courses {symbol : String} (legible : Legible symbol)
    (complaint : Complaint) (stop : Option Token → Bool) (before : Cursor) :
    Courses (do abandon complaint stop; let _ ← accept symbol) before :=
  (abandon_courses complaint stop before).bind fun _ middle _ =>
    (accept_courses legible middle).bind fun _ _ _ => .pure ()

theorem resume_courses (stop : Option Token → Bool) (before : Cursor) :
    Courses (resume stop) before :=
  (skipTo_courses _ before).bind fun _ middle _ =>
    .branch (middle.sees ";") rfl (fun _ => .trans (.skip _) (.log .resumed trivial _))
      fun _ => .pure ()

theorem terminate_courses (complaint : Complaint) (before : Cursor) :
    Courses (terminate complaint) before :=
  demand_courses (by decide) (fun middle => (complain_courses complaint middle).bind
    fun _ after _ => resume_courses _ after) before

theorem terminated_courses {statement : Reading Statement} (complaint : Complaint)
    (courses : Courses statement before) : Courses (terminated complaint statement) before :=
  courses.bind fun _ middle _ => (terminate_courses complaint middle).bind fun _ _ _ => .pure _

/-! ## Declarations and assignments -/

theorem typeName_courses (typed : before.seesStart .type = true) : Courses typeName before := by
  -- Entering does not move the cursor, so the token that is taken is the one that was seen.
  have word : Courses (take fun token => .symbol token.value) (before.enter .type) :=
    take_word_courses rfl (by decide) typed
  refine .rule (.look before.next? rfl ?_)
  cases before.next? with
  | none => exact .pure none
  | some token => exact word.bind fun _ _ _ => .pure _

theorem constant?_courses (before : Cursor) : Courses constant? before := by
  refine .look before.next? rfl ?_
  cases before.next? with
  | none => exact .pure none
  | some token => exact .look _ rfl (.pure _)

theorem declaration_courses (typed : before.seesStart .type = true) :
    Courses declaration before := by
  have type : Courses typeName (before.enter .variable) := typeName_courses typed
  refine .rule (type.bind fun type? named _ => ?_)
  cases type? with
  | none => exact .pure none
  | some type =>
      refine (identifier?_courses named).bind fun name? middle _ => ?_
      cases name? with
      | none => exact (abandon_courses _ _ middle).bind fun _ _ _ => .pure none
      | some name =>
          refine (accept_courses (by decide) middle).bind fun _ behind _ => .ite (fun _ => .pure _) ?_
          refine fun _ => .branch _ rfl (fun _ => ?_) fun _ => ?_
          · refine (constant?_courses behind).bind fun _ value _ => ?_
            exact (foreseen_courses value).bind fun _ _ _ => .pure _
          · exact (abandon_courses _ _ behind).bind fun _ _ _ => .pure _

theorem abandonAssignment_courses (target : Token) (complaint : Complaint) (before : Cursor) :
    Courses (abandonAssignment target complaint) before :=
  (abandon_courses complaint _ before).bind fun _ _ _ => .pure _

theorem assignment_courses (before : Cursor) : Courses assignment before := by
  refine .rule ((identifier?_courses _).bind fun target? middle _ => ?_)
  cases target? with
  | none => exact .pure none
  | some target =>
      refine .look middle.next? rfl ?_
      cases middle.next?.bind AssignmentOperator.ofToken? with
      | none => exact abandonAssignment_courses target _ middle
      | some operator =>
          refine .consume operator.symbol_legible fun behind => ?_
          cases operator.step? with
          | some step => exact .pure _
          | none =>
              refine .branch _ rfl (fun _ => ?_) fun _ => abandonAssignment_courses target _ behind
              exact (foreseen_courses behind).bind fun _ _ _ => .pure _

/-! ## Simple statements -/

theorem unlessSees_courses (symbol : String) {reader : Reading α}
    (courses : ∀ before, Courses reader before) (before : Cursor) :
    Courses (unlessSees symbol reader) before :=
  .branch _ rfl (fun _ => .pure none) fun _ => (courses before).bind fun _ _ _ => .pure _

theorem print_courses (starts : before.seesStart .print = true) : Courses print before := by
  have keyword : Courses (take fun token => .symbol token.value) (before.enter .print) :=
    take_word_courses rfl (by decide) starts
  refine .rule (keyword.bind fun keyword? middle _ => ?_)
  cases keyword? with
  | none => exact .pure _
  | some keyword =>
      refine (accept_courses (by decide) middle).bind fun _ opened _ => .ite (fun _ => ?_) fun _ => ?_
      · exact (abandon_courses _ _ opened).bind fun _ _ _ => .pure _
      · refine (unlessSees_courses ")" expression_courses opened).bind fun _ closing _ => ?_
        exact (demand_courses (by decide) (abandon_courses _ _) closing).bind fun _ _ _ => .pure _

theorem read_courses (before : Cursor) : Courses read before := by
  refine .rule ((keyword_courses (by decide) _).bind fun _ middle _ => ?_)
  refine (accept_courses (by decide) middle).bind fun _ opened _ => .ite (fun _ => ?_) fun _ => ?_
  · exact (abandon_courses _ _ opened).bind fun _ _ _ => .pure _
  · refine (identifier?_courses opened).bind fun target? closing _ => ?_
    cases target? with
    | none => exact (abandon_courses _ _ closing).bind fun _ _ _ => .pure _
    | some target =>
        exact (demand_courses (by decide) (abandon_courses _ _) closing).bind fun _ _ _ => .pure _

theorem leave_courses (before : Cursor) : Courses leave before :=
  .look _ rfl <| (keyword_courses (by decide) before).bind fun _ middle _ =>
    (terminate_courses _ middle).bind fun _ _ _ => .pure _

theorem returned_courses (before : Cursor) : Courses returned before := by
  refine .branch _ rfl (fun _ => .pure _) fun _ => .branch _ rfl (fun _ => ?_) fun _ => ?_
  · exact (expression_courses before).bind fun _ _ _ => .pure _
  · exact (abandon_courses _ _ before).bind fun _ _ _ => .pure _

theorem giveBack_courses (before : Cursor) : Courses giveBack before :=
  .rule <| .look _ rfl <| (keyword_courses (by decide) _).bind fun _ middle _ =>
    (returned_courses middle).bind fun _ ending _ =>
      (terminate_courses _ ending).bind fun _ _ _ => .pure _

theorem evaluation_courses (before : Cursor) : Courses evaluation before :=
  terminated_courses _ (expression_courses before).map

theorem named_courses (before : Cursor) : Courses named before := by
  refine .branch _ rfl (fun _ => terminated_courses _ ?_) fun _ => ?_
  · refine (call_courses expression_courses before).bind fun call? _ _ => ?_
    cases call? <;> exact .pure _
  · refine .look before rfl (.ite (fun _ => terminated_courses _ ?_) fun _ => ?_)
    · exact (assignment_courses before).bind fun _ _ _ => .pure _
    · exact evaluation_courses before

theorem stray_courses (before : Cursor) : Courses stray before :=
  (complain_courses _ before).bind fun _ middle _ =>
    (resume_courses _ middle).bind fun _ _ _ => .pure _

/-! ## Control constructs -/

theorem closeHeader_courses (complaint : Complaint) (before : Cursor) :
    Courses (closeHeader complaint) before :=
  demand_courses (by decide) (abandon_accept_courses (by decide) complaint _) before

theorem headerSeparator_courses (complaint : Complaint) (before : Cursor) :
    Courses (headerSeparator complaint) before :=
  demand_courses (by decide) (abandon_accept_courses (by decide) complaint _) before

theorem condition_courses (form : ConditionForm) (before : Cursor) :
    Courses (condition form) before := by
  refine (demand_courses (by decide) (complain_courses form.opening) before).bind
    fun _ opened _ => ?_
  refine (demandForeseen_courses (abandon_courses form.missing _) opened).bind
    fun _ closing _ => ?_
  exact (demand_courses (by decide) (abandon_accept_courses (by decide) form.closing _)
    closing).bind fun _ _ _ => .pure _

theorem repeatKeyword_courses (before : Cursor) : Courses repeatKeyword before := by
  refine (accept_courses (by decide) before).bind fun _ middle _ => .ite (fun _ => .pure true) ?_
  exact fun _ => (abandon_courses _ _ middle).bind fun _ _ _ => .look _ rfl (.pure _)

theorem loopStart_courses (before : Cursor) : Courses loopStart before := by
  refine .branch (before.seesStart .type) rfl (fun typed => ?_) fun _ => ?_
  · exact (declaration_courses typed).bind fun _ _ _ => .pure _
  · refine .branch _ rfl (fun _ => ?_) fun _ => .pure _
    exact (assignment_courses before).bind fun _ _ _ => .pure _

theorem loopStep_courses (before : Cursor) : Courses loopStep before :=
  .branch _ rfl (fun _ => assignment_courses before) fun _ => .pure none

theorem caseValue_courses (before : Cursor) : Courses caseValue before := by
  refine .branch _ rfl (fun _ => ?_) fun _ => ?_
  · exact (foreseen_courses before).bind fun _ _ _ => .pure _
  · exact (abandon_courses _ _ before).bind fun _ _ _ => .pure _

theorem countSwitch_courses (before : Cursor) : Courses countSwitch before := .count before

section

variable {block statement : Reading Statement} {body : Reading (List Statement)}

theorem whileLoop_courses (blocks : ∀ before, Courses block before) (before : Cursor) :
    Courses (whileLoop block) before := by
  refine .rule ((keyword_courses (by decide) _).bind fun _ middle _ => ?_)
  refine (condition_courses _ middle).bind fun _ inside _ => ?_
  exact (blocks inside).bind fun _ _ _ => .pure _

theorem choice_courses (blocks : ∀ before, Courses block before) (before : Cursor) :
    Courses (choice block) before := by
  refine .rule ((keyword_courses (by decide) _).bind fun _ middle _ => ?_)
  refine (condition_courses _ middle).bind fun _ inside _ => ?_
  refine (blocks inside).bind fun _ behind _ => ?_
  refine (accept_courses (by decide) behind).bind fun _ otherwise _ => .ite (fun _ => ?_) ?_
  · exact (blocks otherwise).bind fun _ _ _ => .pure _
  · exact fun _ => .pure _

theorem doWhile_courses (blocks : ∀ before, Courses block before) (before : Cursor) :
    Courses (doWhile block) before := by
  refine .rule ((keyword_courses (by decide) _).bind fun _ inside _ => ?_)
  refine (blocks inside).bind fun _ behind _ => ?_
  refine (repeatKeyword_courses behind).bind fun _ middle _ => .ite (fun _ => .pure _) fun _ => ?_
  refine (condition_courses _ middle).bind fun _ ending _ => ?_
  exact (terminate_courses _ ending).bind fun _ _ _ => .pure _

theorem forLoop_courses (blocks : ∀ before, Courses block before) (before : Cursor) :
    Courses (forLoop block) before := by
  refine .rule ((keyword_courses (by decide) _).bind fun _ opening _ => ?_)
  refine (demand_courses (by decide) (complain_courses _) opening).bind fun _ start _ => ?_
  refine (loopStart_courses start).bind fun _ started _ => ?_
  refine (headerSeparator_courses _ started).bind fun _ test _ => ?_
  refine (unlessSees_courses ";" foreseen_courses test).bind fun _ tested _ => ?_
  refine (headerSeparator_courses _ tested).bind fun _ step _ => ?_
  refine (loopStep_courses step).bind fun _ stepped _ => ?_
  refine (closeHeader_courses _ stepped).bind fun _ inside _ => ?_
  exact (blocks inside).bind fun _ _ _ => .pure _

theorem clauseFrom_courses (bodies : ∀ before, Courses body before) (test : Option Foreseen)
    (before : Cursor) : Courses (clauseFrom body test) before :=
  (demand_courses (by decide) (complain_courses _) before).bind fun _ inside _ =>
    (bodies inside).bind fun _ _ _ => .pure _

theorem clause?_courses (bodies : ∀ before, Courses body before) (before : Cursor) :
    Courses (clause? body) before := by
  have clause (test : Option Foreseen) (middle : Cursor) :
      Courses (do return some (some (← clauseFrom body test))) middle :=
    (clauseFrom_courses bodies test middle).bind fun _ _ _ => .pure _
  have legible (isCase : Bool) : Legible (if isCase then "case" else "default") := by
    cases isCase <;> decide
  have opened (isCase : Bool) : Courses (do
      skip
      log (.symbol (if isCase then "case" else "default"))
      let test ← if isCase then caseValue else pure none
      return some (some (← clauseFrom body test))) before := by
    refine .consume (legible isCase) fun middle => .ite (fun _ => ?_) fun _ => clause none middle
    exact (caseValue_courses middle).bind fun test behind _ => clause test behind
  refine .look (before.sees "case") rfl (.look (before.sees "default") rfl ?_)
  refine .ite (fun _ => opened _) fun _ => ?_
  refine .look before.rest.isEmpty rfl (.look (before.sees "\x7d") rfl ?_)
  refine .ite (fun _ => .pure none) fun _ => ?_
  exact (abandon_courses _ _ before).bind fun _ _ _ => .pure _

theorem switch_courses (bodies : ∀ before, Courses body before) (before : Cursor) :
    Courses (switch body) before := by
  refine .rule (.look _ rfl ((keyword_courses (by decide) _).bind fun _ opening _ => ?_))
  refine (demand_courses (by decide) (complain_courses _) opening).bind fun _ value _ => ?_
  refine (demandForeseen_courses (complain_courses _) value).bind fun _ closing _ => ?_
  refine (closeHeader_courses _ closing).bind fun _ closed _ => ?_
  refine (countSwitch_courses closed).bind fun _ counted _ => ?_
  refine (accept_courses (by decide) counted).bind fun _ inside _ => .ite (fun _ => ?_) fun _ => ?_
  · exact (abandon_courses _ _ inside).bind fun _ _ _ => .pure _
  · refine (collect_courses (clause?_courses bodies) inside).bind fun _ ending _ => ?_
    exact (demand_courses (by decide) (complain_courses _) ending).bind fun _ _ _ => .pure _

/-! ## Lists of statements -/

theorem skipUnlessBelow_courses (size : Nat) (before : Cursor) :
    Courses (skipUnlessBelow size) before :=
  .look before rfl (.ite (fun _ => .skip before) fun _ => .pure ())

theorem nextStatement_courses (statements : ∀ before, Courses statement before)
    (before : Cursor) : Courses (nextStatement statement) before := by
  refine .look before.rest.isEmpty rfl ?_
  refine .look (Terminal.anyAccepts [.word "\x7d", .word "case", .word "default"] before.next?) rfl ?_
  refine .ite (fun _ => .pure none) fun _ => .look before rfl ?_
  refine (statements before).bind fun _ middle _ => ?_
  exact (skipUnlessBelow_courses _ middle).bind fun _ _ _ => .pure _

theorem bodyOf_courses (statements : ∀ before, Courses statement before) (before : Cursor) :
    Courses (bodyOf statement) before :=
  .rule (collect_courses (nextStatement_courses statements) _)

theorem blockOf_courses (statements : ∀ before, Courses statement before) (before : Cursor) :
    Courses (blockOf statement) before := by
  refine .rule (.expectUnless (fun middle _ => ?_) fun _ => .pure _)
  refine (accept_courses (by decide) middle).bind fun _ inside _ => .ite (fun _ => ?_) fun _ => ?_
  · refine (bodyOf_courses statements inside).bind fun _ closing _ => ?_
    exact (demand_courses (by decide) (complain_courses _) closing).bind fun _ _ _ => .pure _
  · exact statements inside

theorem statementOf_courses (statements : ∀ before, Courses statement before)
    (before : Cursor) : Courses (statementOf statement) before := by
  have blocks := blockOf_courses statements
  refine .branch (before.seesStart .type) rfl (fun typed => terminated_courses _ ?_) fun _ => ?_
  · exact (declaration_courses typed).bind fun _ _ _ => .pure _
  refine .branch _ rfl (fun _ => named_courses before) fun _ => ?_
  refine .branch _ rfl (fun starts => terminated_courses _ (print_courses starts)) fun _ => ?_
  refine .branch _ rfl (fun _ => terminated_courses _ (read_courses before)) fun _ => ?_
  refine .branch _ rfl (fun _ => leave_courses before) fun _ => ?_
  refine .branch _ rfl (fun _ => giveBack_courses before) fun _ => ?_
  refine .branch _ rfl (fun _ => whileLoop_courses blocks before) fun _ => ?_
  refine .branch _ rfl (fun _ => choice_courses blocks before) fun _ => ?_
  refine .branch _ rfl (fun _ => doWhile_courses blocks before) fun _ => ?_
  refine .branch _ rfl (fun _ => forLoop_courses blocks before) fun _ => ?_
  refine .branch _ rfl (fun _ => switch_courses (bodyOf_courses statements) before) fun _ => ?_
  refine .branch _ rfl (fun _ => blocks before) fun _ => ?_
  exact .branch _ rfl (fun _ => evaluation_courses before) fun _ => stray_courses before

end

theorem statementFor_courses (depth : Nat) (before : Cursor) :
    Courses (statementFor depth) before := by
  induction depth generalizing before with
  | zero => exact (getStuck_courses before).bind fun _ _ _ => .pure _
  | succ depth ih => exact statementOf_courses ih before

theorem body_courses (before : Cursor) : Courses body before :=
  .look before rfl (bodyOf_courses (statementFor_courses _) before)

end Reading

end StackLang
