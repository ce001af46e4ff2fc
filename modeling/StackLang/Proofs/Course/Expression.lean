import StackLang.Grammar.Expression
import StackLang.Proofs.Course.Judgement

/-!
# Courses of expressions

Every level of the grammar of expressions is a course if the reader of nested expressions
is one.
-/

namespace StackLang

theorem BinaryOperator.symbol_legible (operator : BinaryOperator) : Legible operator.symbol := by
  cases operator <;> decide

namespace Reading

variable {nested operand : Reading Expr}

/-- The body of a level is read where the level can start. -/
theorem level_courses {nonterminal : Nonterminal} {complaint : Complaint} {body : Reading Expr}
    (inside : ∀ middle : Cursor, Courses body middle) (before : Cursor) :
    Courses (level nonterminal complaint body) before :=
  .rule (.expectBranch (fun middle _ => inside middle) fun _ => .pure _)

theorem extend?_courses (operators : List BinaryOperator)
    (operands : ∀ before, Courses operand before) (left : Expr) (before : Cursor) :
    Courses (extend? operators operand left) before := by
  refine .look (operators.find? fun operator =>
    before.next?.any fun token => token.spells operator.symbol) rfl ?_
  split
  · exact .pure none
  · next operator _ =>
      refine .look _ rfl (.consume operator.symbol_legible fun middle => ?_)
      exact (operands middle).bind fun _ _ _ => .pure _

theorem chain_courses (operators : List BinaryOperator)
    (operands : ∀ before, Courses operand before) (before : Cursor) :
    Courses (chain operators operand) before :=
  (operands before).bind fun left middle _ =>
    refine_courses (extend?_courses operators operands) left middle

theorem nextArgument?_courses (expressions : ∀ before, Courses nested before) (before : Cursor) :
    Courses (nextArgument? nested) before := by
  refine (accept_courses (by decide) before).bind fun _ middle _ => .ite (fun _ => .pure none) ?_
  refine fun _ => .branch _ rfl (fun _ => ?_) fun _ => ?_
  · exact (expressions middle).bind fun _ _ _ => .pure _
  · exact (abandon_courses _ _ middle).bind fun _ _ _ => .pure _

theorem arguments_courses (expressions : ∀ before, Courses nested before) (before : Cursor) :
    Courses (arguments nested) before := by
  refine .rule (.branch _ rfl (fun _ => .pure []) fun _ => .expectUnless ?_ fun _ => .pure [])
  intro middle _
  refine (expressions middle).bind fun _ front _ => ?_
  exact (collect_courses (nextArgument?_courses expressions) front).bind fun _ _ _ => .pure _

theorem call_courses (expressions : ∀ before, Courses nested before) (before : Cursor) :
    Courses (call nested) before := by
  refine .rule ((identifier?_courses _).bind fun callee? named _ => ?_)
  cases callee? with
  | none => exact .pure none
  | some callee =>
      refine (accept_courses (by decide) named).bind fun _ opened _ => ?_
      refine (arguments_courses expressions opened).bind fun _ closing _ => ?_
      refine (demand_courses (by decide) (abandon_courses _ _) closing).bind fun _ _ _ => ?_
      exact .pure _

theorem group_courses (expressions : ∀ before, Courses nested before) (before : Cursor) :
    Courses (group nested) before := by
  refine (expressions before).bind fun _ closing _ => ?_
  exact (demand_courses (by decide) (complain_courses _) closing).bind fun _ _ _ => .pure _

theorem cutMark_courses (token : Token) (before : Cursor) : Courses (cutMark token) before :=
  .note _ before

theorem primary_courses (expressions : ∀ before, Courses nested before) (before : Cursor) :
    Courses (primary nested) before := by
  refine level_courses (fun middle => ?_) before
  refine (accept_courses (by decide) middle).bind fun _ opened _ => .ite (fun _ => ?_) fun _ => ?_
  · exact group_courses expressions opened
  · refine .branch _ rfl (fun _ => .branch _ rfl (fun _ => ?_) fun _ => ?_) fun _ => ?_
    · refine (call_courses expressions opened).bind fun call? _ _ => ?_
      cases call? <;> exact .pure _
    · refine (identifier?_courses opened).bind fun name? _ _ => ?_
      cases name? <;> exact .pure _
    · have literal := take_courses (fun token => .literal token.value)
        fun token (_ : opened.next? = some token) => trivial
      refine literal.bind fun token? read _ => ?_
      cases token? with
      | none => exact .pure _
      | some token => exact (cutMark_courses token read).bind fun _ _ _ => .pure _

theorem negation_courses (expressions : ∀ before, Courses nested before) (before : Cursor) :
    Courses (negation nested) before := by
  refine level_courses (fun middle => .look _ rfl ?_) before
  refine (accept_courses (by decide) middle).bind fun _ behind _ => .ite (fun _ => ?_) fun _ => ?_
  · exact (primary_courses expressions behind).bind fun _ _ _ => .pure _
  · exact primary_courses expressions behind

theorem sum_courses (expressions : ∀ before, Courses nested before) (before : Cursor) :
    Courses (sum nested) before := by
  have product : ∀ before, Courses (product nested) before :=
    level_courses (chain_courses _ (negation_courses expressions))
  exact level_courses (chain_courses _ product) before

theorem relation_courses (expressions : ∀ before, Courses nested before) (before : Cursor) :
    Courses (relation nested) before := by
  refine level_courses (fun middle => ?_) before
  refine (sum_courses expressions middle).bind fun left behind _ => ?_
  exact (extend?_courses comparisons (sum_courses expressions) left behind).bind fun _ _ _ => .pure _

theorem inversionFor_courses (expressions : ∀ before, Courses nested before) (bound : Nat)
    (before : Cursor) : Courses (inversionFor nested bound) before := by
  induction bound generalizing before with
  | zero => exact (getStuck_courses before).bind fun _ _ _ => .pure _
  | succ bound ih =>
      refine level_courses (fun middle => .look _ rfl ?_) before
      refine (accept_courses (by decide) middle).bind fun _ marked _ => .ite (fun _ => ?_) fun _ => ?_
      · exact (ih marked).bind fun _ _ _ => .pure _
      · exact relation_courses expressions marked

theorem expressionFor_courses (depth : Nat) (before : Cursor) :
    Courses (expressionFor depth) before := by
  induction depth generalizing before with
  | zero => exact (getStuck_courses before).bind fun _ _ _ => .pure _
  | succ depth ih =>
      have inversion : ∀ before, Courses (inversion (expressionFor depth)) before := fun before =>
        .look before rfl (inversionFor_courses ih _ before)
      have conjunction : ∀ before, Courses (conjunction (expressionFor depth)) before :=
        level_courses (chain_courses _ inversion)
      exact level_courses (chain_courses _ conjunction) before

theorem expression_courses (before : Cursor) : Courses expression before :=
  .look before rfl (expressionFor_courses _ before)

theorem foreseen_courses (before : Cursor) : Courses foreseen before := by
  refine .look _ rfl (.look before rfl ?_)
  have preview : Courses (checkPreview (Expr.previewed before.rest)) before := .note _ before
  refine preview.bind fun _ middle _ => ?_
  exact (expression_courses middle).bind fun _ _ _ => .pure _

theorem demandForeseen_courses {repair : Reading Unit} (repairs : ∀ before, Courses repair before)
    (before : Cursor) : Courses (demandForeseen repair) before :=
  .branch _ rfl (fun _ => foreseen_courses before) fun _ =>
    (repairs before).bind fun _ _ _ => .pure _

end Reading

end StackLang
