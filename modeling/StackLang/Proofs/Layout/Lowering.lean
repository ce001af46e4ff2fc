import StackLang.Code.Lowering
import StackLang.Proofs.Layout.Erasure

/-!
# Lowering without lines

No line gets into the code: a tree and the tree without lines have the same listing and
make the same labels.
-/

namespace StackLang

variable (methods : MethodTable)

theorem Token.literalText_unlined (token : Token) : token.unlined.literalText = token.literalText :=
  rfl

theorem Method.signature_unlined (method : Method) : method.unlined.signature = method.signature := by
  simp only [signature, unlined, List.map_map]
  rfl

theorem Expr.code_unlined (expression : Expr) :
    expression.unlined.code methods = expression.code methods := by
  induction expression using Expr.code.induct with
  | case1 => rw [Expr.unlined]
  | case2 token => rw [Expr.unlined, code, code, token.literalText_unlined]
  | case3 token => rw [Expr.unlined, code, code]; rfl
  | case4 callee arguments => rw [Expr.unlined, code, code]; rfl
  | case5 line operand ih => rw [Expr.unlined, code, code, ih]
  | case6 line operand ih => rw [Expr.unlined, code, code, ih]
  | case7 operator line left right first second =>
      rw [Expr.unlined, code, code, first, second]

theorem Foreseen.code_unlined (foreseen : Foreseen) :
    foreseen.unlined.value.code methods = foreseen.value.code methods :=
  foreseen.value.code_unlined methods

theorem Declaration.code_unlined (declaration : Declaration) :
    declaration.unlined.code methods = declaration.code methods := by
  obtain ⟨type, name, initializer?⟩ := declaration
  cases initializer? with
  | none => rfl
  | some initializer => exact congrArg (· ++ _) (initializer.value.code_unlined methods)

theorem Assignment.code_unlined (assignment : Assignment) :
    assignment.unlined.code methods = assignment.code methods := by
  obtain ⟨target, form⟩ := assignment
  cases form with
  | unfinished => rfl
  | step operator => rfl
  | store operator? value =>
      have same := value.code_unlined methods
      cases operator? with
      | none => exact congrArg (· ++ _) same
      | some operator => exact congrArg (fun code => _ :: (code ++ _)) same

theorem LoopStart.code_unlined (start : LoopStart) :
    start.unlined.code methods = start.code methods := by
  cases start with
  | nothing => rfl
  | declare declaration => exact declaration.code_unlined methods
  | assign assignment => exact assignment.code_unlined methods

theorem Returned.code_unlined (value : Returned) :
    value.unlined.code methods = value.code methods := by
  cases value with
  | nothing => rfl
  | value given => exact given.code_unlined methods
  | unknown => rfl

theorem leaveUnless_unlined (condition : Foreseen) (target : String) :
    leaveUnless methods condition.unlined target = leaveUnless methods condition target := by
  rw [leaveUnless, leaveUnless, condition.code_unlined]

theorem repeatIf_unlined (condition : Foreseen) (target : String) :
    repeatIf methods condition.unlined target = repeatIf methods condition target := by
  rw [repeatIf, repeatIf, condition.code_unlined]

theorem caseTest_unlined (selector : String) (test : Foreseen) :
    caseTest methods selector test.unlined = caseTest methods selector test := by
  rw [caseTest, caseTest, test.code_unlined]

mutual

theorem Statement.lower_unlined (exit : Option String) (statement : Statement) :
    statement.unlined.lower methods exit = statement.lower methods exit := by
  cases statement with
  | skipped => rw [Statement.unlined]
  | declare declaration =>
      rw [Statement.unlined, Statement.lower, Statement.lower, declaration.code_unlined]
  | assign assignment =>
      rw [Statement.unlined, Statement.lower, Statement.lower, assignment.code_unlined]
  | call callee arguments => rw [Statement.unlined, Statement.lower, Statement.lower]
  | print endsLine value =>
      rw [Statement.unlined]
      unfold Statement.lower
      cases value with
      | none => rfl
      | some expression => simp only [Option.map_some, expression.code_unlined]
  | read target =>
      rw [Statement.unlined, Statement.lower, Statement.lower]
      rfl
  | leave line => rw [Statement.unlined, Statement.lower, Statement.lower]
  | giveBack line value =>
      rw [Statement.unlined, Statement.lower, Statement.lower, value.code_unlined]
  | evaluate value =>
      rw [Statement.unlined, Statement.lower, Statement.lower, value.code_unlined]
  | block body =>
      rw [Statement.unlined, Statement.lower, Statement.lower, Statement.lowerAll_unlined]
  | whileLoop condition body =>
      rw [Statement.unlined, Statement.lower, Statement.lower]
      simp only [body.lower_unlined, leaveUnless_unlined]
  | ifThen condition yes =>
      rw [Statement.unlined, Statement.lower, Statement.lower]
      simp only [yes.lower_unlined, leaveUnless_unlined]
  | ifElse condition yes no =>
      rw [Statement.unlined, Statement.lower, Statement.lower]
      simp only [yes.lower_unlined, no.lower_unlined, leaveUnless_unlined]
  | doWhile body condition =>
      rw [Statement.unlined, Statement.lower, Statement.lower]
      cases condition with
      | none => simp only [body.lower_unlined, Option.map_none]
      | some condition => simp only [body.lower_unlined, Option.map_some, repeatIf_unlined]
  | forLoop start condition step body =>
      rw [Statement.unlined]
      unfold Statement.lower
      cases condition <;> cases step <;>
        simp only [body.lower_unlined, start.code_unlined, Option.map_none, Option.map_some,
          leaveUnless_unlined, Assignment.code_unlined]
  | switch line number value clauses =>
      rw [Statement.unlined, Statement.lower, Statement.lower]
      simp only [Clause.lowerAll_unlined, value.code_unlined]
  | switchHead line number value =>
      rw [Statement.unlined, Statement.lower, Statement.lower, value.code_unlined]

theorem Statement.lowerAll_unlined (exit : Option String) (statements : List Statement) :
    Statement.lowerAll methods exit (statements.map Statement.unlined) =
      Statement.lowerAll methods exit statements := by
  cases statements with
  | nil => rfl
  | cons statement rest =>
      rw [List.map_cons, Statement.lowerAll, Statement.lowerAll, statement.lower_unlined,
        Statement.lowerAll_unlined]

theorem Clause.lowerAll_unlined (selector finish : String) (pending : Option String)
    (entered : Bool) (clauses : List Clause) :
    Clause.lowerAll methods selector finish pending entered (clauses.map Clause.unlined) =
      Clause.lowerAll methods selector finish pending entered clauses := by
  cases clauses with
  | nil => rfl
  | cons clause rest =>
      rw [List.map_cons, Clause.lowerAll, Clause.lowerAll, clause.lower_unlined]
      simp only [Clause.lowerAll_unlined]

theorem Clause.lower_unlined (selector finish : String) (pending : Option String)
    (entered : Bool) (clause : Clause) :
    clause.unlined.lower methods selector finish pending entered =
      clause.lower methods selector finish pending entered := by
  obtain ⟨test, body⟩ := clause
  rw [Clause.unlined, Clause.lower, Clause.lower]
  cases test with
  | none => simp only [Option.map_none, Statement.lowerAll_unlined]
  | some test => simp only [Option.map_some, Statement.lowerAll_unlined, caseTest_unlined]

end

theorem Member.lowerAll_unlined (members : List Member) :
    Member.lowerAll methods (members.map Member.unlined) = Member.lowerAll methods members := by
  induction members generalizing methods with
  | nil => rfl
  | cons member rest ih =>
      cases member with
      | skipped => exact ih methods
      | field declaration =>
          rw [List.map_cons, Member.unlined, Member.lowerAll, Member.lowerAll, ih,
            declaration.code_unlined]
      | method declared =>
          rw [List.map_cons, Member.unlined, Member.lowerAll, Member.lowerAll,
            declared.signature_unlined, ih]
          show (do let first ← Statement.lowerAll _ _ (declared.body.map Statement.unlined); _) = _
          rw [Statement.lowerAll_unlined]

/-- The program without lines has the same listing. -/
theorem Program.lower_unlined (program : Program) : program.unlined.lower = program.lower := by
  cases program with
  | statements body =>
      rw [Program.unlined, Program.lower, Program.lower, Statement.lowerAll_unlined]
  | members all =>
      rw [Program.unlined, Program.lower, Program.lower, Member.lowerAll_unlined]

end StackLang
