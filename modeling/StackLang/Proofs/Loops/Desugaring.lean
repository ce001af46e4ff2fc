import StackLang.Proofs.Layout.Concurrence

/-!
# Loops with a header

A loop with a header is short for what the header does first and a while loop whose body
ends with the step.  `Statement.desugared` writes such loops out and leaves out blocks,
which have neither code nor a scope of their own.  The listing stays the same, labels
included, and so do the declared variables.
-/

namespace StackLang

/-- What a loop header does first, as statements in front of the loop. -/
def LoopStart.statements : LoopStart → List Statement
  | .nothing => []
  | .declare declaration => [.declare declaration]
  | .assign assignment => [.assign assignment]

mutual

/-- The statement with its loops written out, as a list of statements.  A loop without a
condition has no while loop to stand for it. -/
def Statement.desugared : Statement → List Statement
  | .skipped => [.skipped]
  | .declare declaration => [.declare declaration]
  | .assign assignment => [.assign assignment]
  | .call callee arguments => [.call callee arguments]
  | .print endsLine value => [.print endsLine value]
  | .read target => [.read target]
  | .leave line => [.leave line]
  | .giveBack line value => [.giveBack line value]
  | .evaluate value => [.evaluate value]
  | .block body => Statement.desugaredAll body
  | .whileLoop condition body => [.whileLoop condition (.block body.desugared)]
  | .ifThen condition yes => [.ifThen condition (.block yes.desugared)]
  | .ifElse condition yes no => [.ifElse condition (.block yes.desugared) (.block no.desugared)]
  | .doWhile body condition => [.doWhile (.block body.desugared) condition]
  | .forLoop start (some condition) step body =>
      start.statements ++
        [.whileLoop condition (.block (body.desugared ++ step.toList.map .assign))]
  | .forLoop start none step body => [.forLoop start none step (.block body.desugared)]
  | .switch line number value clauses =>
      [.switch line number value (Clause.desugaredAll clauses)]
  | .switchHead line number value => [.switchHead line number value]

/-- The statements with their loops written out. -/
def Statement.desugaredAll : List Statement → List Statement
  | [] => []
  | statement :: rest => statement.desugared ++ Statement.desugaredAll rest

/-- The clauses with the loops in them written out. -/
def Clause.desugaredAll : List Clause → List Clause
  | [] => []
  | clause :: rest => clause.desugared :: Clause.desugaredAll rest

/-- The clause with the loops in it written out. -/
def Clause.desugared : Clause → Clause
  | .clause test body => .clause test (Statement.desugaredAll body)

end

/-- The method with the loops in it written out. -/
def Method.desugared (method : Method) : Method :=
  { method with body := Statement.desugaredAll method.body }

/-- The member with the loops in it written out. -/
def Member.desugared : Member → Member
  | .method declared => .method declared.desugared
  | member => member

/-- The program with its loops written out. -/
def Program.desugared : Program → Program
  | .statements body => .statements (Statement.desugaredAll body)
  | .members all => .members (all.map Member.desugared)

theorem Statement.desugaredAll_append (front back : List Statement) :
    Statement.desugaredAll (front ++ back) =
      Statement.desugaredAll front ++ Statement.desugaredAll back := by
  induction front with
  | nil => rfl
  | cons statement rest ih =>
      rw [List.cons_append, Statement.desugaredAll, Statement.desugaredAll, ih, List.append_assoc]

/-! ## Listings -/

section

variable (methods : MethodTable) (exit : Option String)

theorem Statement.lowerAll_append (front back : List Statement) :
    Statement.lowerAll methods exit (front ++ back) = (do
      let first ← Statement.lowerAll methods exit front
      let others ← Statement.lowerAll methods exit back
      return first ++ others) := by
  induction front with
  | nil =>
      rw [List.nil_append, Statement.lowerAll]
      rfl
  | cons statement rest ih =>
      rw [List.cons_append, Statement.lowerAll, Statement.lowerAll, ih]
      simp only [bind_assoc, pure_bind, List.append_assoc]

theorem Statement.lowerAll_singleton (statement : Statement) :
    Statement.lowerAll methods exit [statement] = statement.lower methods exit := by
  simp only [Statement.lowerAll, pure_bind, List.append_nil, bind_pure]

theorem LoopStart.lower_statements (start : LoopStart) :
    Statement.lowerAll methods exit start.statements =
      pure (Listing.ofInstructions (start.code methods)) := by
  cases start with
  | nothing => exact Statement.lowerAll.eq_1 methods exit
  | declare declaration =>
      rw [LoopStart.statements, Statement.lowerAll_singleton, Statement.lower]
      rfl
  | assign assignment =>
      rw [LoopStart.statements, Statement.lowerAll_singleton, Statement.lower]
      rfl

theorem Statement.lowerAll_step (step : Option Assignment) :
    Statement.lowerAll methods exit (step.toList.map .assign) =
      pure (step.elim [] fun step => Listing.ofInstructions (step.code methods)) := by
  cases step with
  | none => exact Statement.lowerAll.eq_1 methods exit
  | some step =>
      rw [Option.toList_some, List.map_singleton, Statement.lowerAll_singleton, Statement.lower]
      rfl

end

mutual

/-- A statement has the listing of what it is short for. -/
theorem Statement.lower_desugared (methods : MethodTable) (exit : Option String)
    (statement : Statement) :
    Statement.lowerAll methods exit statement.desugared = statement.lower methods exit := by
  cases statement with
  | block body =>
      rw [Statement.desugared, Statement.lower, Statement.lowerAll_desugared]
  | whileLoop condition body =>
      rw [Statement.desugared, Statement.lowerAll_singleton, Statement.lower, Statement.lower]
      simp only [Statement.lower, body.lower_desugared]
  | ifThen condition yes =>
      rw [Statement.desugared, Statement.lowerAll_singleton, Statement.lower, Statement.lower]
      simp only [Statement.lower, yes.lower_desugared]
  | ifElse condition yes no =>
      rw [Statement.desugared, Statement.lowerAll_singleton, Statement.lower, Statement.lower]
      simp only [Statement.lower, yes.lower_desugared, no.lower_desugared]
  | doWhile body condition =>
      rw [Statement.desugared, Statement.lowerAll_singleton]
      cases condition <;> simp only [Statement.lower, body.lower_desugared]
  | forLoop start condition step body =>
      cases condition with
      | none =>
          rw [Statement.desugared, Statement.lowerAll_singleton]
          cases step <;> simp only [Statement.lower, body.lower_desugared]
      | some condition =>
          rw [Statement.desugared, Statement.lowerAll_append, LoopStart.lower_statements,
            Statement.lowerAll_singleton]
          cases step <;> simp only [Statement.lower, Statement.lowerAll_append, body.lower_desugared,
            Statement.lowerAll_step, bind_assoc, pure_bind, List.append_assoc, Option.elim,
            List.nil_append]
  | switch line number value clauses =>
      rw [Statement.desugared, Statement.lowerAll_singleton, Statement.lower, Statement.lower]
      simp only [Clause.lowerAll_desugared]
  | skipped | declare | assign | call | print | read | leave | giveBack | evaluate | switchHead =>
      rw [Statement.desugared, Statement.lowerAll_singleton]

theorem Statement.lowerAll_desugared (methods : MethodTable) (exit : Option String)
    (statements : List Statement) :
    Statement.lowerAll methods exit (Statement.desugaredAll statements) =
      Statement.lowerAll methods exit statements := by
  cases statements with
  | nil => rw [Statement.desugaredAll]
  | cons statement rest =>
      rw [Statement.desugaredAll, Statement.lowerAll_append, Statement.lowerAll,
        statement.lower_desugared, Statement.lowerAll_desugared]

theorem Clause.lowerAll_desugared (methods : MethodTable) (selector finish : String)
    (pending : Option String) (entered : Bool) (clauses : List Clause) :
    Clause.lowerAll methods selector finish pending entered (Clause.desugaredAll clauses) =
      Clause.lowerAll methods selector finish pending entered clauses := by
  cases clauses with
  | nil => rw [Clause.desugaredAll]
  | cons clause rest =>
      rw [Clause.desugaredAll, Clause.lowerAll, Clause.lowerAll, clause.lower_desugared]
      simp only [Clause.lowerAll_desugared]

theorem Clause.lower_desugared (methods : MethodTable) (selector finish : String)
    (pending : Option String) (entered : Bool) (clause : Clause) :
    clause.desugared.lower methods selector finish pending entered =
      clause.lower methods selector finish pending entered := by
  obtain ⟨test, body⟩ := clause
  rw [Clause.desugared, Clause.lower, Clause.lower]
  cases test <;> simp only [Statement.lowerAll_desugared]

end

theorem Member.lowerAll_desugared (methods : MethodTable) (members : List Member) :
    Member.lowerAll methods (members.map Member.desugared) = Member.lowerAll methods members := by
  induction members generalizing methods with
  | nil => rfl
  | cons member rest ih =>
      cases member with
      | skipped => exact ih methods
      | field declaration =>
          rw [List.map_cons, Member.desugared, Member.lowerAll, Member.lowerAll, ih]
          simp
      | method declared =>
          rw [List.map_cons, Member.desugared, Member.lowerAll, Member.lowerAll, ih]
          show (do let first ← Statement.lowerAll _ _ (Statement.desugaredAll declared.body); _) = _
          rw [Statement.lowerAll_desugared]
          rfl

/-- A program has the listing of what it is short for. -/
theorem Program.lower_desugared (program : Program) : program.desugared.lower = program.lower := by
  cases program with
  | statements body =>
      rw [Program.desugared, Program.lower, Program.lower, Statement.lowerAll_desugared]
  | members all =>
      rw [Program.desugared, Program.lower, Program.lower, Member.lowerAll_desugared]

/-! ## Checks -/

open Analysis

variable {view : SymbolView}

section

variable (returns : Option TypeName) (breakable : Bool)

theorem Statement.checkAll_append (front back : List Statement) :
    Statement.checkAll returns breakable (front ++ back) = (do
      Statement.checkAll returns breakable front
      Statement.checkAll returns breakable back) := by
  induction front with
  | nil =>
      rw [List.nil_append, Statement.checkAll]
      rfl
  | cons statement rest ih =>
      rw [List.cons_append, Statement.checkAll, Statement.checkAll, ih, bind_assoc]

theorem Statement.checkAll_singleton (statement : Statement) :
    Statement.checkAll returns breakable [statement] = statement.check returns breakable := by
  simp only [Statement.checkAll, bind_pure_unit]

theorem LoopStart.check_statements (start : LoopStart) :
    Statement.checkAll returns breakable start.statements = start.check := by
  cases start with
  | nothing => exact Statement.checkAll.eq_1 returns breakable
  | declare declaration =>
      rw [LoopStart.statements, Statement.checkAll_singleton, Statement.check, LoopStart.check]
  | assign assignment =>
      rw [LoopStart.statements, Statement.checkAll_singleton, Statement.check, LoopStart.check]

end

/-- The context of a condition only shows in errors. -/
theorem Foreseen.checkCondition_concur (condition : Foreseen) (context other : String) :
    Concur view (condition.checkCondition context) (condition.checkCondition other) := by
  refine .bind (.of_agrees condition.type?_unlined) fun type? => ?_
  have checked : Concur view condition.check condition.check := .of_agrees condition.check_unlined
  cases type? with
  | none => exact checked
  | some found =>
      exact .bind (.ite (.pure _) (.bind (.report _ _) fun _ => .pure _)) fun _ => checked

mutual

/-- After the check of a statement the same is known as after that of what it is short
for. -/
theorem Statement.check_desugared (returns : Option TypeName) (breakable : Bool)
    (statement : Statement) :
    Concur view (statement.check returns breakable)
      (Statement.checkAll returns breakable statement.desugared) := by
  cases statement with
  | block body =>
      rw [Statement.desugared, Statement.check]
      exact Statement.checkAll_desugared returns breakable body
  | whileLoop condition body =>
      rw [Statement.desugared, Statement.checkAll_singleton, Statement.check, Statement.check,
        Statement.check]
      exact (condition.checkCondition_concur _ _).bind fun _ => body.check_desugared returns true
  | ifThen condition yes =>
      rw [Statement.desugared, Statement.checkAll_singleton, Statement.check, Statement.check,
        Statement.check]
      exact (condition.checkCondition_concur _ _).bind fun _ => yes.check_desugared returns breakable
  | ifElse condition yes no =>
      rw [Statement.desugared, Statement.checkAll_singleton, Statement.check, Statement.check,
        Statement.check, Statement.check]
      exact (condition.checkCondition_concur _ _).bind fun _ =>
        (yes.check_desugared returns breakable).bind fun _ => no.check_desugared returns breakable
  | doWhile body condition =>
      rw [Statement.desugared, Statement.checkAll_singleton, Statement.check_doWhile,
        Statement.check_doWhile, Statement.check]
      refine (body.check_desugared returns true).bind fun _ => ?_
      cases condition with
      | none => exact .pure _
      | some condition => exact condition.checkCondition_concur _ _
  | forLoop start condition step body =>
      have starts : Concur view start.check start.check := .of_agrees start.check_unlined
      have inside := body.check_desugared returns true
      cases condition with
      | none =>
          rw [Statement.desugared, Statement.checkAll_singleton, Statement.check_forLoop,
            Statement.check_forLoop, Statement.check]
          refine starts.bind fun _ => .bind (.pure _) fun _ => .bind ?_ fun _ => inside
          cases step with
          | none => exact .pure _
          | some step => exact .of_agrees step.check_unlined
      | some condition =>
          rw [Statement.desugared, Statement.checkAll_append, LoopStart.check_statements,
            Statement.checkAll_singleton, Statement.check_forLoop, Statement.check, Statement.check,
            Statement.checkAll_append]
          refine starts.bind fun _ => (condition.checkCondition_concur _ _).bind fun _ => ?_
          cases step with
          | none =>
              rw [Option.toList_none, List.map_nil, Statement.checkAll, bind_pure_unit]
              exact inside
          | some step =>
              rw [Option.toList_some, List.map_singleton, Statement.checkAll_singleton,
                Statement.check]
              exact inside.assignment step
  | switch line number value clauses =>
      rw [Statement.desugared, Statement.checkAll_singleton, Statement.check, Statement.check]
      exact .bind (.of_agrees (value.checkSelector_unlined _ 0 _)) fun selector? =>
        Clause.checkAll_desugared returns selector? clauses
  | skipped | declare | assign | call | print | read | leave | giveBack | evaluate | switchHead =>
      rw [Statement.desugared, Statement.checkAll_singleton]
      exact .of_agrees (Statement.check_unlined returns breakable _)

theorem Statement.checkAll_desugared (returns : Option TypeName) (breakable : Bool)
    (statements : List Statement) :
    Concur view (Statement.checkAll returns breakable statements)
      (Statement.checkAll returns breakable (Statement.desugaredAll statements)) := by
  cases statements with
  | nil =>
      rw [Statement.desugaredAll, Statement.checkAll]
      exact .pure _
  | cons statement rest =>
      rw [Statement.desugaredAll, Statement.checkAll_append, Statement.checkAll]
      exact (statement.check_desugared returns breakable).bind fun _ =>
        Statement.checkAll_desugared returns breakable rest

theorem Clause.checkAll_desugared (returns selector? : Option TypeName) (clauses : List Clause) :
    Concur view (Clause.checkAll returns selector? clauses)
      (Clause.checkAll returns selector? (Clause.desugaredAll clauses)) := by
  cases clauses with
  | nil =>
      rw [Clause.desugaredAll, Clause.checkAll]
      exact .pure _
  | cons clause rest =>
      rw [Clause.desugaredAll, Clause.checkAll, Clause.checkAll]
      exact (clause.check_desugared returns selector?).bind fun _ =>
        Clause.checkAll_desugared returns selector? rest

theorem Clause.check_desugared (returns selector? : Option TypeName) (clause : Clause) :
    Concur view (clause.check returns selector?) (clause.desugared.check returns selector?) := by
  obtain ⟨test, body⟩ := clause
  rw [Clause.desugared, Clause.check_clause, Clause.check_clause]
  refine .bind ?_ fun _ => Statement.checkAll_desugared returns true body
  cases test with
  | none => exact .pure _
  | some test => exact .of_agrees (test.checkCase_unlined selector?)

end

theorem Method.check_desugared (method : Method) :
    Concur view method.check method.desugared.check := by
  refine .bind (.of_agrees (declareMethod_agrees _ _ 0)) fun _ =>
    .bind (.of_agrees (enter_agrees _)) fun _ => ?_
  refine .bind (.of_agrees (declareParameters_unlined method.parameters)) fun _ => ?_
  exact (Statement.checkAll_desugared _ _ method.body).bind fun _ => .of_agrees exit_agrees

theorem Member.checkAll_desugared (members : List Member) :
    Concur view (Member.checkAll members) (Member.checkAll (members.map Member.desugared)) := by
  induction members with
  | nil => exact .pure _
  | cons member rest ih =>
      refine .bind ?_ fun _ => ih
      cases member with
      | method declared => exact declared.check_desugared
      | field declaration => exact .of_agrees declaration.check_unlined
      | skipped => exact .pure _

theorem Program.check_desugared (program : Program) :
    Concur view program.check program.desugared.check := by
  cases program with
  | statements body => exact Statement.checkAll_desugared _ _ body
  | members all => exact Member.checkAll_desugared all

/-- A program declares the variables of what it is short for. -/
theorem Program.analyze_symbols_desugared (program : Program) :
    program.desugared.analyze.symbols = program.analyze.symbols := by
  have concur : Concur .whole program.check program.desugared.check := program.check_desugared
  exact (concur .initial .initial (.refl _)).2.symbols.symm

end StackLang
