import StackLang.Proofs.Meaning.Interpreter

/-!
# Disciplines

A discipline is what has to hold while a program runs: an invariant of the
variables, the values that conditions may have, and the faults that may occur.
A program respects a discipline if each of its single actions does, in any
environment that satisfies the invariant.
-/

namespace StackLang

/-- What has to hold while a program runs. -/
structure Discipline where
  /-- The invariant of the variables. -/
  holds : Environment → Prop
  /-- The values that conditional jumps may pop. -/
  tests : Value → Prop
  /-- The faults that may occur. -/
  allows : Fault → Prop
  tests_flag : ∀ flag, tests (.ofFlag flag)

namespace Discipline

variable (discipline : Discipline)

/-- Nothing in particular has to hold. -/
def free : Discipline where
  holds _ := True
  tests _ := True
  allows _ := True
  tests_flag _ := trivial

/-- Storing a value keeps the invariant, or it fails with an allowed fault. -/
def Stores (name : String) (environment : Environment) (value : Value) : Prop :=
  match environment.assign name value with
  | .ok after => discipline.holds after
  | .error fault => discipline.allows fault

/-- The result is a good value or an allowed fault. -/
def Accepts (good : Value → Prop) : Except Fault Value → Prop
  | .ok value => good value
  | .error fault => discipline.allows fault

/-- Computing a value leads to a good one or to an allowed fault. -/
def Yields (good : Environment → Value → Prop) (value? : Environment → Except Fault Value) : Prop :=
  ∀ environment, discipline.holds environment → discipline.Accepts (good environment) (value? environment)

end Discipline

section

variable (discipline : Discipline) (methods : MethodTable)

def Expr.Respects (good : Environment → Value → Prop) (expression : Expr) : Prop :=
  discipline.Yields good fun environment => expression.eval methods environment

/-- The expression may be computed, whatever it is worth. -/
def Expr.Computes (expression : Expr) : Prop :=
  expression.Respects discipline methods fun _ _ => True

def Foreseen.Tests (condition : Foreseen) : Prop :=
  condition.value.Respects discipline methods fun _ => discipline.tests

def Declaration.Respects (declaration : Declaration) : Prop :=
  match declaration.initializer with
  | none => True
  | some initializer =>
      initializer.value.value.Respects discipline methods
        (discipline.Stores declaration.name.value)

def Assignment.Respects (assignment : Assignment) : Prop :=
  match assignment.form.value? methods assignment.target.value with
  | none => True
  | some value? => discipline.Yields (discipline.Stores assignment.target.value) value?

def LoopStart.Respects : LoopStart → Prop
  | .nothing => True
  | .declare declaration => declaration.Respects discipline methods
  | .assign assignment => assignment.Respects discipline methods

/-- What is asked of a part that may be missing. -/
def OptionRespects (part : α → Prop) (part? : Option α) : Prop := ∀ value ∈ part?, part value

mutual

def Statement.Respects : Statement → Prop
  | .skipped => True
  | .declare declaration => declaration.Respects discipline methods
  | .assign assignment => assignment.Respects discipline methods
  | .call _ _ => True
  | .print _ value => OptionRespects (Expr.Computes discipline methods) value
  | .read target =>
      ∀ environment line, discipline.holds environment →
        discipline.Stores target.value environment (.ofInput line)
  | .leave _ => True
  | .giveBack _ (.value given) => given.Computes discipline methods
  | .giveBack _ _ => True
  | .evaluate value => value.Computes discipline methods
  | .block body => Statement.AllRespect body
  | .whileLoop condition body => condition.Tests discipline methods ∧ body.Respects
  | .ifThen condition yes => condition.Tests discipline methods ∧ yes.Respects
  | .ifElse condition yes no =>
      condition.Tests discipline methods ∧ yes.Respects ∧ no.Respects
  | .doWhile body condition =>
      body.Respects ∧ OptionRespects (Foreseen.Tests discipline methods) condition
  | .forLoop start condition step body =>
      start.Respects discipline methods ∧
        OptionRespects (Foreseen.Tests discipline methods) condition ∧
        OptionRespects (Assignment.Respects discipline methods) step ∧ body.Respects
  | .switch _ number value clauses =>
      value.value.Respects discipline methods (discipline.Stores (selectorName number)) ∧
        Clause.AllRespect clauses
  | .switchHead _ number value =>
      value.value.Respects discipline methods (discipline.Stores (selectorName number))

def Statement.AllRespect : List Statement → Prop
  | [] => True
  | statement :: rest => statement.Respects ∧ Statement.AllRespect rest

def Clause.AllRespect : List Clause → Prop
  | [] => True
  | clause :: rest => clause.Respects ∧ Clause.AllRespect rest

def Clause.Respects : Clause → Prop
  | .clause test body =>
      OptionRespects (fun test : Foreseen => test.value.Computes discipline methods) test ∧
        Statement.AllRespect body

end

end

/-- The members of a class, where a call sees the methods declared before it. -/
def Member.AllRespect (discipline : Discipline) (methods : MethodTable) : List Member → Prop
  | [] => True
  | .skipped :: rest => Member.AllRespect discipline methods rest
  | .field declaration :: rest =>
      declaration.Respects discipline methods ∧ Member.AllRespect discipline methods rest
  | .method declared :: rest =>
      Statement.AllRespect discipline (methods.declare declared.signature) declared.body ∧
        Member.AllRespect discipline (methods.declare declared.signature) rest

def Program.Respects (discipline : Discipline) : Program → Prop
  | .statements body => Statement.AllRespect discipline .empty body
  | .members all => Member.AllRespect discipline .empty all

/-! ### Programs without a discipline -/

namespace Discipline

theorem free_yields {good : Environment → Value → Prop}
    {value? : Environment → Except Fault Value} (always : ∀ environment value, good environment value) :
    free.Yields good value? := by
  intro environment _
  cases value? environment with
  | ok value => exact always environment value
  | error fault => trivial

theorem free_stores (name : String) (environment : Environment) (value : Value) :
    free.Stores name environment value := by
  rw [Stores]
  split
  · trivial
  · trivial

variable (methods : MethodTable)

theorem free_declaration (declaration : Declaration) : declaration.Respects free methods := by
  rw [Declaration.Respects]
  split
  · trivial
  · exact free_yields (free_stores _)

theorem free_assignment (assignment : Assignment) : assignment.Respects free methods := by
  rw [Assignment.Respects]
  split
  · trivial
  · exact free_yields (free_stores _)

theorem free_tests (condition : Foreseen) : condition.Tests free methods :=
  free_yields fun _ _ => trivial

theorem free_computes (expression : Expr) : expression.Computes free methods :=
  free_yields fun _ _ => trivial

mutual

theorem free_statement (statement : Statement) : statement.Respects free methods := by
  cases statement with
  | skipped | call | leave => trivial
  | declare declaration => exact free_declaration methods declaration
  | assign assignment => exact free_assignment methods assignment
  | print endsLine value => exact fun expression _ => free_computes methods expression
  | read target => exact fun environment line _ => free_stores _ _ _
  | giveBack line value =>
      cases value with
      | nothing | unknown => trivial
      | value given => exact free_computes methods given
  | evaluate value => exact free_computes methods value
  | block body => exact free_statements body
  | whileLoop condition body => exact ⟨free_tests methods condition, free_statement body⟩
  | ifThen condition yes => exact ⟨free_tests methods condition, free_statement yes⟩
  | ifElse condition yes no =>
      exact ⟨free_tests methods condition, free_statement yes, free_statement no⟩
  | doWhile body condition =>
      exact ⟨free_statement body, fun condition _ => free_tests methods condition⟩
  | forLoop start condition step body =>
      refine ⟨?_, fun condition _ => free_tests methods condition,
        fun step _ => free_assignment methods step, free_statement body⟩
      cases start with
      | nothing => trivial
      | declare declaration => exact free_declaration methods declaration
      | assign assignment => exact free_assignment methods assignment
  | switch line number value clauses =>
      exact ⟨free_yields (free_stores _), free_clauses clauses⟩
  | switchHead line number value => exact free_yields (free_stores _)

theorem free_statements (statements : List Statement) :
    Statement.AllRespect free methods statements := by
  cases statements with
  | nil => trivial
  | cons statement rest => exact ⟨free_statement statement, free_statements rest⟩

theorem free_clauses (clauses : List Clause) : Clause.AllRespect free methods clauses := by
  cases clauses with
  | nil => trivial
  | cons clause rest => exact ⟨free_clause clause, free_clauses rest⟩

theorem free_clause (clause : Clause) : clause.Respects free methods := by
  obtain ⟨test, body⟩ := clause
  exact ⟨fun test _ => free_computes methods test.value, free_statements body⟩

end

theorem free_members (members : List Member) : Member.AllRespect free methods members := by
  induction members generalizing methods with
  | nil => trivial
  | cons member rest ih =>
      cases member with
      | skipped => exact ih methods
      | field declaration => exact ⟨free_declaration methods declaration, ih methods⟩
      | method declared => exact ⟨free_statements _ declared.body, ih _⟩

/-- Every program respects the discipline that asks for nothing. -/
theorem free_program (program : Program) : program.Respects free := by
  cases program with
  | statements body => exact free_statements .empty body
  | members all => exact free_members .empty all

end Discipline

end StackLang
