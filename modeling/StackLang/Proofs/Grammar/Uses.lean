import StackLang.Proofs.Grammar.TreeStandard

/-!
# Uses and locals of a tree

The variables that a tree reads or writes, in the order in which they are checked, and
those that it declares.
-/

namespace StackLang

mutual

/-- The variables that an expression reads. -/
def Expr.uses : Expr → List Token
  | .missing | .literal _ => []
  | .name token => [token]
  | .call _ arguments => Expr.allUses arguments
  | .negate _ operand | .invert _ operand => operand.uses
  | .binary _ _ left right => left.uses ++ right.uses

def Expr.allUses : List Expr → List Token
  | [] => []
  | expression :: rest => expression.uses ++ Expr.allUses rest

end

def Foreseen.uses (foreseen : Foreseen) : List Token := foreseen.value.uses

/-- The uses of a part that may be missing. -/
def usesOf (uses : α → List Token) : Option α → List Token
  | none => []
  | some part => uses part

def Declaration.uses (declaration : Declaration) : List Token :=
  usesOf (fun initializer => initializer.value.uses) declaration.initializer

def AssignmentForm.uses : AssignmentForm → List Token
  | .store _ value => value.uses
  | _ => []

def Assignment.uses (assignment : Assignment) : List Token :=
  assignment.target :: assignment.form.uses

def Returned.uses : Returned → List Token
  | .value given => given.uses
  | _ => []

def LoopStart.uses : LoopStart → List Token
  | .nothing => []
  | .declare declaration => declaration.uses
  | .assign assignment => assignment.uses

def LoopStart.locals : LoopStart → List Token
  | .declare declaration => [declaration.name]
  | _ => []

mutual

/-- The variables that a statement reads or writes, in the order in which they are
checked. -/
def Statement.uses : Statement → List Token
  | .skipped | .leave _ => []
  | .declare declaration => declaration.uses
  | .assign assignment => assignment.uses
  | .call callee arguments => (Expr.call callee arguments).uses
  | .print _ value => usesOf Expr.uses value
  | .read target => [target]
  | .giveBack _ value => value.uses
  | .evaluate value => value.uses
  | .block body => Statement.allUses body
  | .whileLoop condition body | .ifThen condition body => condition.uses ++ body.uses
  | .ifElse condition yes no => condition.uses ++ (yes.uses ++ no.uses)
  | .doWhile body condition => body.uses ++ usesOf Foreseen.uses condition
  | .forLoop start condition step body =>
      start.uses ++ (usesOf Foreseen.uses condition ++ (usesOf Assignment.uses step ++ body.uses))
  | .switch _ _ value clauses => value.uses ++ Clause.allUses clauses
  | .switchHead _ _ value => value.uses

def Statement.allUses : List Statement → List Token
  | [] => []
  | statement :: rest => statement.uses ++ Statement.allUses rest

def Clause.allUses : List Clause → List Token
  | [] => []
  | clause :: rest => clause.uses ++ Clause.allUses rest

def Clause.uses : Clause → List Token
  | .clause test body => usesOf Foreseen.uses test ++ Statement.allUses body

end

mutual

/-- The variables that a statement declares, those of nested statements included. -/
def Statement.locals : Statement → List Token
  | .declare declaration => [declaration.name]
  | .block body => Statement.allLocals body
  | .whileLoop _ body | .ifThen _ body | .doWhile body _ => body.locals
  | .ifElse _ yes no => yes.locals ++ no.locals
  | .forLoop start _ _ body => start.locals ++ body.locals
  | .switch _ _ _ clauses => Clause.allLocals clauses
  | _ => []

def Statement.allLocals : List Statement → List Token
  | [] => []
  | statement :: rest => statement.locals ++ Statement.allLocals rest

def Clause.allLocals : List Clause → List Token
  | [] => []
  | clause :: rest => clause.locals ++ Clause.allLocals rest

def Clause.locals : Clause → List Token
  | .clause _ body => Statement.allLocals body

end

/-- The variables that the body of a method reads or writes. -/
def Method.uses (method : Method) : List Token := Statement.allUses method.body

/-- The parameters of a method and the variables that its body declares. -/
def Method.locals (method : Method) : List Token :=
  method.parameters.map Prod.snd ++ Statement.allLocals method.body

def Member.method? : Member → Option Method
  | .method declared => some declared
  | _ => none

def Member.field? : Member → Option Token
  | .field declaration => some declaration.name
  | _ => none

/-- The methods of a class, in the order of their declarations. -/
def Program.methods : Program → List Method
  | .statements _ => []
  | .members all => all.filterMap Member.method?

/-- The fields of a class, in the order of their declarations. -/
def Program.fields : Program → List Token
  | .statements _ => []
  | .members all => all.filterMap Member.field?

/-! ## Uses are names -/

variable {standard : TreeStandard} {token : Token}

mutual

theorem Expr.uses_meet (expression : Expr) (meets : expression.Meets standard)
    (used : token ∈ expression.uses) : standard.name token := by
  cases expression with
  | missing | literal => nomatch used
  | name name =>
      obtain rfl := List.mem_singleton.mp used
      exact meets
  | call callee arguments => exact Expr.allUses_meet arguments meets.2 used
  | negate line operand | invert line operand => exact operand.uses_meet meets used
  | binary operator line left right =>
      rcases List.mem_append.mp used with used | used
      · exact left.uses_meet meets.1 used
      · exact right.uses_meet meets.2 used

theorem Expr.allUses_meet (expressions : List Expr) (meets : Expr.AllMeet standard expressions)
    (used : token ∈ Expr.allUses expressions) : standard.name token := by
  cases expressions with
  | nil => nomatch used
  | cons expression rest =>
      rcases List.mem_append.mp used with used | used
      · exact expression.uses_meet meets.1 used
      · exact Expr.allUses_meet rest meets.2 used

end

theorem Foreseen.uses_meet (foreseen : Foreseen) (meets : foreseen.Meets standard)
    (used : token ∈ foreseen.uses) : standard.name token :=
  foreseen.value.uses_meet meets.2 used

theorem usesOf_meet {part : α → Prop} {uses : α → List Token}
    (parts : ∀ value, part value → token ∈ uses value → standard.name token) (value? : Option α)
    (meets : OptionMeets part value?) (used : token ∈ usesOf uses value?) : standard.name token := by
  cases value? with
  | none => nomatch used
  | some value => exact parts value meets used

theorem Declaration.uses_meet (declaration : Declaration) (meets : declaration.Meets standard)
    (used : token ∈ declaration.uses) : standard.name token :=
  usesOf_meet (fun initializer => initializer.value.uses_meet) _ meets.2 used

theorem Assignment.uses_meet (assignment : Assignment) (meets : assignment.Meets standard)
    (used : token ∈ assignment.uses) : standard.name token := by
  obtain ⟨target, form⟩ := assignment
  rcases List.mem_cons.mp used with rfl | used
  · exact meets.1
  · cases form with
    | unfinished | step => nomatch used
    | store operator? value => exact value.uses_meet meets.2 used

theorem LoopStart.uses_meet (start : LoopStart) (meets : start.Meets standard)
    (used : token ∈ start.uses) : standard.name token := by
  cases start with
  | nothing => nomatch used
  | declare declaration => exact declaration.uses_meet meets used
  | assign assignment => exact assignment.uses_meet meets used

theorem Returned.uses_meet (value : Returned) (meets : value.Meets standard)
    (used : token ∈ value.uses) : standard.name token := by
  cases value with
  | nothing | unknown => nomatch used
  | value given => exact given.uses_meet meets used

mutual

/-- Every use of a statement is a name of the statement. -/
theorem Statement.uses_meet (statement : Statement) (meets : statement.Meets standard)
    (used : token ∈ statement.uses) : standard.name token := by
  cases statement with
  | skipped | leave => nomatch used
  | declare declaration => exact declaration.uses_meet meets used
  | assign assignment => exact assignment.uses_meet meets used
  | call callee arguments => exact (Expr.call callee arguments).uses_meet meets used
  | print endsLine value => exact usesOf_meet Expr.uses_meet value meets used
  | read target =>
      obtain rfl := List.mem_singleton.mp used
      exact meets
  | giveBack line value => exact value.uses_meet meets used
  | evaluate value => exact value.uses_meet meets used
  | block body => exact Statement.allUses_meet body meets used
  | whileLoop condition body | ifThen condition body =>
      rcases List.mem_append.mp used with used | used
      · exact condition.uses_meet meets.1 used
      · exact body.uses_meet meets.2 used
  | ifElse condition yes no =>
      rcases List.mem_append.mp used with used | used
      · exact condition.uses_meet meets.1 used
      · rcases List.mem_append.mp used with used | used
        · exact yes.uses_meet meets.2.1 used
        · exact no.uses_meet meets.2.2 used
  | doWhile body condition =>
      cases condition with
      | none =>
          rw [Statement.uses, usesOf, List.append_nil] at used
          exact body.uses_meet meets.2 used
      | some condition =>
          rcases List.mem_append.mp used with used | used
          · exact body.uses_meet meets.1 used
          · exact condition.uses_meet meets.2 used
  | forLoop start condition step body =>
      rcases List.mem_append.mp used with used | used
      · exact start.uses_meet meets.1 used
      rcases List.mem_append.mp used with used | used
      · exact usesOf_meet Foreseen.uses_meet condition meets.2.1 used
      rcases List.mem_append.mp used with used | used
      · exact usesOf_meet Assignment.uses_meet step meets.2.2.1 used
      · exact body.uses_meet meets.2.2.2 used
  | switch line number value clauses =>
      rcases List.mem_append.mp used with used | used
      · exact value.uses_meet meets.1 used
      · exact Clause.allUses_meet clauses meets.2 used
  | switchHead line number value => exact value.uses_meet meets.2 used

theorem Statement.allUses_meet (statements : List Statement)
    (meets : Statement.AllMeet standard statements)
    (used : token ∈ Statement.allUses statements) : standard.name token := by
  cases statements with
  | nil => nomatch used
  | cons statement rest =>
      rcases List.mem_append.mp used with used | used
      · exact statement.uses_meet meets.1 used
      · exact Statement.allUses_meet rest meets.2 used

theorem Clause.allUses_meet (clauses : List Clause) (meets : Clause.AllMeet standard clauses)
    (used : token ∈ Clause.allUses clauses) : standard.name token := by
  cases clauses with
  | nil => nomatch used
  | cons clause rest =>
      rcases List.mem_append.mp used with used | used
      · exact clause.uses_meet meets.1 used
      · exact Clause.allUses_meet rest meets.2 used

theorem Clause.uses_meet (clause : Clause) (meets : clause.Meets standard)
    (used : token ∈ clause.uses) : standard.name token := by
  obtain ⟨test, body⟩ := clause
  rcases List.mem_append.mp used with used | used
  · exact usesOf_meet Foreseen.uses_meet test meets.1 used
  · exact Statement.allUses_meet body meets.2 used

end

end StackLang
