import StackLang.Grammar.Tree

/-!
# Standards for trees

A standard says what is asked of the parts of a tree: whether it may have gaps,
and what holds of its names, its literals and its foreseen expressions.  A tree
meets a standard if all its parts do.
-/

namespace StackLang

/-- What is asked of the parts of a tree. -/
structure TreeStandard where
  /-- Whether gaps are allowed. -/
  gaps : Prop
  name : Token → Prop
  literal : Token → Prop
  foreseen : Foreseen → Prop

/-- The expression as a preview shows it: without the arguments of calls. -/
def Expr.skeleton : Expr → Expr
  | .missing => .missing
  | .literal token => .literal token
  | .name token => .name token
  | .call callee _ => .call callee []
  | .negate line operand => .negate line operand.skeleton
  | .invert line operand => .invert line operand.skeleton
  | .binary operator line left right => .binary operator line left.skeleton right.skeleton

namespace TreeStandard

/-- The names and literals of the tree are such tokens of the source. -/
def loose (source : List Token) : TreeStandard where
  gaps := True
  name token := token.isIdentifier = true ∧ token ∈ source
  literal token := token.isLiteral = true ∧ token ∈ source
  foreseen _ := True

/-- Besides, the tree has no gaps, and every preview shows what stands there. -/
def strict (source : List Token) : TreeStandard where
  gaps := False
  name := (loose source).name
  literal := (loose source).literal
  foreseen foreseen := foreseen.preview = some foreseen.value.skeleton

end TreeStandard

mutual

def Expr.Meets (standard : TreeStandard) : Expr → Prop
  | .missing => standard.gaps
  | .literal token => standard.literal token
  | .name token => standard.name token
  | .call callee arguments => standard.name callee ∧ Expr.AllMeet standard arguments
  | .negate _ operand => operand.Meets standard
  | .invert _ operand => operand.Meets standard
  | .binary _ _ left right => left.Meets standard ∧ right.Meets standard

def Expr.AllMeet (standard : TreeStandard) : List Expr → Prop
  | [] => True
  | expression :: rest => expression.Meets standard ∧ Expr.AllMeet standard rest

end

theorem Expr.allMeet_iff {standard : TreeStandard} {expressions : List Expr} :
    Expr.AllMeet standard expressions ↔
      ∀ expression ∈ expressions, expression.Meets standard := by
  induction expressions with
  | nil => simp [Expr.AllMeet]
  | cons expression rest ih => simp [Expr.AllMeet, ih]

/-- What is asked of a part that may be missing by the grammar. -/
def OptionMeets (part : α → Prop) : Option α → Prop
  | none => True
  | some value => part value

/-- What is asked of a part that must not be missing by the grammar. -/
def GapMeets (part : TreeStandard → α → Prop) (standard : TreeStandard) : Option α → Prop
  | none => standard.gaps
  | some value => part standard value

/-- Without gaps nothing is missing. -/
theorem GapMeets.exists_some {part : TreeStandard → α → Prop} {standard : TreeStandard}
    {value? : Option α} (meets : GapMeets part standard value?) (whole : ¬standard.gaps) :
    ∃ value, value? = some value ∧ part standard value := by
  cases value? with
  | none => exact absurd meets whole
  | some value => exact ⟨value, rfl, meets⟩

def Foreseen.Meets (standard : TreeStandard) (foreseen : Foreseen) : Prop :=
  standard.foreseen foreseen ∧ foreseen.value.Meets standard

def Declaration.Meets (standard : TreeStandard) (declaration : Declaration) : Prop :=
  standard.name declaration.name ∧
    OptionMeets (fun initializer => initializer.value.Meets standard) declaration.initializer

def AssignmentForm.Meets (standard : TreeStandard) : AssignmentForm → Prop
  | .unfinished => standard.gaps
  | .step operator => operator = .add ∨ operator = .sub
  | .store _ value => value.Meets standard

def Assignment.Meets (standard : TreeStandard) (assignment : Assignment) : Prop :=
  standard.name assignment.target ∧ assignment.form.Meets standard

def Returned.Meets (standard : TreeStandard) : Returned → Prop
  | .nothing => True
  | .value given => given.Meets standard
  | .unknown => standard.gaps

def LoopStart.Meets (standard : TreeStandard) : LoopStart → Prop
  | .nothing => True
  | .declare declaration => declaration.Meets standard
  | .assign assignment => assignment.Meets standard

mutual

def Statement.Meets (standard : TreeStandard) : Statement → Prop
  | .skipped => standard.gaps
  | .declare declaration => declaration.Meets standard
  | .assign assignment => assignment.Meets standard
  | .call callee arguments => (Expr.call callee arguments).Meets standard
  | .print _ value => OptionMeets (Expr.Meets standard) value
  | .read target => standard.name target
  | .leave _ => True
  | .giveBack _ value => value.Meets standard
  | .evaluate value => value.Meets standard
  | .block body => Statement.AllMeet standard body
  | .whileLoop condition body => condition.Meets standard ∧ body.Meets standard
  | .ifThen condition yes => condition.Meets standard ∧ yes.Meets standard
  | .ifElse condition yes no =>
      condition.Meets standard ∧ yes.Meets standard ∧ no.Meets standard
  | .doWhile body none => standard.gaps ∧ body.Meets standard
  | .doWhile body (some condition) => body.Meets standard ∧ condition.Meets standard
  | .forLoop start condition step body =>
      start.Meets standard ∧ OptionMeets (Foreseen.Meets standard) condition ∧
        OptionMeets (Assignment.Meets standard) step ∧ body.Meets standard
  | .switch _ _ value clauses => value.Meets standard ∧ Clause.AllMeet standard clauses
  | .switchHead _ _ value => standard.gaps ∧ value.Meets standard

def Statement.AllMeet (standard : TreeStandard) : List Statement → Prop
  | [] => True
  | statement :: rest => statement.Meets standard ∧ Statement.AllMeet standard rest

def Clause.AllMeet (standard : TreeStandard) : List Clause → Prop
  | [] => True
  | clause :: rest => clause.Meets standard ∧ Clause.AllMeet standard rest

def Clause.Meets (standard : TreeStandard) : Clause → Prop
  | .clause test body =>
      OptionMeets (Foreseen.Meets standard) test ∧ Statement.AllMeet standard body

end

theorem Statement.allMeet_iff {standard : TreeStandard} {statements : List Statement} :
    Statement.AllMeet standard statements ↔
      ∀ statement ∈ statements, statement.Meets standard := by
  induction statements with
  | nil => simp [Statement.AllMeet]
  | cons statement rest ih => simp [Statement.AllMeet, ih]

theorem Clause.allMeet_iff {standard : TreeStandard} {clauses : List Clause} :
    Clause.AllMeet standard clauses ↔ ∀ clause ∈ clauses, clause.Meets standard := by
  induction clauses with
  | nil => simp [Clause.AllMeet]
  | cons clause rest ih => simp [Clause.AllMeet, ih]

def Method.Meets (standard : TreeStandard) (method : Method) : Prop :=
  standard.name method.name ∧ (∀ parameter ∈ method.parameters, standard.name parameter.2) ∧
    Statement.AllMeet standard method.body

def Member.Meets (standard : TreeStandard) : Member → Prop
  | .field declaration => declaration.Meets standard
  | .method declared => declared.Meets standard
  | .skipped => standard.gaps

def Program.Meets (standard : TreeStandard) : Program → Prop
  | .statements body => Statement.AllMeet standard body
  | .members all => ∀ member ∈ all, member.Meets standard

/-- Every part that meets one standard meets the other. -/
structure TreeStandard.Implies (standard other : TreeStandard) : Prop where
  gaps : standard.gaps → other.gaps
  name : ∀ token, standard.name token → other.name token
  literal : ∀ token, standard.literal token → other.literal token
  foreseen : ∀ foreseen, standard.foreseen foreseen → other.foreseen foreseen

namespace TreeStandard.Implies

variable {standard other : TreeStandard}

theorem option {strong weak : α → Prop} {part? : Option α}
    (implied : ∀ value, strong value → weak value)
    (meets : OptionMeets strong part?) : OptionMeets weak part? := by
  cases part? with
  | none => trivial
  | some value => exact implied value meets

mutual

theorem expression (implies : standard.Implies other) (expression : Expr)
    (meets : expression.Meets standard) : expression.Meets other := by
  cases expression with
  | missing => exact implies.gaps meets
  | literal token => exact implies.literal token meets
  | name token => exact implies.name token meets
  | call callee arguments =>
      exact ⟨implies.name callee meets.1, implies.expressions arguments meets.2⟩
  | negate line operand | invert line operand => exact implies.expression operand meets
  | binary operator line left right =>
      exact ⟨implies.expression left meets.1, implies.expression right meets.2⟩

theorem expressions (implies : standard.Implies other) (expressions : List Expr)
    (meets : Expr.AllMeet standard expressions) : Expr.AllMeet other expressions := by
  cases expressions with
  | nil => trivial
  | cons expression rest =>
      exact ⟨implies.expression expression meets.1, implies.expressions rest meets.2⟩

end

theorem foreseenMeets (implies : standard.Implies other) (foreseen : Foreseen)
    (meets : foreseen.Meets standard) : foreseen.Meets other :=
  ⟨implies.foreseen foreseen meets.1, implies.expression foreseen.value meets.2⟩

theorem declaration (implies : standard.Implies other) (declaration : Declaration)
    (meets : declaration.Meets standard) : declaration.Meets other := by
  refine ⟨implies.name _ meets.1, ?_⟩
  exact option (fun initializer => implies.foreseenMeets initializer.value) meets.2

theorem assignment (implies : standard.Implies other) (assignment : Assignment)
    (meets : assignment.Meets standard) : assignment.Meets other := by
  obtain ⟨target, form⟩ := assignment
  refine ⟨implies.name _ meets.1, ?_⟩
  cases form with
  | unfinished => exact implies.gaps meets.2
  | step operator => exact meets.2
  | store operator value => exact implies.foreseenMeets value meets.2

theorem loopStart (implies : standard.Implies other) (start : LoopStart)
    (meets : start.Meets standard) : start.Meets other := by
  cases start with
  | nothing => trivial
  | declare declaration => exact implies.declaration declaration meets
  | assign assignment => exact implies.assignment assignment meets

theorem returned (implies : standard.Implies other) (value : Returned)
    (meets : value.Meets standard) : value.Meets other := by
  cases value with
  | nothing => trivial
  | value given => exact implies.expression given meets
  | unknown => exact implies.gaps meets

mutual

theorem statement (implies : standard.Implies other) (statement : Statement)
    (meets : statement.Meets standard) : statement.Meets other := by
  cases statement with
  | skipped => exact implies.gaps meets
  | declare declaration => exact implies.declaration declaration meets
  | assign assignment => exact implies.assignment assignment meets
  | call callee arguments => exact implies.expression _ meets
  | print endsLine value => exact option implies.expression meets
  | read target => exact implies.name target meets
  | leave line => trivial
  | giveBack line value => exact implies.returned value meets
  | evaluate value => exact implies.expression value meets
  | block body => exact implies.statements body meets
  | whileLoop condition body =>
      exact ⟨implies.foreseenMeets condition meets.1, implies.statement body meets.2⟩
  | ifThen condition yes =>
      exact ⟨implies.foreseenMeets condition meets.1, implies.statement yes meets.2⟩
  | ifElse condition yes no =>
      exact ⟨implies.foreseenMeets condition meets.1, implies.statement yes meets.2.1,
        implies.statement no meets.2.2⟩
  | doWhile body condition =>
      cases condition with
      | none => exact ⟨implies.gaps meets.1, implies.statement body meets.2⟩
      | some condition =>
          exact ⟨implies.statement body meets.1, implies.foreseenMeets condition meets.2⟩
  | forLoop start condition step body =>
      exact ⟨implies.loopStart start meets.1, option implies.foreseenMeets meets.2.1,
        option implies.assignment meets.2.2.1, implies.statement body meets.2.2.2⟩
  | switch line number value clauses =>
      exact ⟨implies.foreseenMeets value meets.1, implies.clauses clauses meets.2⟩
  | switchHead line number value =>
      exact ⟨implies.gaps meets.1, implies.foreseenMeets value meets.2⟩

theorem statements (implies : standard.Implies other) (statements : List Statement)
    (meets : Statement.AllMeet standard statements) : Statement.AllMeet other statements := by
  cases statements with
  | nil => trivial
  | cons statement rest =>
      exact ⟨implies.statement statement meets.1, implies.statements rest meets.2⟩

theorem clauses (implies : standard.Implies other) (clauses : List Clause)
    (meets : Clause.AllMeet standard clauses) : Clause.AllMeet other clauses := by
  cases clauses with
  | nil => trivial
  | cons clause rest => exact ⟨implies.clause clause meets.1, implies.clauses rest meets.2⟩

theorem clause (implies : standard.Implies other) (clause : Clause)
    (meets : clause.Meets standard) : clause.Meets other := by
  obtain ⟨test, body⟩ := clause
  exact ⟨option implies.foreseenMeets meets.1, implies.statements body meets.2⟩

end

theorem member (implies : standard.Implies other) (member : Member)
    (meets : member.Meets standard) : member.Meets other := by
  cases member with
  | field declaration => exact implies.declaration declaration meets
  | method declared =>
      exact ⟨implies.name _ meets.1,
        fun parameter listed => implies.name _ (meets.2.1 parameter listed),
        implies.statements declared.body meets.2.2⟩
  | skipped => exact implies.gaps meets

/-- A program that meets one standard meets the other. -/
theorem program (implies : standard.Implies other) (program : Program)
    (meets : program.Meets standard) : program.Meets other := by
  cases program with
  | statements body => exact implies.statements body meets
  | members all => exact fun part listed => implies.member part (meets part listed)

end TreeStandard.Implies

end StackLang
