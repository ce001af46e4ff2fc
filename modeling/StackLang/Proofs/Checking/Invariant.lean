import StackLang.Analysis.Program
import StackLang.Proofs.Code.Issued
import StackLang.Proofs.Grammar.Switches

/-!
# Invariants of checking

What holds of the analyzer before a check and is kept by reporting an error, by
declaring a name of the tree and by recording a value holds after the check of any
statement.  The property may speak of the switches checked so far.
-/

namespace StackLang

namespace Analysis

variable {α β : Type} {invariant : Analyzer → Prop}

/-- A property of the analyzer is kept. -/
def Keeps (invariant : Analyzer → Prop) (action : Analysis α) : Prop :=
  ∀ analyzer, invariant analyzer → invariant (action.run analyzer).2

theorem Keeps.pure (result : α) : Keeps invariant (Pure.pure result) :=
  fun _ holds => holds

theorem Keeps.bind {action : Analysis α} {next : α → Analysis β} (first : Keeps invariant action)
    (later : ∀ result, Keeps invariant (next result)) : Keeps invariant (action >>= next) :=
  fun analyzer holds => later _ _ (first analyzer holds)

theorem Keeps.get : Keeps invariant (MonadState.get : Analysis Analyzer) :=
  fun _ holds => holds

theorem Keeps.ite {condition : Prop} [Decidable condition] {yes no : Analysis α}
    (first : Keeps invariant yes) (second : Keeps invariant no) :
    Keeps invariant (if condition then yes else no) := by
  split
  · exact first
  · exact second

/-- What holds of the switches checked so far holds with the given ones afterwards. -/
def Carries (invariant : List Nat → Analyzer → Prop) (numbers : List Nat)
    (action : Analysis α) : Prop :=
  ∀ seen analyzer, invariant seen analyzer → invariant (seen ++ numbers) (action.run analyzer).2

namespace Carries

variable {invariant : List Nat → Analyzer → Prop} {front numbers : List Nat}

theorem of_keeps {action : Analysis α} (keeps : ∀ seen, Keeps (invariant seen) action) :
    Carries invariant [] action := by
  intro seen analyzer holds
  rw [List.append_nil]
  exact keeps seen analyzer holds

theorem pure (result : α) : Carries invariant [] (Pure.pure result) :=
  of_keeps fun _ => Keeps.pure result

theorem bind {action : Analysis α} {next : α → Analysis β}
    (first : Carries invariant front action)
    (later : ∀ result, Carries invariant numbers (next result)) :
    Carries invariant (front ++ numbers) (action >>= next) := by
  intro seen analyzer holds
  rw [← List.append_assoc]
  exact later _ _ _ (first seen analyzer holds)

/-- What is checked first has no switches. -/
theorem behind {action : Analysis α} {next : α → Analysis β}
    (first : ∀ seen, Keeps (invariant seen) action)
    (later : ∀ result, Carries invariant numbers (next result)) :
    Carries invariant numbers (action >>= next) :=
  bind (of_keeps first) later

/-- What is checked last has no switches. -/
theorem before {action : Analysis α} {next : α → Analysis β}
    (first : Carries invariant numbers action)
    (later : ∀ result seen, Keeps (invariant seen) (next result)) :
    Carries invariant numbers (action >>= next) :=
  fun seen analyzer holds => later _ _ _ (first seen analyzer holds)

end Carries

theorem declareVariable_run (type : TypeName) (name : String) (line : Nat) (analyzer : Analyzer) :
    (declareVariable type name line).run analyzer =
      match analyzer.symbols.insert? (.fresh name type analyzer.scope) with
      | some symbols => (true, { analyzer with symbols := symbols })
      | none => (false, ((report (.alreadyDeclared name analyzer.scope line)).run analyzer).2) := by
  show ((match analyzer.symbols.insert? (.fresh name type analyzer.scope) with
    | some symbols => _
    | none => _ : Analysis Bool).run analyzer) = _
  cases analyzer.symbols.insert? (.fresh name type analyzer.scope) <;> rfl

theorem declareMethod_run (signature : Signature) (line : Nat) (analyzer : Analyzer) :
    (declareMethod signature line).run analyzer =
      match analyzer.methods.insert? signature with
      | some methods => (true, { analyzer with methods := methods })
      | none => (false, ((report (.methodAlreadyDeclared signature.name line)).run analyzer).2) := by
  show ((match analyzer.methods.insert? signature with
    | some methods => _
    | none => _ : Analysis Bool).run analyzer) = _
  cases analyzer.methods.insert? signature <;> rfl

/-- Check a part that may be missing. -/
def optionally (check : α → Analysis Unit) : Option α → Analysis Unit
  | none => Pure.pure ()
  | some part => check part

theorem Keeps.optionally {check : α → Analysis Unit} (kept : ∀ part, Keeps invariant (check part))
    (part? : Option α) : Keeps invariant (Analysis.optionally check part?) := by
  cases part? with
  | none => exact Keeps.pure _
  | some part => exact kept part

end Analysis

section

open Analysis

variable (returns : Option TypeName) (breakable : Bool)

theorem Statement.check_print (endsLine : Bool) (value : Option Expr) :
    (Statement.print endsLine value).check returns breakable =
      optionally (fun expression => do let _ ← expression.check) value := by
  cases value <;> unfold Statement.check <;> rfl

theorem Statement.check_doWhile (body : Statement) (condition : Option Foreseen) :
    (Statement.doWhile body condition).check returns breakable = (do
      body.check returns true
      optionally (Foreseen.checkCondition · "do-while") condition) := by
  cases condition <;> rfl

theorem Statement.check_forLoop (start : LoopStart) (condition : Option Foreseen)
    (step : Option Assignment) (body : Statement) :
    (Statement.forLoop start condition step body).check returns breakable = (do
      start.check
      optionally (Foreseen.checkCondition · "for") condition
      optionally Assignment.check step
      body.check returns true) := by
  cases condition <;> cases step <;> rw [Statement.check] <;> rfl

/-- Check the value of an initializer.  A constant is recorded first if the variable was
declared just now. -/
def Initializer.checkValue (name : Token) (declared : Bool) (initializer : Initializer) :
    Analysis Unit := do
  if declared then
    if let some constant := initializer.constant then
      setValue name.value constant.literalText
  initializer.value.check

/-- Check the initial value of a variable. -/
def Initializer.check (type : TypeName) (name : Token) (declared : Bool)
    (initializer : Initializer) : Analysis Unit := do
  if let some found ← initializer.value.type? then
    let _ ← checkAssignment type found name.line
  initializer.checkValue name declared

theorem Declaration.check_some (type : TypeName) (name : Token) (initializer : Initializer) :
    Declaration.check ⟨type, name, some initializer⟩ = (do
      let declared ← declareVariable type name.value name.line
      initializer.check type name declared) := rfl

/-- Check what an assignment does with a target that has the given type. -/
def AssignmentForm.check (line : Nat) (target? : Option TypeName) : AssignmentForm → Analysis Unit
  | .unfinished => return ()
  | .step operator => do
      if let some target := target? then
        let _ ← checkOperation target .int operator.checkedAs line
  | .store operator? value => do
      if let some target := target? then
        if let some found ← value.type? then
          checkStore operator? target found line
      value.check

theorem Assignment.check_form (assignment : Assignment) :
    assignment.check = (do
      let target? ← useVariable assignment.target.value assignment.target.line
      assignment.form.check assignment.target.line target?) := by
  obtain ⟨target, form⟩ := assignment
  cases form <;> rfl

theorem Clause.check_clause (selector? : Option TypeName) (test : Option Foreseen)
    (body : List Statement) :
    (Clause.clause test body).check returns selector? = (do
      optionally (Foreseen.checkCase · selector?) test
      Statement.checkAll returns true body) := by
  cases test <;> unfold Clause.check <;> rfl

end

/-- What keeps a property while expressions and assignments are checked. -/
structure ReportInvariant (invariant : Analyzer → Prop) : Prop where
  report (error : SemanticError) : Analysis.Keeps invariant (Analysis.report error)

namespace ReportInvariant

open Analysis

variable {invariant : Analyzer → Prop}

/-- A result is given, after an error if something is wrong. -/
theorem reportIf (kept : ReportInvariant invariant) {condition : Prop}
    [Decidable condition] (error : SemanticError) (result : α) :
    Keeps invariant (if condition then do
      Analysis.report error
      Pure.pure result else Pure.pure result) :=
  Keeps.ite ((kept.report error).bind fun _ => Keeps.pure result) (Keeps.pure result)

theorem useVariable (kept : ReportInvariant invariant) (name : String) (line : Nat) :
    Keeps invariant (Analysis.useVariable name line) :=
  Keeps.get.bind fun _ => kept.reportIf _ _

theorem checkOperation (kept : ReportInvariant invariant) (left right : TypeName)
    (operator : Operator) (line : Nat) :
    Keeps invariant (Analysis.checkOperation left right operator line) :=
  kept.reportIf _ _

theorem combine (kept : ReportInvariant invariant) (operator : Operator) (line : Nat)
    (left? right? : Option TypeName) :
    Keeps invariant (Analysis.combine operator line left? right?) := by
  unfold Analysis.combine
  split
  · exact kept.checkOperation _ _ _ _
  · exact Keeps.pure _

theorem checkAssignment (kept : ReportInvariant invariant) (target value : TypeName)
    (line : Nat) : Keeps invariant (Analysis.checkAssignment target value line) :=
  (kept.checkOperation _ _ _ _).bind fun _ => Keeps.pure _

theorem checkBoolean (kept : ReportInvariant invariant) (found : TypeName)
    (context : String) (line : Nat) :
    Keeps invariant (Analysis.checkBoolean found context line) :=
  Keeps.ite (Keeps.pure _) ((kept.report _).bind fun _ => Keeps.pure _)

theorem checkArguments (kept : ReportInvariant invariant) (name : String) (line index : Nat)
    (parameters : List (TypeName × String)) (arguments : List (Option TypeName)) :
    Keeps invariant (Analysis.checkArguments name line index parameters arguments) := by
  induction parameters generalizing index arguments with
  | nil => exact Keeps.pure _
  | cons parameter parameters ih =>
      cases arguments with
      | nil => exact Keeps.pure _
      | cons found? arguments =>
          cases found? with
          | none => exact ih _ _
          | some found =>
              unfold Analysis.checkArguments
              exact Keeps.ite ((kept.report _).bind fun _ => ih _ _) (ih _ _)

theorem checkCall (kept : ReportInvariant invariant) (name : String)
    (arguments : List (Option TypeName)) (line : Nat) :
    Keeps invariant (Analysis.checkCall name arguments line) := by
  refine Keeps.get.bind fun analyzer => ?_
  split
  · exact (kept.report _).bind fun _ => Keeps.pure _
  · exact Keeps.ite ((kept.report _).bind fun _ => Keeps.pure _)
      ((kept.checkArguments _ _ _ _ _).bind fun _ => Keeps.pure _)

theorem checkReturnValue (kept : ReportInvariant invariant) (expected : TypeName)
    (found? : Option TypeName) (line : Nat) :
    Keeps invariant (Analysis.checkReturnValue expected found? line) := by
  apply Keeps.ite
  · exact kept.report _
  · cases found? with
    | none => exact Keeps.pure _
    | some found => exact kept.reportIf _ _

theorem checkEmptyReturn (kept : ReportInvariant invariant) (expected : TypeName)
    (line : Nat) : Keeps invariant (Analysis.checkEmptyReturn expected line) :=
  kept.reportIf _ _

mutual

theorem expression (kept : ReportInvariant invariant) (expression : Expr) :
    Keeps invariant expression.check := by
  cases expression with
  | missing =>
      rw [Expr.check]
      exact Keeps.pure _
  | literal token =>
      rw [Expr.check]
      exact kept.reportIf _ _
  | name token =>
      rw [Expr.check]
      exact kept.useVariable _ _
  | call callee arguments =>
      rw [Expr.check]
      exact (kept.expressions arguments).bind fun _ => kept.checkCall _ _ _
  | negate line operand | invert line operand =>
      rw [Expr.check]
      exact (kept.expression operand).bind fun _ => kept.combine _ _ _ _
  | binary operator line left right =>
      rw [Expr.check]
      exact (kept.expression left).bind fun _ => (kept.expression right).bind fun _ =>
        kept.combine _ _ _ _

theorem expressions (kept : ReportInvariant invariant) (expressions : List Expr) :
    Keeps invariant (Expr.checkAll expressions) := by
  cases expressions with
  | nil =>
      rw [Expr.checkAll]
      exact Keeps.pure _
  | cons expression rest =>
      rw [Expr.checkAll]
      exact (kept.expression expression).bind fun _ => (kept.expressions rest).bind fun _ =>
        Keeps.pure _

end

theorem foreseen (kept : ReportInvariant invariant) (foreseen : Foreseen) :
    Keeps invariant foreseen.check :=
  (kept.expression foreseen.value).bind fun _ => Keeps.pure _

theorem foreseenType (foreseen : Foreseen) : Keeps invariant foreseen.type? :=
  Keeps.get.bind fun _ => Keeps.pure _

theorem condition (kept : ReportInvariant invariant) (condition : Foreseen)
    (context : String) : Keeps invariant (condition.checkCondition context) := by
  refine (foreseenType condition).bind fun type? => ?_
  cases type? with
  | none => exact kept.foreseen condition
  | some found =>
      exact (kept.checkBoolean _ _ _).bind fun _ => kept.foreseen condition

theorem store (kept : ReportInvariant invariant) (operator? : Option BinaryOperator)
    (target found : TypeName) (line : Nat) :
    Keeps invariant (Analysis.checkStore operator? target found line) := by
  cases operator? with
  | none => exact (kept.checkAssignment _ _ _).bind fun _ => Keeps.pure _
  | some operator =>
      refine (kept.checkOperation _ _ _ _).bind fun result? => ?_
      cases result? with
      | none => exact Keeps.pure _
      | some result => exact (kept.checkAssignment _ _ _).bind fun _ => Keeps.pure _

theorem form (kept : ReportInvariant invariant) (line : Nat)
    (target? : Option TypeName) (form : AssignmentForm) :
    Keeps invariant (form.check line target?) := by
  cases form with
  | unfinished => exact Keeps.pure _
  | step operator =>
      cases target? with
      | none => exact Keeps.pure _
      | some type => exact (kept.checkOperation _ _ _ _).bind fun _ => Keeps.pure _
  | store operator? value =>
      cases target? with
      | none => exact kept.foreseen value
      | some type =>
          refine (foreseenType value).bind fun type? => ?_
          cases type? with
          | none => exact kept.foreseen value
          | some found => exact (kept.store _ _ _ _).bind fun _ => kept.foreseen value

theorem assignment (kept : ReportInvariant invariant) (assignment : Assignment) :
    Keeps invariant assignment.check := by
  rw [Assignment.check_form]
  exact (kept.useVariable _ _).bind fun target? => kept.form _ target? _

theorem returned (kept : ReportInvariant invariant) (returns : Option TypeName)
    (line : Nat) (value : Returned) : Keeps invariant (value.check returns line) := by
  cases value with
  | unknown => exact Keeps.pure _
  | nothing =>
      cases returns with
      | none => exact Keeps.pure _
      | some expected => exact kept.checkEmptyReturn expected line
  | value given =>
      refine (kept.expression given).bind fun found? => ?_
      cases returns with
      | none => exact Keeps.pure _
      | some expected => exact kept.checkReturnValue expected found? line

theorem case (kept : ReportInvariant invariant) (test : Foreseen)
    (selector? : Option TypeName) : Keeps invariant (test.checkCase selector?) := by
  cases selector? with
  | none => exact kept.foreseen test
  | some selector =>
      refine (foreseenType test).bind fun type? => ?_
      cases type? with
      | none => exact kept.foreseen test
      | some found => exact (kept.checkOperation _ _ _ _).bind fun _ => kept.foreseen test

end ReportInvariant

/-- What keeps a property while expressions, declarations and assignments are checked. -/
structure PartInvariant (standard : TreeStandard) (invariant : Analyzer → Prop) : Prop
    extends ReportInvariant invariant where
  declare (type : TypeName) {name : Token} (line : Nat) : standard.name name →
    Analysis.Keeps invariant (Analysis.declareVariable type name.value line)
  setValue (name value : String) : Analysis.Keeps invariant (Analysis.setValue name value)

namespace PartInvariant

open Analysis

variable {standard : TreeStandard} {invariant : Analyzer → Prop}

theorem initializerValue (kept : PartInvariant standard invariant) (name : Token)
    (declared : Bool) (initializer : Initializer) :
    Keeps invariant (initializer.checkValue name declared) := by
  apply Keeps.ite
  · cases initializer.constant with
    | none => exact kept.foreseen _
    | some constant => exact (kept.setValue _ _).bind fun _ => kept.foreseen _
  · exact kept.foreseen _

theorem initializer (kept : PartInvariant standard invariant) (type : TypeName) (name : Token)
    (declared : Bool) (initializer : Initializer) :
    Keeps invariant (initializer.check type name declared) := by
  have value := kept.initializerValue name declared initializer
  refine (ReportInvariant.foreseenType initializer.value).bind fun type? => ?_
  cases type? with
  | none => exact value
  | some found => exact (kept.checkAssignment _ _ _).bind fun _ => value

theorem declaration (kept : PartInvariant standard invariant) (declaration : Declaration)
    (meets : declaration.Meets standard) : Keeps invariant declaration.check := by
  obtain ⟨type, name, initializer⟩ := declaration
  have declares := kept.declare type name.line meets.1
  cases initializer with
  | none => exact declares.bind fun _ => Keeps.pure _
  | some initializer =>
      rw [Declaration.check_some]
      exact declares.bind fun _ => kept.initializer _ _ _ _

theorem loopStart (kept : PartInvariant standard invariant) (start : LoopStart)
    (meets : start.Meets standard) : Keeps invariant start.check := by
  cases start with
  | nothing => exact Keeps.pure _
  | declare declaration => exact kept.declaration declaration meets
  | assign assignment => exact kept.assignment assignment

theorem parameters (kept : PartInvariant standard invariant)
    (parameters : List (TypeName × Token))
    (names : ∀ parameter ∈ parameters, standard.name parameter.2) :
    Analysis.Keeps invariant (Method.declareParameters parameters) := by
  induction parameters with
  | nil => exact Analysis.Keeps.pure _
  | cons parameter rest ih =>
      exact (kept.declare _ _ (names parameter List.mem_cons_self)).bind fun _ =>
        ih fun other member => names other (List.mem_cons_of_mem _ member)

end PartInvariant

/-- What carries a property on while statements are checked, where a switch declares its
hidden variable. -/
structure StatementInvariant (standard : TreeStandard) (invariant : List Nat → Analyzer → Prop) :
    Prop where
  parts (seen : List Nat) : PartInvariant standard (invariant seen)
  select (type : TypeName) (line number : Nat) :
    Analysis.Carries invariant [number]
      (Analysis.declareVariable type (selectorName number) line)

namespace StatementInvariant

open Analysis

variable {standard : TreeStandard} {invariant : List Nat → Analyzer → Prop}

theorem selector (kept : StatementInvariant standard invariant) (value : Foreseen)
    (line number : Nat) : Carries invariant [number] (value.checkSelector line number) :=
  .behind (fun _ => ReportInvariant.foreseenType value) fun _ =>
    .behind (fun seen => (kept.parts seen).foreseen value) fun _ =>
      .before (kept.select _ line number) fun _ _ => Keeps.pure _

mutual

/-- Checking a statement carries the property on. -/
theorem statement (kept : StatementInvariant standard invariant) (returns : Option TypeName)
    (breakable : Bool) (statement : Statement) (meets : statement.Meets standard) :
    Carries invariant statement.switches (statement.check returns breakable) := by
  cases statement with
  | skipped =>
      rw [Statement.check]
      exact .pure _
  | declare declaration =>
      rw [Statement.check]
      exact .of_keeps fun seen => (kept.parts seen).declaration declaration meets
  | assign assignment =>
      rw [Statement.check]
      exact .of_keeps fun seen => (kept.parts seen).assignment assignment
  | call callee arguments =>
      rw [Statement.check]
      exact .of_keeps fun seen => ((kept.parts seen).expression _).bind fun _ => Keeps.pure _
  | print endsLine value =>
      rw [Statement.check_print]
      exact .of_keeps fun seen => Keeps.optionally (fun expression =>
        ((kept.parts seen).expression expression).bind fun _ => Keeps.pure _) value
  | read target =>
      rw [Statement.check]
      exact .of_keeps fun seen => ((kept.parts seen).useVariable _ _).bind fun _ => Keeps.pure _
  | leave line =>
      rw [Statement.check]
      exact .of_keeps fun seen => (kept.parts seen).reportIf _ _
  | giveBack line value =>
      rw [Statement.check]
      exact .of_keeps fun seen => (kept.parts seen).returned returns line value
  | evaluate value =>
      rw [Statement.check]
      exact .of_keeps fun seen => ((kept.parts seen).expression value).bind fun _ => Keeps.pure _
  | block body =>
      rw [Statement.check]
      exact kept.statements returns breakable body meets
  | whileLoop condition body =>
      rw [Statement.check]
      exact .behind (fun seen => (kept.parts seen).condition condition _) fun _ =>
        kept.statement returns true body meets.2
  | ifThen condition yes =>
      rw [Statement.check]
      exact .behind (fun seen => (kept.parts seen).condition condition _) fun _ =>
        kept.statement returns breakable yes meets.2
  | ifElse condition yes no =>
      rw [Statement.check]
      exact .behind (fun seen => (kept.parts seen).condition condition _) fun _ =>
        (kept.statement returns breakable yes meets.2.1).bind fun _ =>
          kept.statement returns breakable no meets.2.2
  | doWhile body condition =>
      have inside : body.Meets standard := by
        cases condition with
        | none => exact meets.2
        | some condition => exact meets.1
      rw [Statement.check_doWhile]
      exact (kept.statement returns true body inside).before fun _ seen =>
        Keeps.optionally ((kept.parts seen).condition · _) condition
  | forLoop start condition step body =>
      rw [Statement.check_forLoop]
      refine .behind (fun seen => (kept.parts seen).loopStart start meets.1) fun _ => ?_
      refine .behind (fun seen => Keeps.optionally ((kept.parts seen).condition · _) condition)
        fun _ => ?_
      exact .behind (fun seen => Keeps.optionally (kept.parts seen).assignment step) fun _ =>
        kept.statement returns true body meets.2.2.2
  | switch line number value clauses =>
      rw [Statement.check]
      exact (kept.selector value line number).bind fun selector? =>
        kept.clauses returns selector? clauses meets.2
  | switchHead line number value =>
      rw [Statement.check]
      exact (kept.selector value line number).before fun _ _ => Keeps.pure _

theorem statements (kept : StatementInvariant standard invariant) (returns : Option TypeName)
    (breakable : Bool) (statements : List Statement)
    (meets : Statement.AllMeet standard statements) :
    Carries invariant (Statement.allSwitches statements)
      (Statement.checkAll returns breakable statements) := by
  cases statements with
  | nil =>
      rw [Statement.checkAll]
      exact .pure _
  | cons statement rest =>
      rw [Statement.checkAll]
      exact (kept.statement returns breakable statement meets.1).bind fun _ =>
        kept.statements returns breakable rest meets.2

theorem clauses (kept : StatementInvariant standard invariant)
    (returns selector? : Option TypeName) (clauses : List Clause)
    (meets : Clause.AllMeet standard clauses) :
    Carries invariant (Clause.allSwitches clauses)
      (Clause.checkAll returns selector? clauses) := by
  cases clauses with
  | nil =>
      rw [Clause.checkAll]
      exact .pure _
  | cons clause rest =>
      rw [Clause.checkAll]
      exact (kept.clause returns selector? clause meets.1).bind fun _ =>
        kept.clauses returns selector? rest meets.2

theorem clause (kept : StatementInvariant standard invariant)
    (returns selector? : Option TypeName) (clause : Clause) (meets : clause.Meets standard) :
    Carries invariant clause.switches (clause.check returns selector?) := by
  obtain ⟨test, body⟩ := clause
  rw [Clause.check_clause]
  exact .behind (fun seen => Keeps.optionally ((kept.parts seen).case · selector?) test)
    fun _ => kept.statements returns true body meets.2

end

end StatementInvariant

/-- What carries a property on while methods are declared and checked. -/
structure ProgramInvariant (standard : TreeStandard) (invariant : List Nat → Analyzer → Prop) :
    Prop extends StatementInvariant standard invariant where
  declareMethod (signature : Signature) (line : Nat) (seen : List Nat) :
    Analysis.Keeps (invariant seen) (Analysis.declareMethod signature line)
  enter {name : Token} : standard.name name → ∀ seen,
    Analysis.Keeps (invariant seen) (Analysis.enter name.value)
  exit (seen : List Nat) : Analysis.Keeps (invariant seen) Analysis.exit

namespace ProgramInvariant

open Analysis

variable {standard : TreeStandard} {invariant : List Nat → Analyzer → Prop}

theorem method (kept : ProgramInvariant standard invariant) (method : Method)
    (meets : method.Meets standard) :
    Carries invariant (Statement.allSwitches method.body) method.check :=
  .behind (kept.declareMethod _ _) fun _ => .behind (kept.enter meets.1) fun _ =>
    .behind (fun seen => (kept.parts seen).parameters _ meets.2.1) fun _ =>
      (kept.statements _ false method.body meets.2.2).before fun _ => kept.exit

theorem members (kept : ProgramInvariant standard invariant) (members : List Member)
    (meets : ∀ member ∈ members, member.Meets standard) :
    Carries invariant (members.flatMap Member.switches) (Member.checkAll members) := by
  induction members with
  | nil => exact .pure _
  | cons member rest ih =>
      have first := meets member List.mem_cons_self
      have later := ih fun other listed => meets other (List.mem_cons_of_mem _ listed)
      cases member with
      | skipped => exact (Carries.pure _).bind fun _ => later
      | field declaration =>
          exact .behind (fun seen => (kept.parts seen).declaration declaration first) fun _ => later
      | method declared => exact (kept.method declared first).bind fun _ => later

/-- Checking a program carries the property on. -/
theorem program (kept : ProgramInvariant standard invariant) (program : Program)
    (meets : program.Meets standard) : Carries invariant program.switches program.check := by
  cases program with
  | statements body => exact kept.statements none false body meets
  | members all => exact kept.members all meets

end ProgramInvariant

/-- What keeps a property that does not speak of switches while statements are checked. -/
structure CheckInvariant (standard : TreeStandard) (invariant : Analyzer → Prop) : Prop
    extends PartInvariant standard invariant where
  select (type : TypeName) (line number : Nat) :
    Analysis.Keeps invariant (Analysis.declareVariable type (selectorName number) line)

namespace CheckInvariant

open Analysis

variable {standard : TreeStandard} {invariant : Analyzer → Prop}

theorem uncounted (kept : CheckInvariant standard invariant) :
    StatementInvariant standard fun _ => invariant where
  parts _ := kept.toPartInvariant
  select type line number _ := kept.select type line number

theorem selector (kept : CheckInvariant standard invariant) (value : Foreseen)
    (line number : Nat) : Keeps invariant (value.checkSelector line number) :=
  kept.uncounted.selector value line number []

theorem statement (kept : CheckInvariant standard invariant) (returns : Option TypeName)
    (breakable : Bool) (statement : Statement) (meets : statement.Meets standard) :
    Keeps invariant (statement.check returns breakable) :=
  kept.uncounted.statement returns breakable statement meets []

theorem statements (kept : CheckInvariant standard invariant) (returns : Option TypeName)
    (breakable : Bool) (statements : List Statement)
    (meets : Statement.AllMeet standard statements) :
    Keeps invariant (Statement.checkAll returns breakable statements) :=
  kept.uncounted.statements returns breakable statements meets []

theorem clauses (kept : CheckInvariant standard invariant) (returns selector? : Option TypeName)
    (clauses : List Clause) (meets : Clause.AllMeet standard clauses) :
    Keeps invariant (Clause.checkAll returns selector? clauses) :=
  kept.uncounted.clauses returns selector? clauses meets []

theorem clause (kept : CheckInvariant standard invariant) (returns selector? : Option TypeName)
    (clause : Clause) (meets : clause.Meets standard) :
    Keeps invariant (clause.check returns selector?) :=
  kept.uncounted.clause returns selector? clause meets []

end CheckInvariant

end StackLang
