import StackLang.Analysis.Inference

/-!
# Checking programs

The checks of statements, methods and programs.  An initial value, an assigned
value and a condition are judged by their preview, before the expression itself
is checked.  A variable that is declared with a single literal keeps it in the
symbol table.
-/

namespace StackLang

namespace Foreseen

/-- The type that the preview shows. -/
def type? (foreseen : Foreseen) : Analysis (Option TypeName) := do
  return foreseen.preview.bind (← get).typeOf?

/-- Check the expression itself. -/
def check (foreseen : Foreseen) : Analysis Unit := do
  let _ ← foreseen.value.check

/-- Check a condition, which must be boolean if its type can be foreseen. -/
def checkCondition (foreseen : Foreseen) (context : String) : Analysis Unit := do
  if let some found ← foreseen.type? then
    let _ ← Analysis.checkBoolean found context foreseen.line
  foreseen.check

end Foreseen

/-- Check the declaration of a variable. -/
def Declaration.check (declaration : Declaration) : Analysis Unit := do
  let name := declaration.name.value
  let line := declaration.name.line
  let declared ← Analysis.declareVariable declaration.type name line
  if let some initializer := declaration.initializer then
    if let some found ← initializer.value.type? then
      let _ ← Analysis.checkAssignment declaration.type found line
    if declared then
      if let some constant := initializer.constant then
        Analysis.setValue name constant.literalText
    initializer.value.check

/-- Check the operation of an assignment on its target. -/
def Analysis.checkStore (operator? : Option BinaryOperator) (target found : TypeName)
    (line : Nat) : Analysis Unit := do
  match operator? with
  | none =>
      let _ ← Analysis.checkAssignment target found line
  | some operator =>
      if let some result ← Analysis.checkOperation target found operator.checkedAs line then
        let _ ← Analysis.checkAssignment target result line

/-- Check an assignment. -/
def Assignment.check (assignment : Assignment) : Analysis Unit := do
  let line := assignment.target.line
  let target? ← Analysis.useVariable assignment.target.value line
  match assignment.form with
  | .unfinished => return ()
  | .step operator =>
      if let some target := target? then
        let _ ← Analysis.checkOperation target .int operator.checkedAs line
  | .store operator? value =>
      if let some target := target? then
        if let some found ← value.type? then
          Analysis.checkStore operator? target found line
      value.check

/-- Check what a loop header does first. -/
def LoopStart.check : LoopStart → Analysis Unit
  | .nothing => return ()
  | .declare declaration => declaration.check
  | .assign assignment => assignment.check

/-- Check a return statement of a method with the given return type; outside of
methods only the value itself is checked. -/
def Returned.check (returns : Option TypeName) (line : Nat) : Returned → Analysis Unit
  | .unknown => return ()
  | .nothing => do
      if let some expected := returns then Analysis.checkEmptyReturn expected line
  | .value given => do
      let found? ← given.check
      if let some expected := returns then Analysis.checkReturnValue expected found? line

/-- Declare the hidden variable of a switch, and tell the type of its value. -/
def Foreseen.checkSelector (value : Foreseen) (line number : Nat) :
    Analysis (Option TypeName) := do
  let type? ← value.type?
  value.check
  let _ ← Analysis.declareVariable (type?.getD .int) (selectorName number) line
  return type?

/-- Check the value of a case against the type of the switch. -/
def Foreseen.checkCase (test : Foreseen) (selector? : Option TypeName) : Analysis Unit := do
  if let some selector := selector? then
    if let some found ← test.type? then
      let _ ← Analysis.checkOperation selector found .equal test.line
  test.check

mutual

/-- Check a statement of a method with the given return type, inside of a loop or
switch if `breakable` holds. -/
def Statement.check (returns : Option TypeName) (breakable : Bool) : Statement → Analysis Unit
  | .skipped => return ()
  | .declare declaration => declaration.check
  | .assign assignment => assignment.check
  | .call callee arguments => do
      let _ ← (Expr.call callee arguments).check
  | .print _ value => do
      if let some expression := value then
        let _ ← expression.check
  | .read target => do
      let _ ← Analysis.useVariable target.value target.line
  | .leave line => do
      if !breakable then Analysis.report (.breakOutsideLoop line)
  | .giveBack line value => value.check returns line
  | .evaluate value => do
      let _ ← value.check
  | .block body => Statement.checkAll returns breakable body
  | .whileLoop condition body => do
      condition.checkCondition "while"
      body.check returns true
  | .ifThen condition yes => do
      condition.checkCondition "if"
      yes.check returns breakable
  | .ifElse condition yes no => do
      condition.checkCondition "if"
      yes.check returns breakable
      no.check returns breakable
  | .doWhile body condition => do
      body.check returns true
      if let some condition := condition then condition.checkCondition "do-while"
  | .forLoop start condition step body => do
      start.check
      if let some condition := condition then condition.checkCondition "for"
      if let some step := step then step.check
      body.check returns true
  | .switch line number value clauses => do
      let selector? ← value.checkSelector line number
      Clause.checkAll returns selector? clauses
  | .switchHead line number value => do
      let _ ← value.checkSelector line number

/-- Check statements one after another. -/
def Statement.checkAll (returns : Option TypeName) (breakable : Bool) :
    List Statement → Analysis Unit
  | [] => return ()
  | statement :: rest => do
      statement.check returns breakable
      Statement.checkAll returns breakable rest

/-- Check the clauses of a switch whose value has the given type. -/
def Clause.checkAll (returns selector? : Option TypeName) : List Clause → Analysis Unit
  | [] => return ()
  | clause :: rest => do
      clause.check returns selector?
      Clause.checkAll returns selector? rest

/-- Check a clause of a switch whose value has the given type. -/
def Clause.check (returns selector? : Option TypeName) : Clause → Analysis Unit
  | .clause test body => do
      if let some test := test then test.checkCase selector?
      Statement.checkAll returns true body

end

namespace Method

/-- Declare parameters in the current scope. -/
def declareParameters : List (TypeName × Token) → Analysis Unit
  | [] => return ()
  | (type, name) :: rest => do
      let _ ← Analysis.declareVariable type name.value name.line
      declareParameters rest

/-- Declare a method and check its body in a scope of its own. -/
def check (method : Method) : Analysis Unit := do
  let _ ← Analysis.declareMethod method.signature method.name.line
  Analysis.enter method.name.value
  declareParameters method.parameters
  Statement.checkAll (some method.returnType) false method.body
  Analysis.exit

end Method

/-- Check a member of a class. -/
def Member.check : Member → Analysis Unit
  | .field declaration => declaration.check
  | .method declared => declared.check
  | .skipped => return ()

/-- Check members one after another. -/
def Member.checkAll : List Member → Analysis Unit
  | [] => return ()
  | member :: rest => do
      member.check
      Member.checkAll rest

/-- Check a program. -/
def Program.check : Program → Analysis Unit
  | .statements body => Statement.checkAll none false body
  | .members all => Member.checkAll all

/-- What the analyzer knows at the end of a program. -/
def Program.analyze (program : Program) : Analyzer := (program.check.run .initial).2

end StackLang
