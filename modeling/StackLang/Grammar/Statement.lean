import StackLang.Grammar.Expression

/-!
# Reading statements

Readers for declarations, assignments, the simple statements and the control
constructs.  A statement that misses its end costs one complaint: reading resumes
behind the next semicolon, or in front of a token that clearly starts a
statement or ends the list of statements.  Like for expressions, the readers of
nested statements are parameters and `Reading.statementFor` ties the knot for a
bounded depth of nesting.
-/

namespace StackLang

/-- The operators of an assignment. -/
inductive AssignmentOperator where
  | store
  | add
  | sub
  | mul
  | div
  | increment
  | decrement
  deriving DecidableEq, Repr

namespace AssignmentOperator

/-- The spelling of an assignment operator. -/
def symbol : AssignmentOperator → String
  | .store => "="
  | .add => "+="
  | .sub => "-="
  | .mul => "*="
  | .div => "/="
  | .increment => "++"
  | .decrement => "--"

/-- Every assignment operator. -/
def all : List AssignmentOperator := [.store, .add, .sub, .mul, .div, .increment, .decrement]

/-- The arithmetic that combines the target with the value. -/
def arithmetic? : AssignmentOperator → Option BinaryOperator
  | .store => none
  | .add | .increment => some .add
  | .sub | .decrement => some .sub
  | .mul => some .mul
  | .div => some .div

/-- The step of an operator that takes no value. -/
def step? : AssignmentOperator → Option BinaryOperator
  | .increment => some .add
  | .decrement => some .sub
  | _ => none

/-- The assignment operator that a token spells. -/
def ofToken? (token : Token) : Option AssignmentOperator :=
  all.find? fun operator => token.spells operator.symbol

end AssignmentOperator

/-- The complaints of a condition in parentheses, and what it is called. -/
structure ConditionForm where
  opening : Complaint
  missing : Complaint
  closing : Complaint

namespace Reading

/-- The tokens that clearly start a statement. -/
def openers : List Terminal :=
  Nonterminal.words Nonterminal.typeWords ++ .identifier ::
    Nonterminal.words ["println", "print", "inputln", "return", "while", "if", "do", "for",
      "switch", "break", "\x7b"]

/-- Whether the next token ends a list of statements. -/
def endsBody (next : Option Token) : Bool := Nonterminal.body.endsBefore next

/-- Skip to the next semicolon or to a token that `stop` holds of, and read the
semicolon. -/
def resume (stop : Option Token → Bool) : Reading Unit := do
  skipTo fun next => (Terminal.word ";").accepts next || stop next
  if ← sees ";" then
    skip
    log .resumed

/-- Read the semicolon at the end of a statement, or resume after a complaint. -/
def terminate (complaint : Complaint) : Reading Unit :=
  demand ";" do
    complain complaint
    resume fun next => Terminal.anyAccepts openers next || endsBody next

/-- Read the name of a type. -/
def typeName : Reading (Option TypeName) :=
  rule .type do
    match ← peek with
    | none => return none
    | some token =>
        let type := TypeName.ofText? token.value
        let _ ← take fun token => .symbol token.value
        return type

/-- The literal that makes up the whole initializer. -/
def constant? : Reading (Option Token) := do
  match ← peek with
  | some token => return if token.isLiteral && (← seesSecond ";") then some token else none
  | none => return none

/-- Read the declaration of a variable; the name of its type is next. -/
def declaration : Reading (Option Declaration) :=
  rule .variable do
    let some type ← typeName | return none
    let some name ← identifier?
      | abandon .variableName fun next => Nonterminal.variable.endsBefore next || endsBody next
        return none
    if !(← accept "=") then return some ⟨type, name, none⟩
    if ← seesStart .expression then
      let constant ← constant?
      return some ⟨type, name, some ⟨constant, ← foreseen⟩⟩
    abandon .initializer fun next => Nonterminal.variable.endsBefore next || endsBody next
    return some ⟨type, name, none⟩

/-- Give up an assignment. -/
def abandonAssignment (target : Token) (complaint : Complaint) : Reading (Option Assignment) := do
  abandon complaint fun next =>
    Nonterminal.assignment.endsBefore next || (Terminal.word ")").accepts next
  return some ⟨target, .unfinished⟩

/-- Read an assignment; the name of its target is next. -/
def assignment : Reading (Option Assignment) :=
  rule .assignment do
    let some target ← identifier? | return none
    match (← peek).bind AssignmentOperator.ofToken? with
    | none => abandonAssignment target .assignmentOperator
    | some operator =>
        skip
        log (.symbol operator.symbol)
        match operator.step? with
        | some step => return some ⟨target, .step step⟩
        | none =>
            if ← seesStart .expression then
              return some ⟨target, .store operator.arithmetic? (← foreseen)⟩
            abandonAssignment target .assignedValue

/-- Read something unless the symbol is next. -/
def unlessSees (symbol : String) (reader : Reading α) : Reading (Option α) := do
  if ← sees symbol then return none else return some (← reader)

/-- Read `print` or `println` with its argument. -/
def print : Reading Statement :=
  rule .print do
    let some keyword ← take fun token => .symbol token.value | return .skipped
    if !(← accept "(") then
      abandon .printOpen Nonterminal.print.endsBefore
      return .skipped
    let value ← unlessSees ")" expression
    demand ")" (abandon .printClose Nonterminal.print.endsBefore)
    return .print (keyword.spells "println") value

/-- Read `inputln` with the name of its target. -/
def read : Reading Statement :=
  rule .read do
    keyword "inputln"
    if !(← accept "(") then
      abandon .readOpen Nonterminal.read.endsBefore
      return .skipped
    let some target ← identifier?
      | abandon .readTarget Nonterminal.read.endsBefore
        return .skipped
    demand ")" (abandon .readClose Nonterminal.read.endsBefore)
    return .read target

/-- Read a break statement. -/
def leave : Reading Statement := do
  let line ← line
  keyword "break"
  terminate .breakEnd
  return .leave line

/-- Read what a return statement gives back. -/
def returned : Reading Returned := do
  if ← sees ";" then return .nothing
  if ← seesStart .expression then return .value (← expression)
  abandon .returnValue fun next =>
    (Terminal.word ";").accepts next || Nonterminal.giveBack.endsBefore next
  return .unknown

/-- Read a return statement. -/
def giveBack : Reading Statement :=
  rule .giveBack do
    let line ← line
    keyword "return"
    let value ← returned
    terminate .returnEnd
    return .giveBack line value

/-- Read a condition in parentheses. -/
def condition (form : ConditionForm) : Reading Foreseen := do
  demand "(" (complain form.opening)
  let value ← demandForeseen do
    abandon form.missing fun next =>
      Terminal.anyAccepts [.word ")", .word "\x7b"] next || endsBody next
  demand ")" do
    abandon form.closing fun next =>
      Terminal.anyAccepts [.word ")", .word "\x7b", .word ";"] next || endsBody next
    let _ ← accept ")"
  return value

/-- Read a while loop. -/
def whileLoop (block : Reading Statement) : Reading Statement :=
  rule .whileLoop do
    keyword "while"
    let condition ← condition ⟨.whileOpen, .whileCondition, .whileClose⟩
    return .whileLoop condition (← block)

/-- Read a choice. -/
def choice (block : Reading Statement) : Reading Statement :=
  rule .choice do
    keyword "if"
    let condition ← condition ⟨.choiceOpen, .choiceCondition, .choiceClose⟩
    let yes ← block
    if ← accept "else" then return .ifElse condition yes (← block)
    return .ifThen condition yes

/-- Read the keyword behind the body of a do-while loop, or skip to the condition,
and tell whether the condition can be read. -/
def repeatKeyword : Reading Bool := do
  if ← accept "while" then return true
  abandon .doWhileKeyword fun next =>
    (Terminal.word "(").accepts next || Nonterminal.doWhile.endsBefore next
  sees "("

/-- Read a do-while loop. -/
def doWhile (block : Reading Statement) : Reading Statement :=
  rule .doWhile do
    keyword "do"
    let body ← block
    if !(← repeatKeyword) then return .doWhile body none
    let condition ← condition ⟨.doWhileOpen, .doWhileCondition, .doWhileClose⟩
    terminate .doWhileEnd
    return .doWhile body (some condition)

/-- Read a semicolon of a loop header. -/
def headerSeparator (complaint : Complaint) : Reading Unit := do
  demand ";" do
    abandon complaint (Terminal.anyAccepts [.word ";", .word ")", .word "\x7b"])
    let _ ← accept ";"

/-- Read what a loop header does first. -/
def loopStart : Reading LoopStart := do
  if ← seesType then
    return ((← declaration).map LoopStart.declare).getD .nothing
  if ← seesIdentifier then
    return ((← assignment).map LoopStart.assign).getD .nothing
  return .nothing

/-- Read to a closing parenthesis after which a block can start. -/
def closeHeader (complaint : Complaint) : Reading Unit := do
  demand ")" do
    abandon complaint fun next =>
      Terminal.anyAccepts [.word ")", .word "\x7b"] next || endsBody next
    let _ ← accept ")"

/-- Read what a loop does after each round, if there is something. -/
def loopStep : Reading (Option Assignment) := do
  if ← seesIdentifier then assignment else return none

/-- Read a for loop. -/
def forLoop (block : Reading Statement) : Reading Statement :=
  rule .forLoop do
    keyword "for"
    demand "(" (complain .forOpen)
    let start ← loopStart
    headerSeparator .forInitEnd
    let condition ← unlessSees ";" foreseen
    headerSeparator .forConditionEnd
    let step ← loopStep
    closeHeader .forClose
    return .forLoop start condition step (← block)

/-- Read the value that a case compares with. -/
def caseValue : Reading (Option Foreseen) := do
  if ← seesStart .expression then return some (← foreseen)
  abandon .caseValue fun next => (Terminal.word ":").accepts next || endsBody next
  return none

/-- Read a clause of a switch from its colon on. -/
def clauseFrom (body : Reading (List Statement)) (test : Option Foreseen) : Reading Clause := do
  demand ":" (complain .clauseColon)
  return .clause test (← body)

/-- Read a clause of a switch.  The result is none at the end of the clauses,
and holds no clause if tokens had to be skipped to the next one. -/
def clause? (body : Reading (List Statement)) : Reading (Option (Option Clause)) := do
  let isCase ← sees "case"
  if isCase || (← sees "default") then
    skip
    log (.symbol (if isCase then "case" else "default"))
    let test ← if isCase then caseValue else pure none
    return some (some (← clauseFrom body test))
  if (← atEnd) || (← sees "\x7d") then return none
  abandon .clauseKeyword (Terminal.anyAccepts [.word "case", .word "default", .word "\x7d"])
  return some none

/-- Count a switch, and tell its number. -/
def countSwitch : Reading Nat := do
  let number := (← get).switches + 1
  modify fun cursor => { cursor with switches := number }
  return number

/-- Read a switch. -/
def switch (body : Reading (List Statement)) : Reading Statement :=
  rule .switch do
    let line ← line
    keyword "switch"
    demand "(" (complain .switchOpen)
    let value ← demandForeseen (complain .switchValue)
    closeHeader .switchClose
    let number ← countSwitch
    if !(← accept "\x7b") then
      abandon .switchBrace Nonterminal.switch.endsBefore
      return .switchHead line number value
    let clauses ← collect (clause? body)
    demand "\x7d" (complain .switchEnd)
    return .switch line number value (clauses.filterMap id)

/-- Step over the next token unless fewer than `size` tokens are left. -/
def skipUnlessBelow (size : Nat) : Reading Unit := do
  if (← get).rest.length = size then skip

/-- Read the next statement of a list with the given reader, unless the list ends.
A statement at which nothing can be read loses its first token. -/
def nextStatement (statement : Reading Statement) : Reading (Option Statement) := do
  if (← atEnd) || (← seesAny [.word "\x7d", .word "case", .word "default"]) then return none
  let before := (← get).rest.length
  let result ← statement
  skipUnlessBelow before
  return some result

/-- Read a list of statements with the given reader. -/
def bodyOf (statement : Reading Statement) : Reading (List Statement) :=
  rule .body (collect (nextStatement statement))

/-- Read a block, or a single statement in its place. -/
def blockOf (statement : Reading Statement) : Reading Statement :=
  rule .block do
    if !(← expect .block .blockStart) then return .skipped
    if ← accept "\x7b" then
      let body ← bodyOf statement
      demand "\x7d" (complain .blockEnd)
      return .block body
    statement

/-- Read a simple statement with its semicolon. -/
def terminated (complaint : Complaint) (statement : Reading Statement) : Reading Statement := do
  let result ← statement
  terminate complaint
  return result

/-- Read an expression used as a statement. -/
def evaluation : Reading Statement := terminated .expressionEnd (.evaluate <$> expression)

/-- Read a statement that starts with a name. -/
def named : Reading Statement := do
  if ← seesSecond "(" then
    terminated .callEnd do
      match ← call expression with
      | some (callee, arguments) => return .call callee arguments
      | none => return .skipped
  else if ((← get).rest.tail.head?.bind AssignmentOperator.ofToken?).isSome then
    terminated .assignmentEnd do
      return ((← assignment).map Statement.assign).getD .skipped
  else evaluation

/-- Skip tokens that no statement starts with. -/
def stray : Reading Statement := do
  complain .statementStart
  resume fun next =>
    Terminal.anyAccepts openers next || Nonterminal.expression.startsWith next || endsBody next
  return .skipped

/-- Read a statement whose nested statements are read with the given reader. -/
def statementOf (statement : Reading Statement) : Reading Statement := do
  if ← seesType then
    terminated .variableEnd do
      return ((← declaration).map Statement.declare).getD .skipped
  else if ← seesIdentifier then named
  else if ← seesStart .print then terminated .printEnd print
  else if ← sees "inputln" then terminated .readEnd read
  else if ← sees "break" then leave
  else if ← sees "return" then giveBack
  else if ← sees "while" then whileLoop (blockOf statement)
  else if ← sees "if" then choice (blockOf statement)
  else if ← sees "do" then doWhile (blockOf statement)
  else if ← sees "for" then forLoop (blockOf statement)
  else if ← sees "switch" then switch (bodyOf statement)
  else if ← sees "\x7b" then blockOf statement
  else if ← seesStart .expression then evaluation
  else stray

/-- Read a statement with at most `depth` statements around one another. -/
def statementFor : Nat → Reading Statement
  | 0 => do
      getStuck
      return .skipped
  | depth + 1 => statementOf (statementFor depth)

/-- Read a list of statements. -/
def body : Reading (List Statement) := do
  bodyOf (statementFor ((← get).rest.length + 1))

end Reading

end StackLang
