import StackLang.Token.Basic

/-!
# Syntax errors

A `Complaint` is what the grammar misses at some point of a program.  A syntax
error is a complaint with the token it is about, or none at the end of input.
Reading goes on after every complaint.
-/

namespace StackLang

/-- What is missing or superfluous at some point of a program. -/
inductive Complaint where
  | programStart
  | className
  | programEnd
  | classBrace
  | classMember
  | methodClose
  | methodEnd
  | methodBrace
  | parameterStart
  | firstParameterName
  | parameterName
  | parameterType
  | variableName
  | initializer
  | variableEnd
  | assignmentOperator
  | assignedValue
  | assignmentEnd
  | argumentStart
  | argument
  | callClose
  | callEnd
  | printOpen
  | printClose
  | printEnd
  | readOpen
  | readTarget
  | readClose
  | readEnd
  | breakEnd
  | returnValue
  | returnEnd
  | whileOpen
  | whileCondition
  | whileClose
  | choiceOpen
  | choiceCondition
  | choiceClose
  | doWhileKeyword
  | doWhileOpen
  | doWhileCondition
  | doWhileClose
  | doWhileEnd
  | forOpen
  | forInitEnd
  | forConditionEnd
  | forClose
  | switchOpen
  | switchValue
  | switchClose
  | switchBrace
  | caseValue
  | clauseColon
  | clauseKeyword
  | switchEnd
  | blockStart
  | blockEnd
  | statementStart
  | expressionEnd
  | expressionStart
  | conjunctionStart
  | inversionStart
  | relationStart
  | sumStart
  | productStart
  | negationStart
  | primaryStart
  | groupClose
  | trailingTokens
  deriving DecidableEq, Repr

/-- The number of a complaint. -/
def Complaint.code : Complaint → Nat
  | .methodClose => 9
  | .methodEnd => 10
  | .methodBrace => 11
  | .firstParameterName => 13
  | .parameterName => 14
  | .parameterType => 15
  | .returnValue => 19
  | .returnEnd => 28
  | .whileOpen => 29
  | .whileClose => 30
  | .doWhileKeyword => 36
  | .doWhileOpen => 37
  | .doWhileCondition => 38
  | .doWhileClose => 39
  | .doWhileEnd => 40
  | .programStart => 200
  | .className => 201
  | .programEnd => 202
  | .classBrace => 203
  | .classMember => 204
  | .choiceOpen => 400
  | .choiceCondition => 401
  | .choiceClose => 402
  | .variableName => 501
  | .initializer => 502
  | .parameterStart => 600
  | .assignmentOperator => 601
  | .assignedValue => 602
  | .callClose => 702
  | .argumentStart => 800
  | .argument => 801
  | .whileCondition => 900
  | .trailingTokens => 999
  | .forOpen => 1001
  | .forInitEnd => 1002
  | .forConditionEnd => 1003
  | .forClose => 1004
  | .switchOpen => 1101
  | .switchValue => 1102
  | .switchClose => 1103
  | .switchBrace => 1104
  | .caseValue => 1105
  | .clauseColon => 1106
  | .clauseKeyword => 1107
  | .switchEnd => 1108
  | .blockStart => 1200
  | .blockEnd => 1201
  | .variableEnd => 1300
  | .assignmentEnd => 1301
  | .callEnd => 1302
  | .statementStart => 1303
  | .expressionEnd => 1304
  | .printEnd => 1305
  | .readEnd => 1306
  | .breakEnd => 1307
  | .expressionStart => 1400
  | .conjunctionStart => 1410
  | .inversionStart => 1420
  | .relationStart => 1430
  | .sumStart => 1440
  | .productStart => 1450
  | .negationStart => 1460
  | .primaryStart => 1470
  | .groupClose => 1471
  | .printOpen => 1501
  | .printClose => 1502
  | .readOpen => 1503
  | .readTarget => 1504
  | .readClose => 1505

/-- A complaint with the token it is about; none at the end of input. -/
structure SyntaxError where
  complaint : Complaint
  token? : Option Token
  deriving DecidableEq, Repr

/-- The wording of a syntax error. -/
def SyntaxError.message (error : SyntaxError) : String :=
  match error.token? with
  | some token =>
      s!"Syntax Error {error.complaint.code} at line {token.line}, token: {token.value} " ++
        s!"({token.kind.text})"
  | none => s!"Syntax Error {error.complaint.code} at end of file"

end StackLang
