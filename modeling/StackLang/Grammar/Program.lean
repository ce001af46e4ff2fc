import StackLang.Grammar.Statement

/-!
# Reading programs

A program is a list of statements, with or without braces, or a class of fields
and methods.  Whatever the tokens are, reading goes on to the end of the input
or complains about the first token that is left.
-/

namespace StackLang

namespace Reading

/-- Skip to the next parameter or to the end of the parameters, and tell whether
there is one. -/
def skipParameter : Reading Bool := do
  let stop := Terminal.anyAccepts [.word ",", .word ")"]
  skipTo stop
  return stop (← peek)

/-- Read a parameter.  The second part of the result tells whether the list of
parameters can go on. -/
def parameter (complaint : Complaint) : Reading (Option (TypeName × Token) × Bool) := do
  let type ← typeName
  match ← identifier? with
  | none =>
      complain complaint
      return (none, ← skipParameter)
  | some name => return (type.map fun type => (type, name), true)

/-- Read the parameter behind a comma, if there is a comma and `goOn` holds. -/
def nextParameter (goOn : Bool) : Reading (Option (Option (TypeName × Token) × Bool)) := do
  if !goOn then return none
  if !(← accept ",") then return none
  if ← seesType then return some (← parameter .parameterName)
  complain .parameterType
  return some (none, ← skipParameter)

/-- Put the next parameter, if there is one, in front of those read so far. -/
def extendParameters? (found : List (Option (TypeName × Token)) × Bool) :
    Reading (Option (List (Option (TypeName × Token)) × Bool)) := do
  match ← nextParameter found.2 with
  | none => return none
  | some (parameter, goOn) => return some (parameter :: found.1, goOn)

/-- Read the parameters behind commas, as long as the list can go on. -/
def moreParameters (first : Option (TypeName × Token) × Bool) :
    Reading (List (Option (TypeName × Token))) := do
  return (← refine extendParameters? ([first.1], first.2)).1.reverse

/-- Read the parameters of a method, without the parentheses. -/
def parameters : Reading (List (TypeName × Token)) :=
  rule .parameters do
    if ← sees ")" then return []
    if !(← expect .parameters .parameterStart) then return []
    return (← moreParameters (← parameter .firstParameterName)).filterMap id

/-- Skip to the end of a method. -/
def abandonMethod (complaint : Complaint) : Reading Unit :=
  abandon complaint Nonterminal.method.endsBefore

/-- Read the closing parenthesis of the parameters, or skip to the body, and tell
whether the body can be read. -/
def closeParameters : Reading Bool := do
  if ← accept ")" then return true
  abandon .methodClose fun next =>
    (Terminal.word "\x7b").accepts next || Nonterminal.method.endsBefore next
  sees "\x7b"

/-- Read the body of a method, from the closing parenthesis on. -/
def methodBody : Reading (List Statement) := do
  if !(← closeParameters) then return []
  if ← accept "\x7b" then
    let statements ← body
    demand "\x7d" (abandonMethod .methodEnd)
    return statements
  abandonMethod .methodBrace
  return []

/-- Read a method; its type, its name and the opening parenthesis are next. -/
def method : Reading (Option Method) :=
  rule .method do
    let some returnType ← typeName | return none
    let some name ← identifier? | return none
    let _ ← accept "("
    let parameters ← parameters
    return some ⟨returnType, name, parameters, ← methodBody⟩

/-- Whether a method is next: a type, a name and a parenthesis. -/
def seesMethod : Reading Bool := do
  match (← get).rest with
  | type :: name :: parenthesis :: _ =>
      return Nonterminal.type.startsWith (some type) && name.isIdentifier &&
        parenthesis.spells "("
  | _ => return false

/-- Skip to the next member or to the end of the class. -/
def skipMember (complaint : Complaint) : Reading Unit :=
  abandon complaint fun next =>
    Nonterminal.type.startsWith next || (Terminal.word "\x7d").accepts next

/-- Read a member of a class; there is none at the end of the class. -/
def member? : Reading (Option Member) := do
  if (← atEnd) || (← sees "\x7d") then return none
  if !(← seesType) then
    skipMember .classMember
    return some .skipped
  if ← seesMethod then return some (((← method).map Member.method).getD .skipped)
  let declaration ← declaration
  demand ";" (skipMember .variableEnd)
  return some ((declaration.map Member.field).getD .skipped)

/-- Read the name of a class, or skip to where its members may start, and tell
whether they can be read. -/
def className : Reading Bool := do
  if (← identifier?).isSome then return true
  recover .block .className

/-- Read a class; its keyword has been read. -/
def classOf : Reading (List Member) := do
  if !(← className) then return []
  if !(← accept "\x7b") then
    complain .classBrace
    return []
  let members ← collect member?
  demand "\x7d" (complain .programEnd)
  return members

/-- Whether a program can start here, if need be after skipping. -/
def seesProgram : Reading Bool := do
  if ← atEnd then return true
  if ← seesAny (.word "class" :: openers) then return true
  expect .program .programStart

/-- Read a program, up to tokens that it has no place for. -/
def program : Reading Program :=
  rule .program do
    if !(← seesProgram) then return .statements []
    if ← accept "\x7b" then
      let statements ← body
      demand "\x7d" (abandon .programEnd fun _ => false)
      return .statements statements
    if ← accept "class" then return .members (← classOf)
    return .statements (← body)

/-- Complain about the first token that is left. -/
def checkEnd : Reading Unit := do
  if !(← atEnd) then complain .trailingTokens

/-- Read a program, and complain about the first token that is left. -/
def wholeProgram : Reading Program := do
  let result ← program
  checkEnd
  return result

end Reading

/-- What reading a list of tokens gives: the tree, the trace and the syntax
errors. -/
structure Reading.Outcome where
  program : Program
  trace : Array TraceLine
  errors : Array SyntaxError

/-- Read a list of tokens as a program. -/
def Program.ofTokens (tokens : List Token) : Reading.Outcome :=
  let (program, cursor) := Reading.wholeProgram.run (.initial tokens)
  ⟨program, cursor.trace, cursor.errors⟩

end StackLang
