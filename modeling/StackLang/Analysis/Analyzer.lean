import StackLang.Analysis.SemanticError
import StackLang.Symbol.Method
import StackLang.Symbol.Table
import StackLang.Typing.Compatibility

/-!
# The analyzer

The analyzer keeps the scopes that are open, the declared variables and methods
and the errors found so far.  A check records what is wrong and answers with its
best guess, so that analysis always goes on.  The global scope lies below all
open scopes and is never left.
-/

namespace StackLang

/-- What is known about a program while it is being checked. -/
structure Analyzer where
  /-- The scopes opened inside the global one, the innermost first. -/
  scopes : List String
  symbols : SymbolTable
  methods : MethodTable
  errors : Array SemanticError
  deriving Inhabited

/-- A computation that reads and extends what the analyzer knows. -/
abbrev Analysis := StateM Analyzer

namespace Analyzer

/-- The analyzer before anything is declared. -/
def initial : Analyzer := ⟨[], .empty, .empty, #[]⟩

/-- The scope that declarations go to. -/
def scope (analyzer : Analyzer) : String := analyzer.scopes.head?.getD globalScope

/-- The type of a variable that is visible from the current scope: its own
variable, or else a global one. -/
def lookup? (analyzer : Analyzer) (name : String) : Option TypeName :=
  ((analyzer.symbols.get? analyzer.scope name).or
    (analyzer.symbols.get? globalScope name)).map Symbol.type

/-- The signature of a declared method. -/
def method? (analyzer : Analyzer) (name : String) : Option Signature := analyzer.methods.get? name

end Analyzer

namespace Analysis

/-- Open a scope. -/
def enter (scope : String) : Analysis Unit :=
  modify fun analyzer => { analyzer with scopes := scope :: analyzer.scopes }

/-- Leave the current scope; the global scope is never left. -/
def exit : Analysis Unit :=
  modify fun analyzer => { analyzer with scopes := analyzer.scopes.tail }

/-- Record an error. -/
def report (error : SemanticError) : Analysis Unit :=
  modify fun analyzer => { analyzer with errors := analyzer.errors.push error }

/-- Declare a variable in the current scope, and tell whether its name was free. -/
def declareVariable (type : TypeName) (name : String) (line : Nat) : Analysis Bool := do
  let analyzer ← get
  match analyzer.symbols.insert? (.fresh name type analyzer.scope) with
  | some symbols =>
      set { analyzer with symbols := symbols }
      return true
  | none =>
      report (.alreadyDeclared name analyzer.scope line)
      return false

/-- The type of a variable that is read or written. -/
def useVariable (name : String) (line : Nat) : Analysis (Option TypeName) := do
  let found := (← get).lookup? name
  if found.isNone then report (.undeclared name line)
  return found

/-- The type of an operation on operands of known types. -/
def checkOperation (left right : TypeName) (operator : Operator) (line : Nat) :
    Analysis (Option TypeName) := do
  let result := operator.result? left right
  if result.isNone then report (.incompatibleTypes left right operator line)
  return result

/-- Whether a value of a type can be assigned to a target. -/
def checkAssignment (target value : TypeName) (line : Nat) : Analysis Bool :=
  return (← checkOperation target value .assign line).isSome

/-- Whether the condition of a construct is boolean. -/
def checkBoolean (found : TypeName) (context : String) (line : Nat) : Analysis Bool := do
  if found = .boolean then return true
  report (.nonBooleanCondition context found line)
  return false

/-- Declare a method, and tell whether its name was free. -/
def declareMethod (signature : Signature) (line : Nat) : Analysis Bool := do
  let analyzer ← get
  match analyzer.methods.insert? signature with
  | some methods =>
      set { analyzer with methods := methods }
      return true
  | none =>
      report (.methodAlreadyDeclared signature.name line)
      return false

/-- Check arguments against parameters, counted from `index` on.  An argument of
unknown type is not checked. -/
def checkArguments (name : String) (line : Nat) :
    Nat → List (TypeName × String) → List (Option TypeName) → Analysis Unit
  | index, (expected, _) :: parameters, found? :: arguments => do
      if let some found := found? then
        if (Operator.assign.result? expected found).isNone then
          report (.argumentMismatch name index expected found line)
      checkArguments name line (index + 1) parameters arguments
  | _, _, _ => return ()

/-- The return type of a call with arguments of the given types. -/
def checkCall (name : String) (arguments : List (Option TypeName)) (line : Nat) :
    Analysis (Option TypeName) := do
  match (← get).method? name with
  | none =>
      report (.methodUndeclared name line)
      return none
  | some method =>
      if arguments.length ≠ method.parameters.length then
        report (.arityMismatch method.name method.parameters.length arguments.length line)
      else
        checkArguments method.name line 1 method.parameters arguments
      return some method.returnType

/-- Check the value returned from a method, whose type may be unknown. -/
def checkReturnValue (expected : TypeName) (found? : Option TypeName) (line : Nat) :
    Analysis Unit := do
  if expected = .void then report (.voidReturnsValue line)
  else if let some found := found? then
    if (Operator.assign.result? expected found).isNone then
      report (.returnMismatch expected found line)

/-- Check a return without a value. -/
def checkEmptyReturn (expected : TypeName) (line : Nat) : Analysis Unit := do
  if expected ≠ .void then report (.missingReturnValue expected line)

/-- Record the literal that a variable of the current scope starts with. -/
def setValue (name value : String) : Analysis Unit :=
  modify fun analyzer =>
    { analyzer with
      symbols := (analyzer.symbols.setValue? analyzer.scope name value).getD analyzer.symbols }

end Analysis

end StackLang
