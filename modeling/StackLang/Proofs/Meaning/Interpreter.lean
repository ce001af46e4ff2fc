import StackLang.Code.Lowering
import StackLang.Machine.Step

/-!
# Direct interpretation of trees

The meaning of a program without code, labels or a stack.  A store holds the
variables, the input that is left and the output.  Every loop of the program
gets the same bound on its rounds, and interpretation is cut off where one
exceeds it.
-/

namespace StackLang

/-- What a program reads and changes. -/
structure Store where
  environment : Environment
  input : List String
  output : String

/-- How the interpretation of a part of a program ends. -/
inductive Progress where
  | done
  /-- A break leaves the innermost loop or switch. -/
  | left
  | faulted (fault : Fault)
  | exhausted
  deriving DecidableEq

structure Outcome where
  progress : Progress
  store : Store

namespace Outcome

/-- Go on after a part that was done. -/
def andThen (outcome : Outcome) (next : Store → Outcome) : Outcome :=
  match outcome.progress with
  | .done => next outcome.store
  | _ => outcome

/-- The end of a loop or switch, which a break leads to as well. -/
def caught (outcome : Outcome) : Outcome :=
  match outcome.progress with
  | .left => ⟨.done, outcome.store⟩
  | _ => outcome

end Outcome

/-- Rounds of a loop until one does not reach its end, and at most `bound`. -/
def repeatRounds (round : Store → Outcome) : Nat → Store → Outcome
  | 0, store => ⟨.exhausted, store⟩
  | bound + 1, store => (round store).andThen (repeatRounds round bound)

/-- The value of an operation between two operands. -/
def BinaryOperator.apply : BinaryOperator → Value → Value → Except Fault Value
  | .or, left, right => .ok (.ofFlag (left.isTruthy || right.isTruthy))
  | .and, left, right => .ok (.ofFlag (left.isTruthy && right.isTruthy))
  | .greater, left, right => MachineState.compare (fun left right => left > right) left right
  | .less, left, right => MachineState.compare (fun left right => left < right) left right
  | .greaterEqual, left, right => do
      let less ← MachineState.compare (fun left right => left < right) left right
      return .ofFlag !less.isTruthy
  | .lessEqual, left, right => do
      let greater ← MachineState.compare (fun left right => left > right) left right
      return .ofFlag !greater.isTruthy
  | .equal, left, right => .ok (.ofFlag (left.agree right))
  | .notEqual, left, right => .ok (.ofFlag !(left.agree right))
  | .add, left, right => Value.arithmetic .add left right
  | .sub, left, right => Value.arithmetic .sub left right
  | .mul, left, right => Value.arithmetic .mul left right
  | .div, left, right => Value.arithmetic .div left right

/-- The value of an expression.  A call is worth the default of its return type,
and a gap has no value. -/
def Expr.eval (methods : MethodTable) (environment : Environment) : Expr → Except Fault Value
  | .missing => .error (.malformedOperand "")
  | .literal token => .ok (.ofLiteral token.literalText)
  | .name token => environment.get token.value
  | .call callee _ => .ok (.ofLiteral (methods.callText callee.value))
  | .negate _ operand => do Value.arithmetic .sub (.int 0) (← operand.eval methods environment)
  | .invert _ operand => do return .ofFlag !(← operand.eval methods environment).isTruthy
  | .binary operator _ left right => do
      let leftValue ← left.eval methods environment
      let rightValue ← right.eval methods environment
      operator.apply leftValue rightValue

namespace Store

/-- Go on with a value, unless there is a fault. -/
def evaluate (store : Store) (value? : Except Fault Value) (next : Value → Outcome) : Outcome :=
  match value? with
  | .ok value => next value
  | .error fault => ⟨.faulted fault, store⟩

/-- Store a value into a variable. -/
def assign (store : Store) (name : String) (value : Value) : Outcome :=
  match store.environment.assign name value with
  | .ok environment => ⟨.done, { store with environment := environment }⟩
  | .error fault => ⟨.faulted fault, store⟩

/-- Take a line of input. -/
def takeLine (store : Store) : Store := { store with input := store.input.tail }

/-- The value of the next line of input; there is a zero behind the last one. -/
def nextInput (store : Store) : Value := .ofInput (store.input.head?.getD "0")

def write (store : Store) (text : String) : Store := { store with output := store.output ++ text }

end Store

variable (methods : MethodTable)

def Declaration.interpret (declaration : Declaration) (store : Store) : Outcome :=
  match declaration.initializer with
  | none => ⟨.done, store⟩
  | some initializer =>
      store.evaluate (initializer.value.value.eval methods store.environment)
        (store.assign declaration.name.value)

/-- The value that an assignment stores, if there is one. -/
def AssignmentForm.value? (target : String) :
    AssignmentForm → Option (Environment → Except Fault Value)
  | .unfinished => none
  | .step operator => some fun environment => do
      operator.apply (← environment.get target) (.int 1)
  | .store none value => some fun environment => value.value.eval methods environment
  | .store (some operator) value => some fun environment => do
      let old ← environment.get target
      operator.apply old (← value.value.eval methods environment)

def Assignment.interpret (assignment : Assignment) (store : Store) : Outcome :=
  match assignment.form.value? methods assignment.target.value with
  | none => ⟨.done, store⟩
  | some value? => store.evaluate (value? store.environment) (store.assign assignment.target.value)

def LoopStart.interpret (start : LoopStart) (store : Store) : Outcome :=
  match start with
  | .nothing => ⟨.done, store⟩
  | .declare declaration => declaration.interpret methods store
  | .assign assignment => assignment.interpret methods store

/-- Go on unless the flag of a condition is the given one. -/
def Foreseen.leaveIf (flag : String) (condition : Foreseen) (store : Store) : Outcome :=
  store.evaluate (condition.value.eval methods store.environment) fun value =>
    if value.flag = flag then ⟨.left, store⟩ else ⟨.done, store⟩

/-- Go on only if the flag of a condition is the given one. -/
def Foreseen.leaveUnless (flag : String) (condition : Foreseen) (store : Store) : Outcome :=
  store.evaluate (condition.value.eval methods store.environment) fun value =>
    if value.flag = flag then ⟨.done, store⟩ else ⟨.left, store⟩

/-- A part that may be missing. -/
def interpretOption (interpret : α → Store → Outcome) (part? : Option α) (store : Store) :
    Outcome :=
  match part? with
  | none => ⟨.done, store⟩
  | some part => interpret part store

mutual

/-- Interpret a statement.  A break has an effect only where `breakable` holds. -/
def Statement.interpret (bound : Nat) (breakable : Bool) : Statement → Store → Outcome
  | .skipped, store => ⟨.done, store⟩
  | .declare declaration, store => declaration.interpret methods store
  | .assign assignment, store => assignment.interpret methods store
  | .call _ _, store => ⟨.done, store⟩
  | .print endsLine value, store =>
      let printed := match value with
        | none => .ok (.string "")
        | some expression => expression.eval methods store.environment
      store.evaluate printed fun value =>
        ⟨.done, store.write (if endsLine then value.text ++ "\n" else value.text)⟩
  | .read target, store => store.takeLine.assign target.value store.nextInput
  | .leave _, store => ⟨if breakable then .left else .done, store⟩
  | .giveBack _ (.value given), store =>
      store.evaluate (given.eval methods store.environment) fun _ => ⟨.done, store⟩
  | .giveBack _ _, store => ⟨.done, store⟩
  | .evaluate value, store =>
      store.evaluate (value.eval methods store.environment) fun _ => ⟨.done, store⟩
  | .block body, store => Statement.interpretAll bound breakable body store
  | .whileLoop condition body, store =>
      (repeatRounds (fun store => (condition.leaveIf methods "0" store).andThen
        (body.interpret bound true)) bound store).caught
  | .ifThen condition yes, store =>
      store.evaluate (condition.value.eval methods store.environment) fun value =>
        if value.flag = "0" then ⟨.done, store⟩ else yes.interpret bound breakable store
  | .ifElse condition yes no, store =>
      store.evaluate (condition.value.eval methods store.environment) fun value =>
        if value.flag = "0" then no.interpret bound breakable store
        else yes.interpret bound breakable store
  | .doWhile body none, store => (body.interpret bound true store).caught
  | .doWhile body (some condition), store =>
      (repeatRounds (fun store => (body.interpret bound true store).andThen
        (condition.leaveUnless methods "1")) bound store).caught
  | .forLoop start condition step body, store =>
      (start.interpret methods store).andThen fun store =>
        (repeatRounds (fun store =>
          ((interpretOption (Foreseen.leaveIf methods "0") condition store).andThen
            (body.interpret bound true)).andThen
              (interpretOption (Assignment.interpret methods) step)) bound store).caught
  | .switch _ number value clauses, store =>
      store.evaluate (value.value.eval methods store.environment) fun value =>
        (store.assign (selectorName number) value).andThen fun store =>
          store.evaluate (store.environment.get (selectorName number)) fun selector =>
            (Clause.interpretFrom bound selector clauses store).caught
  | .switchHead _ number value, store =>
      store.evaluate (value.value.eval methods store.environment)
        (store.assign (selectorName number))

/-- Interpret statements one after another. -/
def Statement.interpretAll (bound : Nat) (breakable : Bool) : List Statement → Store → Outcome
  | [], store => ⟨.done, store⟩
  | statement :: rest, store =>
      (statement.interpret bound breakable store).andThen
        (Statement.interpretAll bound breakable rest)

/-- Interpret clauses from the first one on that has no test or whose value equals
the selector. -/
def Clause.interpretFrom (bound : Nat) (selector : Value) : List Clause → Store → Outcome
  | [], store => ⟨.done, store⟩
  | .clause none body :: rest, store =>
      (Statement.interpretAll bound true body store).andThen (Clause.interpretAll bound rest)
  | .clause (some test) body :: rest, store =>
      store.evaluate (test.value.eval methods store.environment) fun value =>
        if selector.agree value then
          (Statement.interpretAll bound true body store).andThen (Clause.interpretAll bound rest)
        else Clause.interpretFrom bound selector rest store

/-- Interpret the bodies of clauses one after another, without testing. -/
def Clause.interpretAll (bound : Nat) : List Clause → Store → Outcome
  | [], store => ⟨.done, store⟩
  | .clause _ body :: rest, store =>
      (Statement.interpretAll bound true body store).andThen (Clause.interpretAll bound rest)

end

/-- Interpret the fields and the bodies of the methods of a class in their order,
where a call sees the methods declared before it. -/
def Member.interpretAll (bound : Nat) (methods : MethodTable) : List Member → Store → Outcome
  | [], store => ⟨.done, store⟩
  | .skipped :: rest, store => Member.interpretAll bound methods rest store
  | .field declaration :: rest, store =>
      (declaration.interpret methods store).andThen (Member.interpretAll bound methods rest)
  | .method declared :: rest, store =>
      (Statement.interpretAll (methods.declare declared.signature) bound false declared.body
        store).andThen (Member.interpretAll bound (methods.declare declared.signature) rest)

def Program.interpret (bound : Nat) : Program → Store → Outcome
  | .statements body => Statement.interpretAll .empty bound false body
  | .members all => Member.interpretAll bound .empty all

end StackLang
