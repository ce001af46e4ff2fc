import StackLang.Code.Draft
import StackLang.Code.Literal
import StackLang.Grammar.Tree
import StackLang.Symbol.Method

/-!
# Lowering programs to listings

Expressions become postfix code.  Control constructs become jumps to labels,
which are numbered in the order in which they are made.  The machine has no call
instruction: a call pushes the default value of its return type, its arguments
leave no code, and the bodies of methods stand in the listing one after another.
Types of variables do not influence the code.
-/

namespace StackLang

/-- A computation that makes labels, counting those made so far. -/
abbrev Lowering := StateM Nat

/-- Make a new label. -/
def freshLabel : Lowering String := do
  let number := (← get) + 1
  set number
  return labelName number

/-- The literal that stands for the result of a call: zero if the method is
unknown or returns nothing. -/
def MethodTable.callText (methods : MethodTable) (name : String) : String :=
  match (methods.get? name).map Signature.returnType with
  | none => "0"
  | some .void => "0"
  | some type => type.defaultText

/-- The postfix code of an expression.  A missing operand leaves none. -/
def Expr.code (methods : MethodTable) : Expr → List Instruction
  | .missing => []
  | .literal token => [.literal token.literalText]
  | .name token => [.load token.value]
  | .call callee _ => [.literal (methods.callText callee.value)]
  | .negate _ operand => .literal "0" :: (operand.code methods ++ [.operate .sub])
  | .invert _ operand => operand.code methods ++ [.operate .not]
  | .binary operator _ left right =>
      left.code methods ++ (right.code methods ++ operator.operations.map .operate)

/-- The code of a declaration. -/
def Declaration.code (methods : MethodTable) (declaration : Declaration) : List Instruction :=
  match declaration.initializer with
  | none => []
  | some initializer =>
      initializer.value.value.code methods ++ [.store declaration.name.value]

/-- The code of an assignment. -/
def Assignment.code (methods : MethodTable) (assignment : Assignment) : List Instruction :=
  let name := assignment.target.value
  match assignment.form with
  | .unfinished => []
  | .step operator =>
      .load name :: .literal "1" :: (operator.operations.map .operate ++ [.store name])
  | .store none value => value.value.code methods ++ [.store name]
  | .store (some operator) value =>
      .load name :: (value.value.code methods ++
        (operator.operations.map .operate ++ [.store name]))

/-- The code of what a loop header does first. -/
def LoopStart.code (methods : MethodTable) : LoopStart → List Instruction
  | .nothing => []
  | .declare declaration => declaration.code methods
  | .assign assignment => assignment.code methods

/-- The code of the value that a return statement gives back. -/
def Returned.code (methods : MethodTable) : Returned → List Instruction
  | .value given => given.code methods
  | _ => []

/-- The code that leaves a loop unless its condition holds. -/
def leaveUnless (methods : MethodTable) (condition : Foreseen) (target : String) : Listing :=
  .ofInstructions (condition.value.code methods ++ [.jumpIf target false])

/-- The code that repeats a loop if its condition holds. -/
def repeatIf (methods : MethodTable) (condition : Foreseen) (target : String) : Listing :=
  .ofInstructions (condition.value.code methods ++ [.jumpIf target true])

/-- The test of a case: the switch value is compared with the value of the case. -/
def caseTest (methods : MethodTable) (selector : String) (test : Foreseen) : List Instruction :=
  .load selector :: (test.value.code methods ++ [.operate .equal])

/-- The marker of a label, if there is one. -/
def markerOf (label? : Option String) : Listing := (label?.map Emitted.label).toList

mutual

/-- The listing of a statement; `exit` is where a break goes. -/
def Statement.lower (methods : MethodTable) (exit : Option String) :
    Statement → Lowering Listing
  | .skipped => return []
  | .declare declaration => return .ofInstructions (declaration.code methods)
  | .assign assignment => return .ofInstructions (assignment.code methods)
  | .call _ _ => return []
  | .print endsLine value =>
      let code := match value with
        | none => [.literal "\"\""]
        | some expression => expression.code methods
      return .ofInstructions (code ++ [.operate (if endsLine then .printLine else .print)])
  | .read target => return .ofInstructions [.operate .read, .store target.value]
  | .leave _ => return .ofInstructions (exit.map Instruction.jump).toList
  | .giveBack _ value =>
      return .ofInstructions (value.code methods ++ [.operate .giveBack])
  | .evaluate value => return .ofInstructions (value.code methods)
  | .block body => Statement.lowerAll methods exit body
  | .whileLoop condition body => do
      let start ← freshLabel
      let finish ← freshLabel
      let inside ← body.lower methods (some finish)
      return .label start :: (leaveUnless methods condition finish ++
        (inside ++ [.instruction (.jump start), .label finish]))
  | .ifThen condition yes => do
      let otherwise ← freshLabel
      let yes ← yes.lower methods exit
      return leaveUnless methods condition otherwise ++ (yes ++ [.label otherwise])
  | .ifElse condition yes no => do
      let otherwise ← freshLabel
      let yes ← yes.lower methods exit
      let finish ← freshLabel
      let no ← no.lower methods exit
      return leaveUnless methods condition otherwise ++
        (yes ++ .instruction (.jump finish) :: .label otherwise :: (no ++ [.label finish]))
  | .doWhile body condition => do
      let start ← freshLabel
      let finish ← freshLabel
      let inside ← body.lower methods (some finish)
      let test : Listing := match condition with
        | none => []
        | some condition => repeatIf methods condition start
      return .label start :: (inside ++ (test ++ [.label finish]))
  | .forLoop start condition step body => do
      let test ← freshLabel
      let finish ← freshLabel
      let inside ← body.lower methods (some finish)
      let guard : Listing := match condition with
        | none => []
        | some condition => leaveUnless methods condition finish
      let step : Listing := match step with
        | none => []
        | some step => Listing.ofInstructions (step.code methods)
      return Listing.ofInstructions (start.code methods) ++ .label test :: (guard ++
        (inside ++ (step ++ [.instruction (.jump test), .label finish])))
  | .switch _ number value clauses => do
      let selector := selectorName number
      let finish ← freshLabel
      let inside ← Clause.lowerAll methods selector finish none false clauses
      return Listing.ofInstructions (value.value.code methods ++ [.store selector]) ++
        (inside ++ [.label finish])
  | .switchHead _ number value =>
      return .ofInstructions (value.value.code methods ++ [.store (selectorName number)])

/-- The listing of statements, one after another. -/
def Statement.lowerAll (methods : MethodTable) (exit : Option String) :
    List Statement → Lowering Listing
  | [] => return []
  | statement :: rest => do
      let first ← statement.lower methods exit
      let others ← Statement.lowerAll methods exit rest
      return first ++ others

/-- The listing of the clauses of a switch.  `pending` is the label that a failed
test of the clause before jumps to, and `entered` tells whether there is a body
before that runs into this one. -/
def Clause.lowerAll (methods : MethodTable) (selector finish : String) (pending : Option String)
    (entered : Bool) : List Clause → Lowering Listing
  | [] => return markerOf pending
  | clause :: rest => do
      let (code, failed) ← clause.lower methods selector finish pending entered
      let others ← Clause.lowerAll methods selector finish failed true rest
      return code ++ others

/-- The listing of a clause, and the label that a failed test jumps to. -/
def Clause.lower (methods : MethodTable) (selector finish : String) (pending : Option String)
    (entered : Bool) : Clause → Lowering (Listing × Option String)
  | .clause test body => do
      let inside ← freshLabel
      let past : Listing := if entered then [.instruction (.jump inside)] else []
      let front := past ++ markerOf pending
      match test with
      | none => do
          let code ← Statement.lowerAll methods (some finish) body
          return (front ++ .label inside :: code, none)
      | some value => do
          let failed ← freshLabel
          let code ← Statement.lowerAll methods (some finish) body
          let check := caseTest methods selector value ++ [.jumpIf failed false]
          return (front ++ (Listing.ofInstructions check ++ .label inside :: code), some failed)

end

/-- The listing of the members of a class, where a call sees the methods declared
before it. -/
def Member.lowerAll (methods : MethodTable) : List Member → Lowering Listing
  | [] => return []
  | .skipped :: rest => Member.lowerAll methods rest
  | .field declaration :: rest => do
      let others ← Member.lowerAll methods rest
      return Listing.ofInstructions (declaration.code methods) ++ others
  | .method declared :: rest => do
      let methods := methods.declare declared.signature
      let first ← Statement.lowerAll methods none declared.body
      let others ← Member.lowerAll methods rest
      return first ++ others

/-- The listing of a program, as a draft with its labels. -/
def Program.lower (program : Program) : Draft :=
  let lowering := match program with
    | .statements body => Statement.lowerAll .empty none body
    | .members all => Member.lowerAll .empty all
  let (listing, labels) := lowering.run 0
  ⟨listing, labels⟩

end StackLang
