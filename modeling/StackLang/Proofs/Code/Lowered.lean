import StackLang.Code.Lowering

/-!
# Lowered constructs

The listing of each construct that makes labels, with the count of labels that
it leaves behind.
-/

namespace StackLang

namespace Lowering

variable {α β : Type}

theorem run_pure (result : α) (made : Nat) :
    (pure result : Lowering α).run made = (result, made) := rfl

theorem run_bind (lowering : Lowering α) (next : α → Lowering β) (made : Nat) :
    (lowering >>= next).run made = (next (lowering.run made).1).run (lowering.run made).2 := rfl

end Lowering

variable (methods : MethodTable) (exit : Option String)

/-- The listing of a statement after the given number of labels. -/
def Statement.listing (statement : Statement) (made : Nat) : Listing :=
  ((statement.lower methods exit).run made).1

/-- The number of labels made after those of a statement. -/
def Statement.labels (statement : Statement) (made : Nat) : Nat :=
  ((statement.lower methods exit).run made).2

def Statement.listingAll (statements : List Statement) (made : Nat) : Listing :=
  ((Statement.lowerAll methods exit statements).run made).1

def Statement.labelsAll (statements : List Statement) (made : Nat) : Nat :=
  ((Statement.lowerAll methods exit statements).run made).2

/-- The listing of the clauses of a switch after the given number of labels. -/
def Clause.listingAll (selector finish : String) (pending : Option String) (entered : Bool)
    (clauses : List Clause) (made : Nat) : Listing :=
  ((Clause.lowerAll methods selector finish pending entered clauses).run made).1

/-- The code that leaves a loop unless its condition, if there is one, holds. -/
def guardCode (condition : Option Foreseen) (target : String) : Listing :=
  condition.elim [] fun condition => leaveUnless methods condition target

/-- The code of the step of a loop, if there is one. -/
def stepCode (step : Option Assignment) : Listing :=
  step.elim [] fun step => .ofInstructions (step.code methods)

/-- The code that repeats a loop if its condition holds; there is none without a
condition. -/
def againCode (condition : Option Foreseen) (target : String) : Listing :=
  condition.elim [] fun condition => repeatIf methods condition target

/-- The jump over the test of a clause, if a body before runs into it. -/
def skipCode (entered : Bool) (target : String) : Listing :=
  if entered then [.instruction (.jump target)] else []

/-- The test of a clause, if it has one. -/
def testCode (selector : String) (test : Option Foreseen) (failed : String) : Listing :=
  test.elim [] fun value =>
    .ofInstructions (caseTest methods selector value ++ [.jumpIf failed false])

theorem Statement.lower_block (body : List Statement) (made : Nat) :
    ((Statement.block body).lower methods exit).run made =
      (Statement.listingAll methods exit body made, Statement.labelsAll methods exit body made) := by
  rw [Statement.lower]
  rfl

theorem Statement.lower_whileLoop (condition : Foreseen) (body : Statement) (made : Nat) :
    ((Statement.whileLoop condition body).lower methods exit).run made =
      (.label (labelName (made + 1)) :: (leaveUnless methods condition (labelName (made + 2)) ++
          (body.listing methods (some (labelName (made + 2))) (made + 2) ++
            [.instruction (.jump (labelName (made + 1))), .label (labelName (made + 2))])),
        body.labels methods (some (labelName (made + 2))) (made + 2)) := by
  rw [Statement.lower]
  rfl

theorem Statement.lower_ifThen (condition : Foreseen) (yes : Statement) (made : Nat) :
    ((Statement.ifThen condition yes).lower methods exit).run made =
      (leaveUnless methods condition (labelName (made + 1)) ++
          (yes.listing methods exit (made + 1) ++ [.label (labelName (made + 1))]),
        yes.labels methods exit (made + 1)) := by
  rw [Statement.lower]
  rfl

theorem Statement.lower_ifElse (condition : Foreseen) (yes no : Statement) (made : Nat) :
    ((Statement.ifElse condition yes no).lower methods exit).run made =
      let finish := yes.labels methods exit (made + 1) + 1
      (leaveUnless methods condition (labelName (made + 1)) ++
          (yes.listing methods exit (made + 1) ++
            .instruction (.jump (labelName finish)) :: .label (labelName (made + 1)) ::
              (no.listing methods exit finish ++ [.label (labelName finish)])),
        no.labels methods exit finish) := by
  rw [Statement.lower]
  rfl

theorem Statement.lower_doWhile (body : Statement) (condition : Option Foreseen) (made : Nat) :
    ((Statement.doWhile body condition).lower methods exit).run made =
      (.label (labelName (made + 1)) ::
          (body.listing methods (some (labelName (made + 2))) (made + 2) ++
            (againCode methods condition (labelName (made + 1)) ++ [.label (labelName (made + 2))])),
        body.labels methods (some (labelName (made + 2))) (made + 2)) := by
  cases condition <;> rw [Statement.lower] <;> rfl

theorem Statement.lower_forLoop (start : LoopStart) (condition : Option Foreseen)
    (step : Option Assignment) (body : Statement) (made : Nat) :
    ((Statement.forLoop start condition step body).lower methods exit).run made =
      (Listing.ofInstructions (start.code methods) ++ .label (labelName (made + 1)) ::
          (guardCode methods condition (labelName (made + 2)) ++
            (body.listing methods (some (labelName (made + 2))) (made + 2) ++
              (stepCode methods step ++
                [.instruction (.jump (labelName (made + 1))), .label (labelName (made + 2))]))),
        body.labels methods (some (labelName (made + 2))) (made + 2)) := by
  cases condition <;> cases step <;> rw [Statement.lower] <;> rfl

theorem Statement.lower_switch (line number : Nat) (value : Foreseen) (clauses : List Clause)
    (made : Nat) :
    ((Statement.switch line number value clauses).lower methods exit).run made =
      (Listing.ofInstructions (value.value.code methods ++ [.store (selectorName number)]) ++
          (Clause.listingAll methods (selectorName number) (labelName (made + 1)) none false clauses
            (made + 1) ++ [.label (labelName (made + 1))]),
        ((Clause.lowerAll methods (selectorName number) (labelName (made + 1)) none false
          clauses).run (made + 1)).2) := by
  rw [Statement.lower]
  rfl

theorem Statement.lowerAll_cons (statement : Statement) (rest : List Statement) (made : Nat) :
    (Statement.lowerAll methods exit (statement :: rest)).run made =
      let middle := statement.labels methods exit made
      (statement.listing methods exit made ++ Statement.listingAll methods exit rest middle,
        Statement.labelsAll methods exit rest middle) := by
  rw [Statement.lowerAll]
  rfl

variable (selector finish : String) (pending : Option String) (entered : Bool)

theorem Clause.lowerAll_cons (clause : Clause) (rest : List Clause) (made : Nat) :
    (Clause.lowerAll methods selector finish pending entered (clause :: rest)).run made =
      let first := (clause.lower methods selector finish pending entered).run made
      let others := (Clause.lowerAll methods selector finish first.1.2 true rest).run first.2
      (first.1.1 ++ others.1, others.2) := by
  rw [Clause.lowerAll]
  rfl

theorem Clause.lower_clause (test : Option Foreseen) (body : List Statement) (made : Nat) :
    ((Clause.clause test body).lower methods selector finish pending entered).run made =
      let before := made + 1 + test.toList.length
      ((skipCode entered (labelName (made + 1)) ++ markerOf pending ++
            (testCode methods selector test (labelName (made + 2)) ++
              .label (labelName (made + 1)) ::
                Statement.listingAll methods (some finish) body before),
          test.map fun _ => labelName (made + 2)),
        Statement.labelsAll methods (some finish) body before) := by
  rw [Clause.lower]
  cases test <;> rfl

theorem Clause.listingAll_nil (made : Nat) :
    Clause.listingAll methods selector finish pending entered [] made = markerOf pending := by
  rw [Clause.listingAll, Clause.lowerAll]
  rfl

theorem Clause.listingAll_cons (test : Option Foreseen) (body : List Statement)
    (rest : List Clause) (made : Nat) :
    Clause.listingAll methods selector finish pending entered (.clause test body :: rest) made =
      skipCode entered (labelName (made + 1)) ++ (markerOf pending ++
        (testCode methods selector test (labelName (made + 2)) ++
          .label (labelName (made + 1)) ::
            (Statement.listingAll methods (some finish) body (made + 1 + test.toList.length) ++
              Clause.listingAll methods selector finish (test.map fun _ => labelName (made + 2))
                true rest (Statement.labelsAll methods (some finish) body
                  (made + 1 + test.toList.length))))) := by
  rw [Clause.listingAll, Clause.lowerAll_cons, Clause.lower_clause]
  simp only [List.append_assoc, List.cons_append]
  rfl

end StackLang
