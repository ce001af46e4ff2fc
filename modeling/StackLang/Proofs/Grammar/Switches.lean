import StackLang.Grammar.Tree

/-!
# Switches of a tree

Every switch has a number, after which its hidden variable is named.  The numbers are
listed in the order in which the switches are read and checked.
-/

namespace StackLang

mutual

/-- The numbers of the switches in a statement, in the order in which they were read. -/
def Statement.switches : Statement → List Nat
  | .block body => Statement.allSwitches body
  | .whileLoop _ body | .ifThen _ body | .doWhile body _ | .forLoop _ _ _ body => body.switches
  | .ifElse _ yes no => yes.switches ++ no.switches
  | .switch _ number _ clauses => number :: Clause.allSwitches clauses
  | .switchHead _ number _ => [number]
  | _ => []

def Statement.allSwitches : List Statement → List Nat
  | [] => []
  | statement :: rest => statement.switches ++ Statement.allSwitches rest

def Clause.allSwitches : List Clause → List Nat
  | [] => []
  | clause :: rest => clause.switches ++ Clause.allSwitches rest

def Clause.switches : Clause → List Nat
  | .clause _ body => Statement.allSwitches body

end

def Member.switches : Member → List Nat
  | .method declared => Statement.allSwitches declared.body
  | _ => []

/-- The numbers of all switches of a program. -/
def Program.switches : Program → List Nat
  | .statements body => Statement.allSwitches body
  | .members all => all.flatMap Member.switches

theorem Statement.allSwitches_eq (statements : List Statement) :
    Statement.allSwitches statements = statements.flatMap Statement.switches := by
  induction statements with
  | nil => rfl
  | cons statement rest ih => rw [Statement.allSwitches, ih, List.flatMap_cons]

/-- Tokens that were skipped between two clauses leave no clause. -/
theorem Clause.allSwitches_filterMap (found : List (Option Clause)) :
    Clause.allSwitches (found.filterMap id) = found.flatMap (Option.elim · [] Clause.switches) := by
  induction found with
  | nil => rfl
  | cons clause? rest ih =>
      cases clause? with
      | none => exact ih
      | some clause => exact congrArg (clause.switches ++ ·) ih

end StackLang
