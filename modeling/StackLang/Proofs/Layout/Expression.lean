import StackLang.Proofs.Layout.Preview
import StackLang.Proofs.Layout.Reading

/-!
# Reading expressions without lines

Every level of the grammar reads the same expression from tokens without lines, up to
the lines that operators remember.
-/

namespace StackLang.Reading

open Unlines

/-- The counterparts of readers of expressions are themselves. -/
abbrev ExprUnlines (reader : Reading Expr) : Prop := Unlines Expr.unlined reader reader

variable {nested operand body : Reading Expr}

theorem seesOperator_unmoved (operators : List BinaryOperator) :
    Unmoved (seesOperator operators) (seesOperator operators) := by
  refine peek_unlines.bind fun next => .pure ?_
  cases next with
  | none => rfl
  | some token => rfl

theorem missing_unlines : ExprUnlines (return .missing) := .pure (by rw [Expr.unlined])

theorem level_unlines (nonterminal : Nonterminal) (complaint : Complaint)
    (inside : ExprUnlines body) : ExprUnlines (level nonterminal complaint body) :=
  .rule ((expect_unmoved nonterminal complaint).andThen fun _ => .ite inside missing_unlines)

theorem extend?_unlines (operators : List BinaryOperator) (operands : ExprUnlines operand)
    (left : Expr) :
    Unlines (Option.map Expr.unlined) (extend? operators operand left)
      (extend? operators operand left.unlined) := by
  refine (seesOperator_unmoved operators).andThen fun seen => ?_
  cases seen with
  | none => exact .pure rfl
  | some operator =>
      refine line_unlines.bind fun line => skip_unmoved.andThen fun _ => ?_
      refine (log_unmoved _).andThen fun _ => operands.bind fun right => .pure ?_
      rw [Option.map_some, Expr.unlined]

theorem chain_unlines (operators : List BinaryOperator) (operands : ExprUnlines operand) :
    ExprUnlines (chain operators operand) :=
  operands.bind fun left => refine_unlines (extend?_unlines operators operands) left

theorem nextArgument?_unlines (inner : ExprUnlines nested) :
    Unlines (Option.map Expr.unlined) (nextArgument? nested) (nextArgument? nested) := by
  refine (accept_unmoved ",").andThen fun _ => .ite (.pure rfl) ?_
  refine (seesStart_unmoved .expression).andThen fun _ => .ite ?_ ?_
  · exact inner.bind fun argument => .pure rfl
  · refine (abandon_unmoved .argument fun next => by simp).andThen fun _ => .pure ?_
    rw [Option.map_some, Expr.unlined]

theorem arguments_unlines (inner : ExprUnlines nested) :
    Unlines (List.map Expr.unlined) (arguments nested) (arguments nested) := by
  refine .rule ((sees_unmoved ")").andThen fun _ => .ite (.pure rfl) ?_)
  refine (expect_unmoved .arguments .argumentStart).andThen fun _ => .ite (.pure rfl) ?_
  refine inner.bind fun first => ?_
  exact (collect_unlines (nextArgument?_unlines inner)).bind fun others => .pure rfl

/-- A call without lines. -/
def callUnlined (call : Token × List Expr) : Token × List Expr :=
  (call.1.unlined, call.2.map Expr.unlined)

theorem call_unlines (inner : ExprUnlines nested) :
    Unlines (Option.map callUnlined) (call nested) (call nested) := by
  refine .rule (identifier?_unlines.bind fun name? => ?_)
  cases name? with
  | none => exact .pure rfl
  | some callee =>
      refine (accept_unmoved "(").andThen fun _ => (arguments_unlines inner).bind fun given => ?_
      exact (demand_abandon_unmoved ")" .callClose fun next => by simp).andThen fun _ => .pure rfl

theorem seesSecond_unmoved (symbol : String) : Unmoved (seesSecond symbol) (seesSecond symbol) := by
  refine ofRun (fun _ => rfl) fun cursor => ?_
  obtain ⟨rest, depth, trace, errors, switches, stuck⟩ := cursor
  cases rest with
  | nil => rfl
  | cons token tail =>
      cases tail with
      | nil => rfl
      | cons second others => rfl

theorem group_unlines (inner : ExprUnlines nested) : ExprUnlines (group nested) :=
  inner.bind fun _ => (demand_complain_unmoved ")" .groupClose).andThen fun _ => .pure rfl

theorem cutMark_unlines (token : Token) : Unmoved (cutMark token) (cutMark token.unlined) :=
  fun _ => rfl

theorem primary_unlines (inner : ExprUnlines nested) : ExprUnlines (primary nested) := by
  refine level_unlines _ _ ((accept_unmoved "(").andThen fun _ => .ite (group_unlines inner) ?_)
  refine seesIdentifier_unmoved.andThen fun _ => .ite ?_ ?_
  · refine (seesSecond_unmoved "(").andThen fun _ => .ite ?_ ?_
    · refine (call_unlines inner).bind fun call? => ?_
      cases call? with
      | none => exact missing_unlines
      | some call => exact .pure (by rw [Expr.unlined])
    · refine identifier?_unlines.bind fun name? => ?_
      cases name? with
      | none => exact missing_unlines
      | some name => exact .pure (by rw [Expr.unlined])
  · refine (take_unlines fun _ => rfl).bind fun token? => ?_
    cases token? with
    | none => exact missing_unlines
    | some token =>
        exact (cutMark_unlines token).andThen fun _ => .pure (by rw [Expr.unlined])

theorem negation_unlines (inner : ExprUnlines nested) : ExprUnlines (negation nested) := by
  refine level_unlines _ _ (line_unlines.bind fun line => ?_)
  refine (accept_unmoved "-").andThen fun _ => .ite ?_ (primary_unlines inner)
  exact (primary_unlines inner).bind fun operand => .pure (by rw [Expr.unlined])

theorem product_unlines (inner : ExprUnlines nested) : ExprUnlines (product nested) :=
  level_unlines _ _ (chain_unlines _ (negation_unlines inner))

theorem sum_unlines (inner : ExprUnlines nested) : ExprUnlines (sum nested) :=
  level_unlines _ _ (chain_unlines _ (product_unlines inner))

theorem relation_unlines (inner : ExprUnlines nested) : ExprUnlines (relation nested) := by
  refine level_unlines _ _ ((sum_unlines inner).bind fun left => ?_)
  refine (extend?_unlines comparisons (sum_unlines inner) left).bind fun whole? => .pure ?_
  cases whole? with
  | none => rfl
  | some whole => rfl

theorem inversionFor_unlines (inner : ExprUnlines nested) (bound : Nat) :
    ExprUnlines (inversionFor nested bound) := by
  induction bound with
  | zero => exact getStuck_unmoved.andThen fun _ => missing_unlines
  | succ bound ih =>
      refine level_unlines _ _ (line_unlines.bind fun line => ?_)
      refine (accept_unmoved "!").andThen fun _ => .ite ?_ (relation_unlines inner)
      exact ih.bind fun operand => .pure (by rw [Expr.unlined])

theorem inversion_unlines (inner : ExprUnlines nested) : ExprUnlines (inversion nested) :=
  length_unmoved.andThen fun size => inversionFor_unlines inner (size + 1)

theorem conjunction_unlines (inner : ExprUnlines nested) :
    ExprUnlines (conjunction nested) :=
  level_unlines _ _ (chain_unlines _ (inversion_unlines inner))

theorem expressionFor_unlines (depth : Nat) : ExprUnlines (expressionFor depth) := by
  induction depth with
  | zero => exact getStuck_unmoved.andThen fun _ => missing_unlines
  | succ depth ih => exact level_unlines _ _ (chain_unlines _ (conjunction_unlines ih))

theorem expression_unlines : ExprUnlines expression :=
  length_unmoved.andThen fun size => expressionFor_unlines (size + 1)

theorem checkPreview_unmoved (preview : Except Preview.Stop Expr) :
    Unmoved (checkPreview preview) (checkPreview (preview.map Expr.unlined)) := by
  cases preview with
  | error stop => exact fun _ => rfl
  | ok value => exact fun _ => rfl

theorem foreseen_unlines : Unlines Foreseen.unlined foreseen foreseen := by
  refine line_unlines.bind fun line => .get fun cursor => ?_
  have ahead : Expr.previewed cursor.unlined.rest =
      (Expr.previewed cursor.rest).map Expr.unlined :=
    Expr.previewed_unlined cursor.rest
  rw [ahead]
  refine (checkPreview_unmoved _).andThen fun _ => expression_unlines.bind fun value => .pure ?_
  rw [Foreseen.unlined]
  cases Expr.previewed cursor.rest with
  | error stop => rfl
  | ok foreseen => rfl

theorem missingForeseen_unlines : Unlines Foreseen.unlined (return .missing) (return .missing) :=
  .pure (by rw [Foreseen.unlined, Foreseen.missing, Expr.unlined]; rfl)

theorem demandForeseen_unlines {repair : Reading Unit} (repairs : Unmoved repair repair) :
    Unlines Foreseen.unlined (demandForeseen repair) (demandForeseen repair) :=
  (seesStart_unmoved .expression).andThen fun _ =>
    .ite foreseen_unlines (repairs.andThen fun _ => missingForeseen_unlines)

end StackLang.Reading
