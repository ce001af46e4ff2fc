import StackLang.Grammar.Expression
import StackLang.Proofs.Code.Congruence
import StackLang.Proofs.Retyping.Reading

/-!
# Reading expressions from retyped tokens

No type is named in an expression, so every level of the grammar reads the same expression
from retyped tokens.
-/

namespace StackLang.Reading

open ConcursFrom

/-- The reader finds the same expression on retyped tokens. -/
abbrev ExprSteady (reader : Reading Expr) : Prop := Steady Eq reader

variable {nested operand body : Reading Expr}

theorem seesOperator_steady (operators : List BinaryOperator) :
    Steady Eq (seesOperator operators) := by
  refine peek_blind fun _ _ alike => ?_
  cases alike with
  | none => rfl
  | @some one other alike =>
      have same (operator : BinaryOperator) :
          one.spells operator.symbol = other.spells operator.symbol :=
        alike.spells_eq (by cases operator <;> decide)
      simp only [Option.any_some, same]

/-- A level is read from where it can start. -/
theorem level_steady (nonterminal : Nonterminal) (complaint : Complaint)
    (inside : ConcursFrom (fun tokens => nonterminal.startsWith tokens.head? = true) Eq body body) :
    ExprSteady (level nonterminal complaint body) :=
  .rule (.expectBranch inside (.pure rfl))

theorem extend?_steady (operators : List BinaryOperator) (operands : ExprSteady operand)
    (left : Expr) : Steady Eq (extend? operators operand left) := by
  refine (seesOperator_steady operators).andThen fun seen => ?_
  cases seen with
  | none => exact .pure rfl
  | some operator =>
      refine line_steady.andThen fun line => skip_steady.andThen fun _ => ?_
      exact (log_concurs _ _).andThen fun _ => operands.andThen fun right => .pure rfl

theorem chain_steady (operators : List BinaryOperator) (operands : ExprSteady operand) :
    ExprSteady (chain operators operand) := by
  refine operands.andThen fun left => refine_steady ?_ rfl
  rintro left _ rfl
  refine (extend?_steady operators operands left).giving ?_
  rintro (_ | whole) _ rfl
  · exact .none
  · exact .some rfl

theorem nextArgument?_steady (inner : ExprSteady nested) :
    Steady (Option.Rel Eq) (nextArgument? nested) := by
  refine (accept_steady (by decide)).andThen fun _ => .ite (.pure .none) ?_
  refine (seesStart_steady .expression).andThen fun _ => .ite ?_ ?_
  · exact inner.andThen fun _ => .pure (.some rfl)
  · refine (abandon_steady .argument (.or (.of_unifies (by decide)) (.follow _))).andThen fun _ => ?_
    exact .pure (.some rfl)

theorem arguments_steady (inner : ExprSteady nested) : Steady Eq (arguments nested) := by
  refine .rule ((sees_steady (by decide)).andThen fun _ => .ite (.pure rfl) ?_)
  refine (expect_steady .arguments .argumentStart).andThen fun _ => .ite (.pure rfl) ?_
  refine inner.andThen fun first => ?_
  refine (collect_steady (nextArgument?_steady inner)).bind fun _ _ others => .pure ?_
  rw [List.forall₂_eq_eq_eq] at others
  rw [others]

theorem call_steady (inner : ExprSteady nested) : Steady Eq (call nested) := by
  refine .rule (identifier?_steady.andThen fun name? => ?_)
  cases name? with
  | none => exact .pure rfl
  | some callee =>
      refine (accept_steady (by decide)).andThen fun _ => (arguments_steady inner).andThen fun _ => ?_
      refine (demand_steady (by decide) (abandon_steady .callClose (.follow _))).andThen fun _ => ?_
      exact .pure rfl

theorem seesSecond_steady {symbol : String} (apart : symbol ∉ Nonterminal.typeWords) :
    Steady Eq (seesSecond symbol) :=
  look (fun _ => rfl) fun _ _ retyped _ => Blind.spells apart _ _ retyped.rest.tail.head?

theorem group_steady (inner : ExprSteady nested) : ExprSteady (group nested) :=
  inner.andThen fun _ => (demand_steady (by decide) (complain_steady _)).andThen fun _ => .pure rfl

theorem cutMark_steady (token : Token) : Steady Eq (cutMark token) :=
  move (fun _ => rfl) fun _ _ retyped => ⟨retyped.rest, retyped.errors, retyped.switches⟩

/-- Behind neither a parenthesis nor a name there is a literal. -/
theorem isLiteral_of_primary {tokens : List Token}
    (starts : Nonterminal.primary.startsWith tokens.head? = true)
    (ungrouped : tokens.head?.any (·.spells "(") = false)
    (unnamed : tokens.head?.any Token.isIdentifier = false) :
    tokens.head?.any Token.isLiteral = true := by
  cases head : tokens.head? with
  | none => rw [head] at starts; exact nomatch starts
  | some token =>
      rw [head] at starts ungrouped unnamed
      rw [Option.any_some] at ungrouped unnamed
      simpa [Nonterminal.startsWith, Nonterminal.first, Terminal.anyAccepts, Terminal.accepts,
        ungrouped, unnamed] using starts

theorem primary_steady (inner : ExprSteady nested) : ExprSteady (primary nested) := by
  refine level_steady _ _ (.acceptBranch (by decide) (group_steady inner) ?_)
  refine ask (fun tokens => tokens.head?.any Token.isIdentifier) (fun _ => rfl)
    seesIdentifier_steady ?_ ?_
  · refine ConcursFrom.anywhere ((seesSecond_steady (by decide)).andThen fun _ => .ite ?_ ?_)
    · refine (call_steady inner).andThen fun call? => ?_
      cases call? with
      | none => exact .pure rfl
      | some call => exact .pure rfl
    · refine identifier?_steady.andThen fun name? => ?_
      cases name? with
      | none => exact .pure rfl
      | some name => exact .pure rfl
  · have literal : ConcursFrom (fun tokens => ((Nonterminal.primary.startsWith tokens.head? = true ∧
        tokens.head?.any (·.spells "(") = false) ∧ tokens.head?.any Token.isIdentifier = false)) Eq
        (take fun token => .literal token.value) (take fun token => .literal token.value) :=
      (take_concursFrom _).starting fun _ ⟨⟨starts, ungrouped⟩, unnamed⟩ =>
        .of_isLiteral (isLiteral_of_primary starts ungrouped unnamed)
    refine literal.andThen fun token? => ?_
    cases token? with
    | none => exact .pure rfl
    | some token => exact (cutMark_steady token).andThen fun _ => .pure rfl

theorem negation_steady (inner : ExprSteady nested) : ExprSteady (negation nested) := by
  refine level_steady _ _ (ConcursFrom.anywhere (line_steady.andThen fun line => ?_))
  refine (accept_steady (by decide)).andThen fun _ => .ite ?_ (primary_steady inner)
  exact (primary_steady inner).andThen fun _ => .pure rfl

theorem product_steady (inner : ExprSteady nested) : ExprSteady (product nested) :=
  level_steady _ _ (chain_steady _ (negation_steady inner)).anywhere

theorem sum_steady (inner : ExprSteady nested) : ExprSteady (sum nested) :=
  level_steady _ _ (chain_steady _ (product_steady inner)).anywhere

theorem relation_steady (inner : ExprSteady nested) : ExprSteady (relation nested) := by
  refine level_steady _ _ (ConcursFrom.anywhere ((sum_steady inner).andThen fun left => ?_))
  exact (extend?_steady comparisons (sum_steady inner) left).andThen fun _ => .pure rfl

theorem inversionFor_steady (inner : ExprSteady nested) (bound : Nat) :
    ExprSteady (inversionFor nested bound) := by
  induction bound with
  | zero => exact getStuck_steady.andThen fun _ => .pure rfl
  | succ bound ih =>
      refine level_steady _ _ (ConcursFrom.anywhere (line_steady.andThen fun line => ?_))
      refine (accept_steady (by decide)).andThen fun _ => .ite ?_ (relation_steady inner)
      exact ih.andThen fun _ => .pure rfl

theorem inversion_steady (inner : ExprSteady nested) : ExprSteady (inversion nested) :=
  length_steady.andThen fun size => inversionFor_steady inner (size + 1)

theorem conjunction_steady (inner : ExprSteady nested) : ExprSteady (conjunction nested) :=
  level_steady _ _ (chain_steady _ (inversion_steady inner)).anywhere

theorem expressionFor_steady (depth : Nat) : ExprSteady (expressionFor depth) := by
  induction depth with
  | zero => exact getStuck_steady.andThen fun _ => .pure rfl
  | succ depth ih => exact level_steady _ _ (chain_steady _ (conjunction_steady ih)).anywhere

theorem expression_steady : ExprSteady expression :=
  length_steady.andThen fun size => expressionFor_steady (size + 1)

theorem checkPreview_concurs (one other : Except Preview.Stop Expr) :
    Concurs Eq (checkPreview one) (checkPreview other) :=
  fun _ _ retyped _ => ⟨rfl, retyped.rest, retyped.errors, retyped.switches⟩

theorem foreseen_steady : Steady Foreseen.SameValue foreseen := by
  refine line_steady.andThen fun line => .get fun cursor counterpart _ => ?_
  exact (checkPreview_concurs _ _).andThen fun _ => expression_steady.andThen fun _ => .pure rfl

theorem demandForeseen_steady {repair : Reading Unit} (repairs : Steady Eq repair) :
    Steady Foreseen.SameValue (demandForeseen repair) :=
  (seesStart_steady .expression).andThen fun _ =>
    .ite foreseen_steady (repairs.andThen fun _ => .pure rfl)

end StackLang.Reading
