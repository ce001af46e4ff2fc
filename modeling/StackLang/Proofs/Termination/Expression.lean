import StackLang.Grammar.Expression
import StackLang.Proofs.Termination.Judgement
import StackLang.Proofs.Termination.Preview

/-!
# Reading expressions never gets stuck

Every level proceeds on fewer than `size` tokens if the reader of nested expressions
does, and behind an opening parenthesis one level less is needed.  The bound of an
expression is therefore never used up.
-/

namespace StackLang.Reading

variable {size : Nat} {before : Cursor} {nested operand : Reading Expr}

/-- A nonterminal that can start has a token to start with. -/
theorem rest_ne_nil_of_seesStart {nonterminal : Nonterminal}
    (starts : before.seesStart nonterminal = true) : before.rest ≠ [] := by
  intro empty
  rw [Cursor.seesStart, Cursor.next?, empty] at starts
  cases nonterminal <;> contradiction

/-- The body of a level runs where the level can start. -/
theorem level_ends {nonterminal : Nonterminal} {complaint : Complaint} {body : Reading Expr}
    (inside : ∀ middle : Cursor, middle.rest.length ≤ before.rest.length →
      middle.seesStart nonterminal = true → Ends body middle) :
    Ends (level nonterminal complaint body) before := by
  refine .rule ((expect_proceeds _ _ _).bind fun starts middle fits expected => ?_)
  refine .ite (fun can => ?_) fun _ => .pure trivial
  exact inside middle fits (expected.1 ▸ can)

theorem Below.level {body : Reading Expr} (below : Below size body) (nonterminal : Nonterminal)
    (complaint : Complaint) : Below size (level nonterminal complaint body) :=
  fun _ small => level_ends fun middle fits _ => below middle (Nat.lt_of_le_of_lt fits small)

theorem extend?_rounds (below : Below size operand) (operators : List BinaryOperator)
    (left : Expr) (small : before.rest.length < size) :
    Rounds (extend? operators operand left) before := by
  unfold extend?
  refine .look (operators.find? fun operator =>
    before.next?.any fun token => token.spells operator.symbol) rfl ?_
  split
  · exact .pure nofun
  · next operator found =>
      have seen : before.sees operator.symbol = true := by
        have spelled := List.find?_some found
        exact spelled
      refine .look _ rfl (.consume (rest_ne_nil_of_sees seen) fun middle shorter => ?_)
      refine (below middle (Nat.lt_trans shorter small)).bind fun _ after fits _ => .pure fun _ => ?_
      exact Nat.lt_of_le_of_lt fits shorter

theorem Below.chain (below : Below size operand) (operators : List BinaryOperator) :
    Below size (chain operators operand) := by
  intro before small
  refine (below before small).bind fun left middle fits _ => ?_
  refine refine_ends left middle fun value cursor shrunk => ?_
  exact extend?_rounds below operators value (by omega)

theorem nextArgument?_rounds (below : Below size nested) (small : before.rest.length < size) :
    Rounds (nextArgument? nested) before := by
  refine (accept_proceeds "," before).bind fun read middle fits ⟨_, shorter, _⟩ => ?_
  cases read with
  | false => exact .pure nofun
  | true =>
      have less : Shorter before middle := shorter rfl
      refine .branch _ rfl (fun _ => ?_) fun _ => ?_
      · refine (below middle (Nat.lt_trans less small)).bind fun _ after fits _ => .pure fun _ => ?_
        exact Nat.lt_of_le_of_lt fits less
      · refine (abandon_ends _ _ middle).bind fun _ after fits _ => .pure fun _ => ?_
        exact Nat.lt_of_le_of_lt fits less

theorem arguments_below (below : Below size nested) : Below size (arguments nested) := by
  intro before small
  refine .rule (.branch _ rfl (fun _ => .pure trivial) fun _ => ?_)
  refine (expect_proceeds _ _ _).bind fun starts middle fits _ => .ite (fun _ => .pure trivial) ?_
  intro _
  have small : middle.rest.length < size := Nat.lt_of_le_of_lt fits small
  refine (below middle small).bind fun first front onward _ => ?_
  refine Proceeds.bind (collect_ends front fun cursor shrunk => ?_) fun _ _ _ _ => .pure trivial
  exact nextArgument?_rounds below (by omega)

/-- The arguments of a call stand behind its name. -/
theorem call_ends (below : Below size nested) (small : before.rest.length < size + 1) :
    Ends (call nested) before := by
  refine .rule ((identifier?_proceeds _).bind fun callee? named _ ⟨shorter, _⟩ => ?_)
  cases callee? with
  | none => exact .pure trivial
  | some callee =>
      have less : named.rest.length < before.rest.length := shorter rfl
      refine (accept_ends "(" named).bind fun _ opened fits _ => ?_
      refine (arguments_below below opened (by omega)).bind fun _ closing _ _ => ?_
      exact (demand_abandon_ends _ _ _ closing).bind fun _ _ _ _ => .pure trivial

/-- The mark of the next literal can be cut off. -/
theorem literal_ends (more : before.rest ≠ []) :
    Ends (do
      match ← take fun token => .literal token.value with
      | some token =>
          cutMark token
          return .literal token
      | none => return .missing : Reading Expr) before := by
  obtain ⟨rest, depth, trace, errors, switches, stuck⟩ := before
  obtain ⟨token, tail, rfl⟩ := List.exists_cons_of_ne_nil more
  refine ⟨List.suffix_cons token tail, fun marked => ?_, trivial⟩
  show (stuck || false || !token.cutsMark) = stuck
  rw [marked token List.mem_cons_self, Bool.not_true, Bool.or_false, Bool.or_false]

/-- A group stands behind its opening parenthesis. -/
theorem primary_below (below : Below size nested) : Below (size + 1) (primary nested) := by
  intro before small
  refine level_ends fun middle fits starts => ?_
  refine (accept_proceeds "(" middle).bind fun read opened _ ⟨_, shorter, still⟩ => ?_
  cases read with
  | true =>
      have less : opened.rest.length < middle.rest.length := shorter rfl
      refine Proceeds.bind (below opened (by omega)) fun _ closing _ _ => ?_
      exact (demand_complain_ends _ _ closing).bind fun _ _ _ _ => .pure trivial
  | false =>
      obtain rfl := still rfl
      refine .branch _ rfl (fun _ => .branch _ rfl (fun _ => ?_) fun _ => ?_) fun _ => ?_
      · refine (call_ends below (by omega)).bind fun call? _ _ _ => ?_
        cases call? <;> exact .pure trivial
      · refine (identifier?_proceeds _).bind fun name? _ _ _ => ?_
        cases name? <;> exact .pure trivial
      · exact literal_ends (rest_ne_nil_of_seesStart starts)

theorem negation_below (below : Below size nested) : Below (size + 1) (negation nested) := by
  refine Below.level (fun before small => ?_) _ _
  refine .look _ rfl ((accept_ends "-" before).bind fun read middle fits _ => ?_)
  have small : middle.rest.length < size + 1 := Nat.lt_of_le_of_lt fits small
  refine .ite (fun _ => ?_) fun _ => primary_below below middle small
  exact (primary_below below middle small).bind fun _ _ _ _ => .pure trivial

theorem sum_below (below : Below size nested) : Below (size + 1) (sum nested) :=
  have product : Below (size + 1) (product nested) :=
    ((negation_below below).chain [.mul, .div]).level _ _
  (product.chain [.add, .sub]).level _ _

theorem relation_below (below : Below size nested) : Below (size + 1) (relation nested) := by
  refine Below.level (fun before small => ?_) _ _
  refine (sum_below below before small).bind fun left middle fits _ => ?_
  have small : middle.rest.length < size + 1 := Nat.lt_of_le_of_lt fits small
  exact (extend?_rounds (sum_below below) comparisons left small).bind fun _ _ _ _ => .pure trivial

/-- Every exclamation mark uses up one token and one unit of the bound. -/
theorem inversionFor_ends (below : Below size nested) (bound : Nat) (before : Cursor)
    (small : before.rest.length < size + 1) (enough : before.rest.length < bound) :
    Ends (inversionFor nested bound) before := by
  induction bound generalizing before with
  | zero => exact absurd enough (Nat.not_lt_zero _)
  | succ bound ih =>
      refine level_ends fun middle fits _ => .look _ rfl ?_
      refine (accept_proceeds "!" middle).bind fun read marked _ ⟨_, shorter, still⟩ => ?_
      cases read with
      | true =>
          have less : marked.rest.length < middle.rest.length := shorter rfl
          exact (ih marked (by omega) (by omega)).bind fun _ _ _ _ => .pure trivial
      | false =>
          obtain rfl := still rfl
          exact relation_below below marked (by omega)

theorem inversion_below (below : Below size nested) : Below (size + 1) (inversion nested) :=
  fun before small =>
    .look before rfl (inversionFor_ends below _ before small (Nat.lt_succ_self _))

theorem expressionFor_below (depth : Nat) : Below depth (expressionFor depth) := by
  induction depth with
  | zero => exact fun _ impossible => absurd impossible (Nat.not_lt_zero _)
  | succ depth ih =>
      have conjunction : Below (depth + 1) (conjunction (expressionFor depth)) :=
        ((inversion_below ih).chain [.and]).level _ _
      exact (conjunction.chain [.or]).level _ _

theorem expression_ends (before : Cursor) : Ends expression before :=
  .look before rfl (expressionFor_below _ before (Nat.lt_succ_self _))

/-- A preview of the tokens ahead leaves everything as it is. -/
theorem checkPreview_ends (before : Cursor) :
    Ends (checkPreview (Expr.previewed before.rest)) before := by
  refine ⟨List.suffix_refl _, fun _ => ?_, trivial⟩
  have fits := Expr.previewed_ne_exhausted before.rest
  cases preview : Expr.previewed before.rest with
  | ok tree => exact Bool.or_false _
  | error stop =>
      cases stop with
      | exhausted => contradiction
      | _ => exact Bool.or_false _

theorem foreseen_ends (before : Cursor) : Ends foreseen before := by
  refine .look _ rfl (.look before rfl ?_)
  refine Proceeds.bind (checkPreview_ends before) fun _ middle _ _ => ?_
  exact (expression_ends middle).bind fun _ _ _ _ => .pure trivial

theorem demandForeseen_ends {repair : Reading Unit} (repairs : ∀ before, Ends repair before)
    (before : Cursor) : Ends (demandForeseen repair) before := by
  refine .branch _ rfl (fun _ => foreseen_ends before) fun _ => ?_
  exact (repairs before).bind fun _ _ _ _ => .pure trivial

/-- A call at the cursor, whatever its arguments are. -/
theorem call_expression_ends (before : Cursor) : Ends (call expression) before :=
  call_ends (fun middle _ => expression_ends middle) (Nat.lt_succ_self _)

end StackLang.Reading
