import StackLang.Proofs.Completeness.Expression
import StackLang.Proofs.Grammar.Rendering

/-!
# Renderings are read back

`Reading.Restores` says that a reader takes every rendering of a tree where an operand of
some precedence may stand, and finds just that tree.  Each level of the grammar does so
for its own precedence, if nested expressions are restored; the induction is on the depth
of parentheses, as for the grammar itself.
-/

namespace StackLang.Reading

open Terminal (Opens allApart)
open StackLang.Expr (Renders Extends openings)

variable {size bound precedence : Nat} {next behind : List Terminal} {tokens rest : List Token}
  {token sign : Token} {operators : List BinaryOperator} {operand nested : Reading Expr}
  {left tree : Expr}

/-- The reader finds the trees of which up to `size` tokens are renderings, if one of the
terminals is next behind them. -/
def Restores (size : Nat) (reader : Reading Expr) (bound : Nat) (next : List Terminal) : Prop :=
  ∀ tree tokens rest, tokens.length ≤ size → Renders bound tree tokens → Opens next rest →
    Takes reader tokens rest (· = tree)

namespace Restores

theorem zero : Restores 0 operand bound next := by
  intro tree tokens rest short renders _
  exact absurd renders.length_pos (Nat.not_lt.mpr short)

theorem level {nonterminal : Nonterminal} {complaint : Complaint} {body : Reading Expr}
    (start : openings bound ⊆ nonterminal.first) (restores : Restores size body bound next) :
    Restores size (Reading.level nonterminal complaint body) bound next :=
  fun tree tokens rest short renders follows =>
    .rule (.expect ((renders.opens rest).mono start)
      (restores tree tokens rest short renders follows))

end Restores

/-! ## Operators of one precedence -/

/-- Among choices with different symbols, a token spells one at most. -/
theorem find?_of_spells {α : Type} {symbol : α → String} (injective : Function.Injective symbol)
    {choices : List α} {choice : α} (listed : choice ∈ choices)
    (signed : sign.spells (symbol choice) = true) :
    (choices.find? fun choice => sign.spells (symbol choice)) = some choice := by
  cases chosen : choices.find? fun choice => sign.spells (symbol choice) with
  | none => exact absurd signed (List.find?_eq_none.mp chosen choice listed)
  | some found =>
      have spelled := List.find?_some chosen
      rw [injective ((value_of_spells spelled).symm.trans (value_of_spells signed))]

theorem extend?_takes {operator : BinaryOperator} {right : Expr} (listed : operator ∈ operators)
    (signed : sign.spells operator.symbol = true)
    (taken : Takes operand tokens rest (· = right)) (left : Expr) :
    Takes (extend? operators operand left) (sign :: tokens) rest
      (· = some (.binary operator sign.line left right)) := by
  refine .look (fun _ => rfl) fun cursor position => ?_
  have head : cursor.next? = some sign := next?_eq position
  have found : (operators.find? fun operator =>
      cursor.next?.any fun token => token.spells operator.symbol) = some operator := by
    rw [head]
    exact find?_of_spells BinaryOperator.symbol_injective listed signed
  rw [found]
  refine .look (fun _ => rfl) fun later position => .consume (.after taken ?_)
  have head : later.next? = some sign := next?_eq position
  rintro _ rfl
  rw [head]
  exact .pure rfl

/-- Behind an operand comes an operator of its precedence, or what is behind all of them. -/
theorem opens_of_extends
    (listed : BinaryOperator.ofPrecedence precedence ⊆ operators)
    (extended : Extends precedence left tokens tree) (follows : Opens next rest) :
    Opens (operatorWords operators ++ next) (tokens ++ rest) := by
  cases extended with
  | done => exact follows.mono (List.subset_append_right _ _)
  | @more operator _ _ _ sign _ _ level signed _ _ =>
      have member : Terminal.word operator.symbol ∈ operatorWords operators :=
        List.mem_map_of_mem (listed (BinaryOperator.mem_ofPrecedence level))
      exact Expr.opens_of_mem (List.mem_append_left _ member) signed

theorem Restores.extensions (restores : Restores size operand (precedence + 1) behind)
    (listed : BinaryOperator.ofPrecedence precedence ⊆ operators)
    (within : operatorWords operators ++ next ⊆ behind)
    (apart : allApart next (operatorWords operators) = true)
    (extended : Extends precedence left tokens tree)
    (short : tokens.length ≤ size) (follows : Opens next rest) (bound : Nat)
    (enough : tokens.length < bound) :
    Takes (refineFor (extend? operators operand) bound left) tokens rest (· = tree) := by
  induction extended generalizing bound with
  | done =>
      obtain ⟨fewer, rfl⟩ := Nat.exists_eq_add_of_lt enough
      refine .before (extend?_stops apart _ rest follows) ?_
      rintro _ rfl
      exact .pure rfl
  | @more operator left right _ sign front back level signed rendered others ih =>
      obtain ⟨fewer, rfl⟩ := Nat.exists_eq_add_of_le' (Nat.zero_lt_of_lt enough)
      rw [List.length_cons, List.length_append] at short enough
      have opens := (opens_of_extends listed others follows).mono within
      have operand := restores right front (back ++ rest) (by omega) rendered opens
      have member := listed (BinaryOperator.mem_ofPrecedence level)
      refine .bind (extend?_takes member signed operand left) ?_
      rintro _ rfl
      exact ih (by omega) fewer (by omega)

/-- The loop of a level whose operators are grouped to the left. -/
theorem Restores.chain (restores : Restores size operand (precedence + 1) behind)
    (chained : precedence ≠ 2 ∧ precedence ≠ 3 ∧ precedence ≠ 6)
    (listed : BinaryOperator.ofPrecedence precedence ⊆ operators)
    (within : operatorWords operators ++ next ⊆ behind)
    (apart : allApart next (operatorWords operators) = true) :
    Restores size (chain operators operand) precedence next := by
  intro tree tokens rest short renders follows
  obtain ⟨head, front, back, rfl, first, extended⟩ := renders.spine chained
  rw [List.length_append] at short
  have opens := (opens_of_extends listed extended follows).mono within
  refine .bind (restores head front _ (by omega) first opens) ?_
  rintro _ rfl
  refine .look (fun _ => rfl) fun cursor position => ?_
  refine restores.extensions listed within apart extended (by omega) follows _ ?_
  rw [position, List.length_append]
  omega

/-! ## Calls and operands -/

theorem nextArgument?_takes (restores : Restores size nested 0 expressionEnd)
    (signed : sign.spells "," = true) (short : tokens.length ≤ size)
    (renders : Renders 0 tree tokens) (follows : Opens (Nonterminal.words [",", ")"]) rest) :
    Takes (nextArgument? nested) (sign :: tokens) rest (· = some tree) := by
  rw [nextArgument?, unless_eq]
  refine .accepted signed (.yes (asks_seesStart _) (renders.opens rest) ?_)
  refine .after (restores tree tokens rest short renders (follows.mono (by decide))) ?_
  rintro _ rfl
  exact .pure rfl

section Arguments

variable {arguments : List (Expr × List Token)} (restores : Restores size nested 0 expressionEnd)
  (given : ∀ argument ∈ arguments, Renders 0 argument.1 argument.2) (short : tokens.length ≤ size)
  (follows : Opens (Nonterminal.words [")"]) rest)

theorem opens_of_behindCommas {lists : List (List Token)} (listed : BehindCommas lists tokens)
    (follows : Opens (Nonterminal.words [")"]) rest) :
    Opens (Nonterminal.words [",", ")"]) (tokens ++ rest) := by
  cases listed with
  | nil => exact follows.mono (by decide)
  | cons signed _ =>
      have member : Terminal.word "," ∈ Nonterminal.words [",", ")"] := by decide
      exact Expr.opens_of_mem member signed

include restores given short follows in
theorem collectFor_takes (listed : BehindCommas (arguments.map Prod.snd) tokens) (bound : Nat)
    (enough : tokens.length < bound) :
    Takes (collectFor (nextArgument? nested) bound) tokens rest (· = arguments.map Prod.fst) := by
  induction arguments generalizing tokens bound with
  | nil =>
      obtain ⟨fewer, rfl⟩ := Nat.exists_eq_add_of_le' (Nat.zero_lt_of_lt enough)
      cases listed
      refine .before (nextArgument?_stops rest follows) ?_
      rintro _ rfl
      exact .pure rfl
  | cons argument others ih =>
      obtain ⟨fewer, rfl⟩ := Nat.exists_eq_add_of_le' (Nat.zero_lt_of_lt enough)
      cases listed with
      | @cons sign _ _ back signed behind =>
          rw [List.length_cons, List.length_append] at short enough
          have first := nextArgument?_takes restores signed (by omega)
            (given argument List.mem_cons_self) (opens_of_behindCommas behind follows)
          refine .bind first ?_
          rintro _ rfl
          have later := ih (fun other member => given other (List.mem_cons_of_mem _ member))
            (by omega) behind fewer (by omega)
          refine .after later ?_
          rintro _ rfl
          exact .pure rfl

include restores given short follows in
theorem collect_takes (listed : BehindCommas (arguments.map Prod.snd) tokens) :
    Takes (collect (nextArgument? nested)) tokens rest (· = arguments.map Prod.fst) := by
  refine .look (fun _ => rfl) fun cursor position => ?_
  refine collectFor_takes restores given short follows listed _ ?_
  rw [position, List.length_append]
  omega

include restores given short follows in
theorem arguments_takes (listed : BetweenCommas (arguments.map Prod.snd) tokens) :
    Takes (Reading.arguments nested) tokens rest (· = arguments.map Prod.fst) := by
  refine .rule ?_
  cases arguments with
  | nil =>
      cases listed
      exact .yes (asks_sees ")") follows (.pure rfl)
  | cons argument others =>
      cases listed with
      | @cons _ _ back behind =>
          have renders := given argument List.mem_cons_self
          have opens := renders.opens (back ++ rest)
          rw [← List.append_assoc] at opens
          rw [List.length_append] at short
          refine .no (asks_sees ")") opens (by decide) ?_
          rw [unless_eq]
          refine .expect opens ?_
          have behindFirst := (opens_of_behindCommas behind follows).mono
            (show Nonterminal.words [",", ")"] ⊆ expressionEnd by decide)
          refine .bind (restores _ _ _ (by omega) renders behindFirst) ?_
          rintro _ rfl
          have later := collect_takes restores
            (fun other member => given other (List.mem_cons_of_mem _ member)) (by omega) follows
            behind
          refine .after later ?_
          rintro _ rfl
          exact .pure rfl

end Arguments

theorem call_takes {callee opening closing : Token} {arguments : List (Expr × List Token)}
    (restores : Restores size nested 0 expressionEnd) (named : callee.isIdentifier = true)
    (opens : opening.spells "(" = true)
    (given : ∀ argument ∈ arguments, Renders 0 argument.1 argument.2)
    (listed : BetweenCommas (arguments.map Prod.snd) tokens) (short : tokens.length ≤ size)
    (closes : closing.spells ")" = true) :
    Takes (call nested) (callee :: opening :: (tokens ++ [closing])) rest
      (· = some (callee, arguments.map Prod.fst)) := by
  have start : Opens [.identifier] (callee :: (opening :: (tokens ++ [closing]) ++ rest)) :=
    Expr.opens_of_mem List.mem_cons_self named
  have follows : Opens (Nonterminal.words [")"]) (closing :: rest) :=
    Expr.opens_of_mem (List.mem_singleton_self _) closes
  have name : Takes identifier? [callee] (opening :: (tokens ++ [closing]) ++ rest)
      (· = some callee) := .yes asks_seesIdentifier start (.take _)
  change Takes _ ([callee] ++ ([opening] ++ (tokens ++ [closing]))) rest _
  refine .rule (.bind name ?_)
  rintro _ rfl
  refine .bind (.accept opens) fun _ _ => ?_
  refine .bind (arguments_takes restores given short follows listed) ?_
  rintro _ rfl
  exact .after (.demand closes) fun _ _ => .pure rfl

theorem group_takes {closing : Token} (restores : Restores size nested 0 expressionEnd)
    (renders : Renders 0 tree tokens) (short : tokens.length ≤ size)
    (closes : closing.spells ")" = true) :
    Takes (group nested) (tokens ++ [closing]) rest (· = tree) := by
  have member : Terminal.word ")" ∈ expressionEnd := by decide
  have follows : Opens expressionEnd (closing :: rest) := Expr.opens_of_mem member closes
  refine .bind (restores tree tokens _ short renders follows) ?_
  rintro _ rfl
  exact .after (.demand closes) fun _ _ => .pure rfl

theorem primary_restores (restores : Restores size nested 0 expressionEnd) :
    Restores (size + 1) (primary nested) 7 Nonterminal.operandEnd := by
  refine .level (by decide) ?_
  intro tree tokens rest short renders follows
  cases renders with
  | @literal _ token denotes =>
      have opens : Opens [.literal] (token :: rest) :=
        Expr.opens_of_mem (List.mem_singleton_self _) denotes
      refine .declined opens (by decide) (.no asks_seesIdentifier opens (by decide) ?_)
      refine .after (.take _) ?_
      rintro _ rfl
      have cut : Takes (cutMark token) [] rest anything :=
        fun _ position => ⟨trivial, position, rfl⟩
      exact cut.before fun _ _ => .pure rfl
  | @name _ token named =>
      have opens : Opens [.identifier] (token :: rest) :=
        Expr.opens_of_mem (List.mem_singleton_self _) named
      refine .declined opens (by decide) (.yes asks_seesIdentifier opens ?_)
      refine .askSecond (follows.anyAccepts_eq_false (by decide)) ?_
      refine .after (.yes asks_seesIdentifier opens (.take _)) ?_
      rintro _ rfl
      exact .pure rfl
  | @call _ callee opening closing tokens arguments named opens given listed closes =>
      have start : Opens [.identifier] (callee :: (opening :: (tokens ++ [closing]) ++ rest)) :=
        Expr.opens_of_mem (List.mem_singleton_self _) named
      have second : Opens [.word "("] (opening :: (tokens ++ [closing]) ++ rest) :=
        Expr.opens_of_mem (List.mem_singleton_self _) opens
      simp only [List.length_cons, List.length_append] at short
      refine .declined start (by decide) (.yes asks_seesIdentifier start (.askSecond second ?_))
      refine .after (call_takes restores named opens given listed (by omega) closes) ?_
      rintro _ rfl
      exact .pure rfl
  | @group _ _ opening closing tokens opens inside closes =>
      simp only [List.length_cons, List.length_append] at short
      exact .accepted opens (group_takes restores inside (by omega) closes)
  | negate loose _ _ => omega
  | invert loose _ _ => omega
  | @binary _ operator _ _ _ _ _ loose _ _ _ =>
      cases operator <;> exact absurd loose (by decide)

theorem negation_restores (restores : Restores size nested 0 expressionEnd) :
    Restores (size + 1) (negation nested) 6 Nonterminal.operandEnd := by
  have operand := primary_restores restores
  refine .level (by decide) ?_
  intro tree tokens rest short renders follows
  refine .look (fun _ => rfl) fun cursor position => ?_
  rcases renders.tighten with tighter | outermost
  · exact .declined (tighter.opens rest) (by decide)
      (operand tree tokens rest short tighter follows)
  · cases outermost with
    | @negate inner sign back _ signed inside =>
        rw [List.length_cons] at short
        have head : cursor.next? = some sign := next?_eq position
        refine .accepted signed (.after (operand inner back rest (by omega) inside follows) ?_)
        rintro _ rfl
        rw [head]
        exact .pure rfl
    | invert level _ _ => exact absurd level (by decide)
    | binary level _ _ _ =>
        exact absurd (BinaryOperator.mem_ofPrecedence level) List.not_mem_nil

theorem product_restores (restores : Restores size nested 0 expressionEnd) :
    Restores (size + 1) (product nested) 5 Nonterminal.product.follow :=
  .level (by decide)
    (.chain (negation_restores restores) (by decide) (by decide) (by decide) (by decide))

theorem sum_restores (restores : Restores size nested 0 expressionEnd) :
    Restores (size + 1) (sum nested) 4 Nonterminal.sum.follow :=
  .level (by decide)
    (.chain (product_restores restores) (by decide) (by decide) (by decide) (by decide))

/-- One comparison at most stands without parentheses. -/
theorem relation_restores (restores : Restores size nested 0 expressionEnd) :
    Restores (size + 1) (relation nested) 3 Nonterminal.relation.follow := by
  have operand := sum_restores restores
  refine .level (by decide) ?_
  intro tree tokens rest short renders follows
  rcases renders.tighten with tighter | outermost
  · refine .after (operand tree tokens rest short tighter (follows.mono (by decide))) ?_
    rintro _ rfl
    refine .before (extend?_stops (by decide) _ rest follows) ?_
    rintro _ rfl
    exact .pure rfl
  · cases outermost with
    | negate level _ _ => exact absurd level (by decide)
    | invert level _ _ => exact absurd level (by decide)
    | @binary operator left right sign front back level first signed second =>
        have listed : operator ∈ comparisons := BinaryOperator.mem_ofPrecedence level
        have opens : Opens (operatorWords comparisons) (sign :: (back ++ rest)) :=
          Expr.opens_of_mem (List.mem_map_of_mem listed) signed
        rw [BinaryOperator.leftPrecedence, if_pos level] at first
        rw [List.length_append, List.length_cons] at short
        refine .bind (operand left front _ (by omega) first (opens.mono (by decide))) ?_
        rintro _ rfl
        have taken := operand right back rest (by omega) second (follows.mono (by decide))
        refine .after (extend?_takes listed signed taken _) ?_
        rintro _ rfl
        exact .pure rfl

theorem inversionFor_restores (restores : Restores size nested 0 expressionEnd) (bound : Nat) :
    Restores (min bound (size + 1)) (inversionFor nested bound) 2 Nonterminal.relation.follow := by
  induction bound with
  | zero =>
      rw [Nat.zero_min]
      exact .zero
  | succ bound ih =>
      rw [Nat.add_min_add_right]
      refine .level (by decide) ?_
      intro tree tokens rest short renders follows
      refine .look (fun _ => rfl) fun cursor position => ?_
      rcases renders.tighten with tighter | outermost
      · refine .declined (tighter.opens rest) (by decide) ?_
        exact relation_restores restores tree tokens rest (by omega) tighter follows
      · cases outermost with
        | negate level _ _ => exact absurd level (by decide)
        | @invert inner sign back _ signed inside =>
            rw [List.length_cons] at short
            have head : cursor.next? = some sign := next?_eq position
            refine .accepted signed (.after (ih inner back rest (by omega) inside follows) ?_)
            rintro _ rfl
            rw [head]
            exact .pure rfl
        | binary level _ _ _ =>
            exact absurd (BinaryOperator.mem_ofPrecedence level) List.not_mem_nil

theorem inversion_restores (restores : Restores size nested 0 expressionEnd) :
    Restores (size + 1) (inversion nested) 2 Nonterminal.relation.follow := by
  intro tree tokens rest short renders follows
  refine .look (fun _ => rfl) fun cursor position => ?_
  refine inversionFor_restores restores _ tree tokens rest ?_ renders follows
  rw [position, List.length_append]
  omega

theorem conjunction_restores (restores : Restores size nested 0 expressionEnd) :
    Restores (size + 1) (conjunction nested) 1 (.word "||" :: expressionEnd) :=
  .level (by decide)
    (.chain (inversion_restores restores) (by decide) (by decide) (by decide) (by decide))

theorem expressionFor_restores (depth : Nat) :
    Restores depth (expressionFor depth) 0 expressionEnd := by
  induction depth with
  | zero => exact .zero
  | succ depth ih =>
      exact .level (by decide)
        (.chain (conjunction_restores ih) (by decide) (by decide) (by decide) (by decide))

/-- Every rendering of a tree, whatever parentheses it has, is read as the tree. -/
theorem expression_restores : Restores size expression 0 expressionEnd := by
  intro tree tokens rest short renders follows
  refine .look (fun _ => rfl) fun cursor position => ?_
  refine expressionFor_restores _ tree tokens rest ?_ renders follows
  rw [position, List.length_append]
  omega

end StackLang.Reading
