import StackLang.Grammar.Expression
import StackLang.Proofs.Grammar.Opening
import StackLang.Proofs.Grammar.TreeStandard

/-!
# Renderings of expressions

`Expr.Renders` relates a tree to every list of tokens that spells it with at least
the parentheses that precedence and grouping to the left ask for; more may stand
anywhere.  Precedences run from that of a disjunction, zero, to that of an operand
on its own, seven.  `Expr.Renders.spine` takes the operators of one precedence out
of a rendering in the order in which a loop meets them.
-/

namespace StackLang

open Terminal (Opens)

namespace BinaryOperator

/-- How tightly an operator binds. -/
def precedence : BinaryOperator → Nat
  | .or => 0
  | .and => 1
  | .greater | .less | .greaterEqual | .lessEqual | .equal | .notEqual => 3
  | .add | .sub => 4
  | .mul | .div => 5

/-- The operators of a precedence. -/
def ofPrecedence : Nat → List BinaryOperator
  | 0 => [.or]
  | 1 => [.and]
  | 3 => Reading.comparisons
  | 4 => [.add, .sub]
  | 5 => [.mul, .div]
  | _ => []

theorem mem_ofPrecedence {operator : BinaryOperator} {precedence : Nat}
    (level : operator.precedence = precedence) : operator ∈ ofPrecedence precedence := by
  subst level
  cases operator <;> decide

/-- The precedence that a left operand without parentheses has at least: operators
are grouped to the left, but one comparison is not an operand of another. -/
def leftPrecedence (operator : BinaryOperator) : Nat :=
  if operator.precedence = 3 then 4 else operator.precedence

theorem precedence_le_left (operator : BinaryOperator) :
    operator.precedence ≤ operator.leftPrecedence := by
  cases operator <;> decide

theorem symbol_injective : Function.Injective symbol := by
  intro one other same
  cases one <;> cases other <;> first | rfl | exact absurd same (by decide)

end BinaryOperator

/-- Lists of tokens one after another, each behind a comma. -/
inductive BehindCommas : List (List Token) → List Token → Prop
  | nil : BehindCommas [] []
  | cons {comma : Token} {first : List Token} {others : List (List Token)} {tokens : List Token}
      (sign : comma.spells "," = true) (rest : BehindCommas others tokens) :
      BehindCommas (first :: others) (comma :: (first ++ tokens))

/-- Lists of tokens one after another, with a comma between two of them. -/
inductive BetweenCommas : List (List Token) → List Token → Prop
  | nil : BetweenCommas [] []
  | cons {first : List Token} {others : List (List Token)} {tokens : List Token}
      (rest : BehindCommas others tokens) : BetweenCommas (first :: others) (first ++ tokens)

/-- The tokens spell the tree where an operand of the given precedence may stand. -/
inductive Expr.Renders : Nat → Expr → List Token → Prop
  | literal {bound : Nat} {token : Token} (denotes : token.isLiteral = true) :
      Renders bound (.literal token) [token]
  | name {bound : Nat} {token : Token} (named : token.isIdentifier = true) :
      Renders bound (.name token) [token]
  | call {bound : Nat} {callee opening closing : Token} {tokens : List Token}
      {arguments : List (Expr × List Token)} (named : callee.isIdentifier = true)
      (opens : opening.spells "(" = true)
      (given : ∀ argument ∈ arguments, Renders 0 argument.1 argument.2)
      (listed : BetweenCommas (arguments.map Prod.snd) tokens)
      (closes : closing.spells ")" = true) :
      Renders bound (.call callee (arguments.map Prod.fst))
        (callee :: opening :: (tokens ++ [closing]))
  | group {bound : Nat} {tree : Expr} {opening closing : Token} {tokens : List Token}
      (opens : opening.spells "(" = true) (inside : Renders 0 tree tokens)
      (closes : closing.spells ")" = true) :
      Renders bound tree (opening :: (tokens ++ [closing]))
  | negate {bound : Nat} {operand : Expr} {sign : Token} {tokens : List Token}
      (loose : bound ≤ 6) (signed : sign.spells "-" = true) (inside : Renders 7 operand tokens) :
      Renders bound (.negate sign.line operand) (sign :: tokens)
  | invert {bound : Nat} {operand : Expr} {sign : Token} {tokens : List Token}
      (loose : bound ≤ 2) (signed : sign.spells "!" = true) (inside : Renders 2 operand tokens) :
      Renders bound (.invert sign.line operand) (sign :: tokens)
  | binary {bound : Nat} {operator : BinaryOperator} {left right : Expr} {sign : Token}
      {front back : List Token} (loose : bound ≤ operator.precedence)
      (first : Renders operator.leftPrecedence left front)
      (signed : sign.spells operator.symbol = true)
      (second : Renders (operator.precedence + 1) right back) :
      Renders bound (.binary operator sign.line left right) (front ++ sign :: back)

/-- The tokens spell the tree without parentheses around it, and what is outermost in it has
just the given precedence. -/
inductive Expr.Outermost (bound : Nat) : Expr → List Token → Prop
  | negate {operand : Expr} {sign : Token} {tokens : List Token} (level : bound = 6)
      (signed : sign.spells "-" = true) (inside : Expr.Renders 7 operand tokens) :
      Outermost bound (.negate sign.line operand) (sign :: tokens)
  | invert {operand : Expr} {sign : Token} {tokens : List Token} (level : bound = 2)
      (signed : sign.spells "!" = true) (inside : Expr.Renders 2 operand tokens) :
      Outermost bound (.invert sign.line operand) (sign :: tokens)
  | binary {operator : BinaryOperator} {left right : Expr} {sign : Token}
      {front back : List Token} (level : operator.precedence = bound)
      (first : Expr.Renders operator.leftPrecedence left front)
      (signed : sign.spells operator.symbol = true) (second : Expr.Renders (bound + 1) right back) :
      Outermost bound (.binary operator sign.line left right) (front ++ sign :: back)

namespace Expr

variable {bound precedence : Nat} {tree left right whole : Expr} {sign : Token}
  {tokens front back rest : List Token}

/-- The terminals that an operand of the given precedence can start with. -/
def openings (bound : Nat) : List Terminal :=
  if bound ≤ 2 then Nonterminal.expression.first
  else if bound ≤ 6 then Nonterminal.negation.first
  else Nonterminal.primary.first

theorem openings_mono {lower upper : Nat} (le : lower ≤ upper) :
    openings upper ⊆ openings lower := by
  have widest : Nonterminal.primary.first ⊆ Nonterminal.negation.first := by decide
  have wider : Nonterminal.negation.first ⊆ Nonterminal.expression.first := by decide
  unfold openings
  repeat' split
  all_goals first | omega | assumption | exact List.Subset.refl _ | exact List.Subset.trans widest wider

theorem mem_openings_of_primary (terminal : Terminal)
    (member : terminal ∈ Nonterminal.primary.first) (bound : Nat) :
    terminal ∈ openings bound := by
  have tightest : openings (max bound 7) = Nonterminal.primary.first := by
    rw [openings, if_neg (by omega), if_neg (by omega)]
  exact openings_mono (Nat.le_max_left bound 7) (tightest ▸ member)

/-- Something of which the first token is one of the terminals. -/
theorem opens_of_mem {terminal : Terminal} {terminals : List Terminal} {token : Token}
    (member : terminal ∈ terminals) (accepted : terminal.accepts (some token) = true) :
    Opens terminals (token :: rest) :=
  List.any_eq_true.mpr ⟨terminal, member, accepted⟩

namespace Renders

theorem length_pos (renders : Renders bound tree tokens) : 0 < tokens.length := by
  cases renders <;> simp only [List.length_cons, List.length_append] <;> omega

theorem opens (renders : Renders bound tree tokens) (rest : List Token) :
    Opens (openings bound) (tokens ++ rest) := by
  induction renders generalizing rest with
  | literal denotes =>
      exact opens_of_mem (mem_openings_of_primary .literal (by decide) _) denotes
  | name named =>
      exact opens_of_mem (mem_openings_of_primary .identifier (by decide) _) named
  | call named _ _ _ _ _ =>
      exact opens_of_mem (mem_openings_of_primary .identifier (by decide) _) named
  | group opens _ _ _ =>
      exact opens_of_mem (mem_openings_of_primary (.word "(") (by decide) _) opens
  | negate loose signed _ _ =>
      have member : Terminal.word "-" ∈ openings 6 := by decide
      exact opens_of_mem (openings_mono loose member) signed
  | invert loose signed _ _ =>
      have member : Terminal.word "!" ∈ openings 2 := by decide
      exact opens_of_mem (openings_mono loose member) signed
  | @binary _ operator _ _ sign _ back loose _ _ _ leftOpens _ =>
      rw [List.append_assoc]
      exact (leftOpens _).mono
        (openings_mono (Nat.le_trans loose operator.precedence_le_left))

/-- A rendering may stand where a tighter operand is asked for, unless its outermost operator
has just the precedence asked for so far. -/
theorem tighten (renders : Renders bound tree tokens) :
    Renders (bound + 1) tree tokens ∨ Outermost bound tree tokens := by
  cases renders with
  | literal denotes => exact .inl (.literal denotes)
  | name named => exact .inl (.name named)
  | call named opens given listed closes => exact .inl (.call named opens given listed closes)
  | group opens inside closes => exact .inl (.group opens inside closes)
  | negate loose signed inside =>
      rcases Nat.lt_or_eq_of_le loose with tighter | level
      · exact .inl (.negate tighter signed inside)
      · exact .inr (.negate level signed inside)
  | invert loose signed inside =>
      rcases Nat.lt_or_eq_of_le loose with tighter | level
      · exact .inl (.invert tighter signed inside)
      · exact .inr (.invert level signed inside)
  | binary loose first signed second =>
      rcases Nat.lt_or_eq_of_le loose with tighter | level
      · exact .inl (.binary tighter first signed second)
      · exact .inr (.binary level.symm first signed (level ▸ second))

end Renders

/-- Operators of one precedence with their right operands make a larger tree out of a left
operand. -/
inductive Extends (precedence : Nat) : Expr → List Token → Expr → Prop
  | done {left : Expr} : Extends precedence left [] left
  | more {operator : BinaryOperator} {left right whole : Expr} {sign : Token}
      {front back : List Token} (level : operator.precedence = precedence)
      (signed : sign.spells operator.symbol = true)
      (operand : Renders (precedence + 1) right front)
      (others : Extends precedence (.binary operator sign.line left right) back whole) :
      Extends precedence left (sign :: (front ++ back)) whole

theorem Extends.snoc {operator : BinaryOperator} (extended : Extends precedence left front whole)
    (level : operator.precedence = precedence) (signed : sign.spells operator.symbol = true)
    (operand : Renders (precedence + 1) right back) :
    Extends precedence left (front ++ sign :: back) (.binary operator sign.line whole right) := by
  induction extended with
  | @done left =>
      have single := @Extends.more precedence operator left _ _ sign _ _ level signed operand .done
      rwa [List.append_nil] at single
  | more level' signed' operand' _ ih =>
      rw [List.cons_append, List.append_assoc]
      exact .more level' signed' operand' ih

/-- A rendering starts with a tighter operand, which the operators of its own precedence
extend. -/
theorem Renders.spine {tree : Expr} {tokens : List Token} (renders : Renders bound tree tokens)
    (chained : bound ≠ 2 ∧ bound ≠ 3 ∧ bound ≠ 6) :
    ∃ head front back, tokens = front ++ back ∧ Renders (bound + 1) head front ∧
      Extends bound head back tree := by
  rcases renders.tighten with tighter | outermost
  · exact ⟨tree, tokens, [], (List.append_nil _).symm, tighter, .done⟩
  · cases outermost with
    | negate level _ _ => exact absurd level chained.2.2
    | invert level _ _ => exact absurd level chained.1
    | @binary operator left right sign front back level first signed second =>
        have same : operator.leftPrecedence = bound := by
          rw [BinaryOperator.leftPrecedence, if_neg (level ▸ chained.2.1), level]
        obtain ⟨head, start, middle, rfl, operand, extended⟩ := (same ▸ first).spine chained
        exact ⟨head, start, middle ++ sign :: back, by rw [List.append_assoc], operand,
          extended.snoc level signed second⟩
termination_by tokens.length
decreasing_by
  subst_vars
  simp

/-! ## Which trees have renderings -/

end Expr

/-- A tree without gaps whose leaves are tokens of the right kinds. -/
def TreeStandard.spelled : TreeStandard where
  gaps := False
  name token := token.isIdentifier = true
  literal token := token.isLiteral = true
  foreseen _ := True

namespace Expr

theorem Renders.meets (renders : Renders bound tree tokens) : tree.Meets .spelled := by
  induction renders with
  | literal denotes => exact denotes
  | name named => exact named
  | call named _ _ _ _ meets =>
      refine ⟨named, allMeet_iff.mpr fun argument member => ?_⟩
      obtain ⟨pair, listed, rfl⟩ := List.mem_map.mp member
      exact meets pair listed
  | group _ _ _ meets => exact meets
  | negate _ _ _ meets => exact meets
  | invert _ _ _ meets => exact meets
  | binary _ _ _ _ first second => exact ⟨first, second⟩

/-- A token for a symbol. -/
def signToken (symbol : String) (line : Nat) : Token := ⟨symbol, .operator, line⟩

theorem signToken_spells (symbol : String) (line : Nat) :
    (signToken symbol line).spells symbol = true := by
  simp [signToken, Token.spells, Token.isFixed]

theorem exists_behindCommas (lists : List (List Token)) :
    ∃ tokens, BehindCommas lists tokens := by
  induction lists with
  | nil => exact ⟨[], .nil⟩
  | cons first others ih =>
      obtain ⟨tokens, rest⟩ := ih
      exact ⟨_, .cons (signToken_spells "," 0) rest⟩

theorem exists_betweenCommas (lists : List (List Token)) :
    ∃ tokens, BetweenCommas lists tokens := by
  cases lists with
  | nil => exact ⟨[], .nil⟩
  | cons first others =>
      obtain ⟨tokens, rest⟩ := exists_behindCommas others
      exact ⟨_, .cons rest⟩

/-- With parentheses around it, a tree may stand anywhere. -/
theorem Renders.grouped (renders : Renders 0 tree tokens) (bound : Nat) :
    ∃ tokens, Renders bound tree tokens :=
  ⟨_, .group (signToken_spells "(" 0) renders (signToken_spells ")" 0)⟩

mutual

/-- Every tree without gaps has a rendering. -/
theorem exists_renders (tree : Expr) (meets : tree.Meets .spelled) (bound : Nat) :
    ∃ tokens, Renders bound tree tokens := by
  cases tree with
  | missing => exact meets.elim
  | literal token => exact ⟨_, .literal meets⟩
  | name token => exact ⟨_, .name meets⟩
  | call callee arguments =>
      obtain ⟨pairs, rfl, given⟩ := exists_renders_arguments arguments meets.2
      obtain ⟨tokens, listed⟩ := exists_betweenCommas (pairs.map Prod.snd)
      exact ⟨_, .call meets.1 (signToken_spells "(" 0) given listed (signToken_spells ")" 0)⟩
  | negate line operand =>
      obtain ⟨tokens, inside⟩ := exists_renders operand meets 7
      exact Renders.grouped (.negate (Nat.zero_le _) (signToken_spells "-" line) inside) bound
  | invert line operand =>
      obtain ⟨tokens, inside⟩ := exists_renders operand meets 2
      exact Renders.grouped (.invert (Nat.zero_le _) (signToken_spells "!" line) inside) bound
  | binary operator line left right =>
      obtain ⟨front, first⟩ := exists_renders left meets.1 operator.leftPrecedence
      obtain ⟨back, second⟩ := exists_renders right meets.2 (operator.precedence + 1)
      exact Renders.grouped
        (.binary (Nat.zero_le _) first (signToken_spells operator.symbol line) second) bound

theorem exists_renders_arguments (arguments : List Expr) (meets : AllMeet .spelled arguments) :
    ∃ pairs : List (Expr × List Token), pairs.map Prod.fst = arguments ∧
      ∀ pair ∈ pairs, Renders 0 pair.1 pair.2 := by
  cases arguments with
  | nil => exact ⟨[], rfl, fun _ member => absurd member List.not_mem_nil⟩
  | cons argument others =>
      obtain ⟨tokens, first⟩ := exists_renders argument meets.1 0
      obtain ⟨pairs, rfl, given⟩ := exists_renders_arguments others meets.2
      exact ⟨(argument, tokens) :: pairs, rfl, List.forall_mem_cons.mpr ⟨first, given⟩⟩

end

end Expr

end StackLang
