import StackLang.Proofs.Grammar.Prediction
import StackLang.Proofs.Grammar.Rendering

/-!
# Expressions render trees

Every expression of the grammar is the rendering of a tree.  No alternative in it has to
be chosen by what is ahead, so what is derived is predicted; the tree is then put
together one level of precedence after the other, the tightest first.
-/

namespace StackLang

/-- The categories that expressions are made of. -/
def Category.isOperand : Category → Bool
  | .expression | .conjunction | .inversion | .relation | .sum | .product | .negation | .primary
  | .call => true
  | _ => false

namespace Phrase

mutual

/-- Whether a phrase is made of parts of expressions, with free alternatives. -/
def isPlain : Phrase → Bool
  | .terminal _ => true
  | .category label => label.isOperand
  | .sequence parts => allPlain parts
  | .choice alternatives => allPlain alternatives && alternatives.all isFree
  | .optional phrase => phrase.isPlain
  | .many phrase => phrase.isPlain

/-- Whether all of the phrases are plain. -/
def allPlain : List Phrase → Bool
  | [] => true
  | phrase :: others => phrase.isPlain && allPlain others

end

theorem production_isPlain {label : Category} (operand : label.isOperand = true) :
    label.production.isPlain = true := by
  cases label <;> revert operand <;> decide

theorem isPlain_of_mem {phrases : List Phrase} (plain : allPlain phrases = true) :
    ∀ phrase ∈ phrases, phrase.isPlain = true := by
  induction phrases with
  | nil => simp
  | cons phrase others ih =>
      simp only [allPlain, Bool.and_eq_true] at plain
      simpa using ⟨plain.1, ih plain.2⟩

/-- In an expression whatever is derived is predicted. -/
theorem Derives.predicts {phrase : Phrase} {tokens : List Token} (derived : phrase.Derives tokens)
    (plain : phrase.isPlain = true) : phrase.Predicts tokens := by
  induction derived with
  | terminal accepted => exact .terminal accepted
  | category _ ih => exact .category (ih (production_isPlain plain))
  | done => exact .done
  | next _ _ firstIh restIh =>
      simp only [isPlain, allPlain, Bool.and_eq_true] at plain
      exact .next (firstIh plain.1) (restIh plain.2)
  | choice member _ ih =>
      simp only [isPlain, Bool.and_eq_true] at plain
      have free := List.all_eq_true.mp plain.2 _ member
      exact .choice member (isChosen_of_isFree free _) (ih (isPlain_of_mem plain.1 _ member))
  | absent => exact .absent
  | present _ ih => exact .present (ih plain)
  | none => exact .none
  | more _ _ firstIh restIh => exact .more (firstIh plain) (restIh plain)

end Phrase

namespace Expr

open Phrase

variable {size bound : Nat} {label : Category} {tokens : List Token}

theorem Renders.loosen {lower upper : Nat} {tree : Expr} (renders : Renders upper tree tokens)
    (le : lower ≤ upper) : Renders lower tree tokens := by
  cases renders with
  | literal denotes => exact .literal denotes
  | name named => exact .name named
  | call named opens given listed closes => exact .call named opens given listed closes
  | group opens inside closes => exact .group opens inside closes
  | negate loose signed inside => exact .negate (Nat.le_trans le loose) signed inside
  | invert loose signed inside => exact .invert (Nat.le_trans le loose) signed inside
  | binary loose first signed second =>
      exact .binary (Nat.le_trans le loose) first signed second

/-- What a phrase predicts, up to a length, renders a tree with a precedence. -/
def Rendered (size : Nat) (phrase : Phrase) (bound : Nat) : Prop :=
  ∀ tokens : List Token, tokens.length ≤ size → phrase.Predicts tokens →
    ∃ tree, Renders bound tree tokens

namespace Rendered

theorem category (rendered : Rendered size label.production bound) :
    Rendered size (.category label) bound :=
  fun tokens short predicted => rendered tokens short predicted.of_category

/-- An operator with the operand behind it makes a larger tree out of a left operand. -/
theorem extension {operators : List BinaryOperator} {left : Expr} {front : List Token}
    (operand : Rendered size (.category label) (bound + 1))
    (level : ∀ operator ∈ operators, operator.precedence = bound)
    (short : tokens.length ≤ size)
    (predicted : (Phrase.sequence [oneOf (operators.map BinaryOperator.symbol),
      .category label]).Predicts tokens)
    (first : ∀ operator ∈ operators, Renders operator.leftPrecedence left front) :
    ∃ whole, Renders bound whole (front ++ tokens) := by
  obtain ⟨_, back, rfl, signPredicted, rest⟩ := predicted.of_next
  obtain ⟨sign, symbol, rfl, listed, signed⟩ := signPredicted.of_oneOf
  obtain ⟨operator, member, rfl⟩ := List.mem_map.mp listed
  rw [List.length_append] at short
  obtain ⟨right, second⟩ := operand back (by omega) rest.of_last
  have same := level operator member
  exact ⟨_, .binary (Nat.le_of_eq same.symm) (first operator member) signed (same ▸ second)⟩

/-- Operands of a level are grouped to the left. -/
theorem chain (operators : List BinaryOperator)
    (operand : Rendered size (.category label) (bound + 1))
    (level : ∀ operator ∈ operators, operator.precedence = bound) (grouped : bound ≠ 3) :
    Rendered size (Phrase.chain label (operators.map BinaryOperator.symbol)) bound := by
  intro tokens short predicted
  obtain ⟨front, back, rfl, frontPredicted, rest⟩ := predicted.of_next
  rw [List.length_append] at short
  have left (operator : BinaryOperator) (member : operator ∈ operators) :
      operator.leftPrecedence = bound := by
    rw [BinaryOperator.leftPrecedence, level operator member, if_neg grouped]
  have extended : back.length ≤ size → ∀ tree front, Renders bound tree front →
      ∃ whole, Renders bound whole (front ++ back) := by
    refine rest.of_last.rounds (motive := fun _ back => back.length ≤ size → ∀ tree front,
      Renders bound tree front → ∃ whole, Renders bound whole (front ++ back)) ?_ ?_ ?_ _
      (Nat.lt_succ_self _)
    · rw [isSolid, anySolid, oneOf_isSolid, Bool.true_or]
    · intro _ _ tree front renders
      exact ⟨tree, by rwa [List.append_nil]⟩
    · intro _ item later itemPredicted _ ih short tree front renders
      rw [List.length_append] at short
      obtain ⟨larger, rendersLarger⟩ := extension operand level (by omega) itemPredicted
        fun operator member => (left operator member).symm ▸ renders
      obtain ⟨whole, rendersWhole⟩ := ih (by omega) larger (front ++ item) rendersLarger
      exact ⟨whole, by rwa [← List.append_assoc]⟩
  obtain ⟨head, renders⟩ := operand front (by omega) frontPredicted
  exact extended (by omega) head front (renders.loosen (Nat.le_succ bound))

end Rendered

/-- The arguments behind the first one. -/
theorem exists_renders_behindCommas (nested : Rendered size (.category .expression) 0)
    (short : tokens.length ≤ size)
    (predicted : (Phrase.many (.sequence [word ",", .category .expression])).Predicts tokens) :
    ∃ pairs : List (Expr × List Token), (∀ pair ∈ pairs, Renders 0 pair.1 pair.2) ∧
      BehindCommas (pairs.map Prod.snd) tokens := by
  refine predicted.rounds (motive := fun _ tokens => tokens.length ≤ size →
    ∃ pairs : List (Expr × List Token), (∀ pair ∈ pairs, Renders 0 pair.1 pair.2) ∧
      BehindCommas (pairs.map Prod.snd) tokens) rfl ?_ ?_ _ (Nat.lt_succ_self _) short
  · exact fun _ _ => ⟨[], List.forall_mem_nil _, .nil⟩
  · intro _ front back item _ ih short
    obtain ⟨_, first, rfl, signPredicted, rest⟩ := item.of_next
    obtain ⟨comma, rfl, sign⟩ := signPredicted.of_terminal
    simp only [List.length_append] at short
    obtain ⟨tree, renders⟩ := nested first (by omega) rest.of_last
    obtain ⟨pairs, given, listed⟩ := ih (by omega)
    refine ⟨(tree, first) :: pairs, List.forall_mem_cons.mpr ⟨renders, given⟩, ?_⟩
    simpa using BehindCommas.cons sign listed

theorem call_rendered (nested : Rendered size (.category .expression) 0) :
    Rendered (size + 1) (.category .call) bound := by
  refine .category ?_
  intro tokens short predicted
  obtain ⟨_, _, rfl, calleePredicted, called⟩ := predicted.of_next
  obtain ⟨_, _, rfl, openingPredicted, opened⟩ := called.of_next
  obtain ⟨inside, _, rfl, insidePredicted, closed⟩ := opened.of_next
  obtain ⟨callee, rfl, named⟩ := calleePredicted.of_terminal
  obtain ⟨opening, rfl, opens⟩ := openingPredicted.of_terminal
  obtain ⟨closing, rfl, closes⟩ := closed.of_last.of_terminal
  simp only [List.length_append, List.length_singleton] at short
  rcases insidePredicted.of_optional with rfl | given
  · exact ⟨_, .call named opens (List.forall_mem_nil _) .nil closes⟩
  · obtain ⟨first, back, rfl, firstPredicted, rest⟩ := given.of_next
    simp only [List.length_append] at short
    obtain ⟨tree, renders⟩ := nested first (by omega) firstPredicted
    obtain ⟨pairs, given, listed⟩ := exists_renders_behindCommas nested (by omega) rest.of_last
    have all : ∀ pair ∈ (tree, first) :: pairs, Renders 0 pair.1 pair.2 :=
      List.forall_mem_cons.mpr ⟨renders, given⟩
    have called : Renders bound _ _ := .call named opens all (.cons listed) closes
    exact ⟨_, by simpa using called⟩

theorem primary_rendered (nested : Rendered size (.category .expression) 0) :
    Rendered (size + 1) (.category .primary) 7 := by
  refine .category ?_
  intro tokens short predicted
  obtain ⟨alternative, member, _, inner⟩ := predicted.of_choice
  simp only [List.mem_cons, List.not_mem_nil, or_false] at member
  rcases member with rfl | rfl | rfl | rfl
  · obtain ⟨name, rfl, named⟩ := inner.of_terminal
    exact ⟨_, .name named⟩
  · exact call_rendered nested tokens short inner
  · obtain ⟨token, rfl, denotes⟩ := inner.of_terminal
    exact ⟨_, .literal denotes⟩
  · obtain ⟨_, _, rfl, openingPredicted, opened⟩ := inner.of_next
    obtain ⟨inside, _, rfl, insidePredicted, closed⟩ := opened.of_next
    obtain ⟨opening, rfl, opens⟩ := openingPredicted.of_terminal
    obtain ⟨closing, rfl, closes⟩ := closed.of_last.of_terminal
    simp only [List.length_append, List.length_singleton] at short
    obtain ⟨tree, renders⟩ := nested inside (by omega) insidePredicted
    exact ⟨tree, .group opens renders closes⟩

theorem negation_rendered (primary : Rendered size (.category .primary) 7) :
    Rendered size (.category .negation) 6 := by
  refine .category ?_
  intro tokens short predicted
  obtain ⟨front, back, rfl, frontPredicted, rest⟩ := predicted.of_next
  rw [List.length_append] at short
  obtain ⟨operand, renders⟩ := primary back (by omega) rest.of_last
  rcases frontPredicted.of_optional with rfl | signPredicted
  · exact ⟨operand, renders.loosen (by decide)⟩
  · obtain ⟨sign, rfl, signed⟩ := signPredicted.of_terminal
    exact ⟨_, .negate (Nat.le_refl 6) signed renders⟩

theorem relation_rendered (sum : Rendered size (.category .sum) 4) :
    Rendered size (.category .relation) 3 := by
  refine .category ?_
  intro tokens short predicted
  obtain ⟨front, back, rfl, frontPredicted, rest⟩ := predicted.of_next
  rw [List.length_append] at short
  obtain ⟨left, renders⟩ := sum front (by omega) frontPredicted
  rcases rest.of_last.of_optional with rfl | backPredicted
  · exact ⟨left, by simpa using renders.loosen (by decide)⟩
  · have level : ∀ operator ∈ Reading.comparisons, operator.precedence = 3 := by decide
    have first (operator : BinaryOperator) (member : operator ∈ Reading.comparisons) :
        Renders operator.leftPrecedence left front := by
      rwa [BinaryOperator.leftPrecedence, if_pos (level operator member)]
    exact Rendered.extension sum level (by omega) backPredicted first

theorem inversion_rendered (relation : Rendered size (.category .relation) 3) :
    Rendered size (.category .inversion) 2 := by
  intro tokens short predicted
  induction tokens with
  | nil => exact absurd (predicted.length_pos rfl) (Nat.lt_irrefl 0)
  | cons head tail ih =>
      obtain ⟨alternative, member, _, inner⟩ := predicted.of_category.of_choice
      simp only [List.mem_cons, List.not_mem_nil, or_false] at member
      rcases member with rfl | rfl
      · obtain ⟨_, back, split, signPredicted, rest⟩ := inner.of_next
        obtain ⟨sign, rfl, signed⟩ := signPredicted.of_terminal
        obtain ⟨rfl, rfl⟩ := List.cons.inj split
        obtain ⟨operand, renders⟩ := ih (Nat.le_of_succ_le short) rest.of_last
        exact ⟨_, .invert (Nat.le_refl 2) signed renders⟩
      · obtain ⟨tree, renders⟩ := relation _ short inner
        exact ⟨tree, renders.loosen (by decide)⟩

theorem expression_rendered (size : Nat) : Rendered size (.category .expression) 0 := by
  induction size with
  | zero =>
      intro tokens short predicted
      exact absurd (predicted.length_pos rfl) (Nat.not_lt.mpr short)
  | succ size ih =>
      have negation := negation_rendered (primary_rendered ih)
      have product : Rendered (size + 1) (.category .product) 5 :=
        .category (.chain [.mul, .div] negation (by decide) (by decide))
      have sum : Rendered (size + 1) (.category .sum) 4 :=
        .category (.chain [.add, .sub] product (by decide) (by decide))
      have inversion := inversion_rendered (relation_rendered sum)
      have conjunction : Rendered (size + 1) (.category .conjunction) 1 :=
        .category (.chain [.and] inversion (by decide) (by decide))
      exact .category (.chain [.or] conjunction (by decide) (by decide))

/-- Every expression of the grammar is the rendering of a tree. -/
theorem exists_renders_of_derives (derived : (Phrase.category .expression).Derives tokens) :
    ∃ tree, Renders 0 tree tokens :=
  expression_rendered tokens.length tokens (Nat.le_refl _) (derived.predicts rfl)

end Expr

end StackLang
