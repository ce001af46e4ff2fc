import StackLang.Proofs.Grammar.Derivation

/-!
# How phrases start

The terminals that the tokens of a phrase can start with, computed from the
grammar.  What is known about the next token in this way decides what a reader
finds there: a list of terminals that contains it accepts it, and a list that has
nothing in common with it does not.
-/

namespace StackLang

namespace Terminal

@[simp]
theorem accepts_word (text : String) (next : Option Token) :
    (word text).accepts next = next.any fun token => token.spells text := by
  cases next <;> rfl

@[simp]
theorem accepts_identifier (next : Option Token) :
    identifier.accepts next = next.any Token.isIdentifier := by
  cases next <;> rfl

@[simp]
theorem accepts_literal (next : Option Token) :
    literal.accepts next = next.any Token.isLiteral := by
  cases next <;> rfl

/-- Whether no token is both of the terminals. -/
def apart : Terminal → Terminal → Bool
  | .word one, .word other => one != other
  | .word text, .literal | .literal, .word text => text != "true" && text != "false"
  | .identifier, .identifier | .literal, .literal | .endOfInput, .endOfInput => false
  | _, _ => true

/-- Whether no token is in both lists of terminals. -/
def allApart (known tested : List Terminal) : Bool :=
  known.all fun one => tested.all fun other => one.apart other

theorem accepts_eq_false {one other : Terminal} {next : Option Token}
    (distinct : one.apart other = true) (accepted : one.accepts next = true) :
    other.accepts next = false := by
  cases next with
  | none => cases one <;> cases other <;> simp_all [accepts, apart]
  | some token =>
      cases one <;> cases other <;>
        simp_all only [accepts, apart, Token.spells, Token.isIdentifier, Token.isLiteral,
          Token.isFixed] <;>
        grind [TokenKind.isLiteral]

/-- One of the terminals is next. -/
def Opens (terminals : List Terminal) (tokens : List Token) : Prop :=
  anyAccepts terminals tokens.head? = true

namespace Opens

variable {known tested : List Terminal} {tokens : List Token}

theorem mono (opens : Opens known tokens) (within : known ⊆ tested) : Opens tested tokens := by
  obtain ⟨terminal, member, accepted⟩ := List.any_eq_true.mp opens
  exact List.any_eq_true.mpr ⟨terminal, within member, accepted⟩

/-- Where one of the terminals is not next, one of the others is. -/
theorem of_cons {terminal : Terminal} (opens : Opens (terminal :: known) tokens)
    (other : ¬Opens [terminal] tokens) : Opens known tokens := by
  simp only [Opens, anyAccepts, List.any_cons, List.any_nil, Bool.or_false, Bool.or_eq_true]
    at opens other
  exact opens.resolve_left other

/-- Terminals that are not next may be left out. -/
theorem without (opens : Opens known tokens) (excluded : anyAccepts tested tokens.head? = false) :
    Opens (known.filter (· ∉ tested)) tokens := by
  obtain ⟨terminal, member, accepted⟩ := List.any_eq_true.mp opens
  refine List.any_eq_true.mpr ⟨terminal, List.mem_filter.mpr ⟨member, ?_⟩, accepted⟩
  exact decide_eq_true fun listed => List.any_eq_false.mp excluded terminal listed accepted

theorem anyAccepts_eq_false (opens : Opens known tokens) (apart : allApart known tested = true) :
    anyAccepts tested tokens.head? = false := by
  obtain ⟨terminal, member, accepted⟩ := List.any_eq_true.mp opens
  apply List.any_eq_false.mpr
  intro other tried
  have distinct := List.all_eq_true.mp (List.all_eq_true.mp apart terminal member) other tried
  simp [accepts_eq_false distinct accepted]

end Opens

end Terminal

open Terminal (Opens)

/-- The terminals that the tokens of a category can start with. -/
def Category.first : Category → List Terminal
  | .program => .word "class" :: Nonterminal.block.first
  | .body | .statement | .block => Nonterminal.block.first
  | .member | .method | .parameters | .type | .variable => Nonterminal.type.first
  | .assignment | .call => Nonterminal.call.first
  | .print => Nonterminal.print.first
  | .read => Nonterminal.read.first
  | .giveBack => Nonterminal.giveBack.first
  | .whileLoop => Nonterminal.whileLoop.first
  | .choice => Nonterminal.choice.first
  | .doWhile => Nonterminal.doWhile.first
  | .forLoop => Nonterminal.forLoop.first
  | .switch => Nonterminal.switch.first
  | .expression | .conjunction | .inversion => Nonterminal.expression.first
  | .relation | .sum | .product | .negation => Nonterminal.negation.first
  | .primary => Nonterminal.primary.first

namespace Phrase

mutual

/-- The terminals that the tokens of a phrase can start with. -/
def first : Phrase → List Terminal
  | .terminal symbol => [symbol]
  | .category label => label.first
  | .sequence parts => sequenceFirst parts
  | .choice alternatives => choiceFirst alternatives
  | .optional phrase => phrase.first
  | .many phrase => phrase.first

/-- The terminals that a sequence can start with. -/
def sequenceFirst : List Phrase → List Terminal
  | [] => []
  | part :: parts => part.first ++ if part.isSolid then [] else sequenceFirst parts

/-- The terminals that one of the alternatives can start with. -/
def choiceFirst : List Phrase → List Terminal
  | [] => []
  | alternative :: others => alternative.first ++ choiceFirst others

end

/-- The terminals that can be next where a phrase is read, given those that can be
next behind it. -/
def opening (phrase : Phrase) (next : List Terminal) : List Terminal :=
  phrase.first ++ if phrase.isSolid then [] else next

theorem opening_last (phrase : Phrase) (next : List Terminal) :
    (sequence [phrase]).opening next = phrase.opening next := by
  simp [opening, first, sequenceFirst, isSolid, anySolid]

theorem oneOf_isSolid (texts : List String) : (oneOf texts).isSolid = true := by
  induction texts with
  | nil => rfl
  | cons text texts ih => exact ih

theorem production_first (category : Category) : category.production.first ⊆ category.first := by
  cases category <;> decide

theorem first_subset_choiceFirst {alternative : Phrase} {alternatives : List Phrase}
    (member : alternative ∈ alternatives) : alternative.first ⊆ choiceFirst alternatives := by
  induction alternatives with
  | nil => simp at member
  | cons head others ih =>
      rcases List.mem_cons.mp member with rfl | later
      · exact List.subset_append_left _ _
      · exact List.Subset.trans (ih later) (List.subset_append_right _ _)

namespace Derives

variable {phrase : Phrase} {tokens rest : List Token} {next : List Terminal}

theorem opens (derived : phrase.Derives tokens) (present : tokens ≠ []) :
    Opens phrase.first tokens := by
  induction derived with
  | terminal accepted => simpa [Opens, Terminal.anyAccepts, Phrase.first] using accepted
  | category _ ih => exact (ih present).mono (production_first _)
  | done => contradiction
  | @next part parts front back frontDerived _ frontIh backIh =>
      cases front with
      | cons token front =>
          exact (frontIh (by simp)).mono (List.subset_append_left _ _)
      | nil =>
          have empty : part.isSolid = false := by
            simpa using mt frontDerived.ne_nil (by simp)
          refine (backIh present).mono ?_
          simp [Phrase.first, sequenceFirst, empty]
  | choice member _ ih => exact (ih present).mono (first_subset_choiceFirst member)
  | absent => contradiction
  | present _ ih => exact ih present
  | none => contradiction
  | @more phrase front back _ _ frontIh backIh =>
      cases front with
      | cons token front => exact frontIh (by simp)
      | nil => exact backIh present

theorem opens_append (derived : phrase.Derives tokens) (follows : Opens next rest) :
    Opens (phrase.opening next) (tokens ++ rest) := by
  cases tokens with
  | cons token tokens => exact (derived.opens (by simp)).mono (List.subset_append_left _ _)
  | nil =>
      have empty : phrase.isSolid = false := by
        simpa using mt derived.ne_nil (by simp)
      refine Opens.mono follows ?_
      simp [opening, empty]

end Derives

end Phrase

end StackLang
