import StackLang.Grammar.Nonterminal

/-!
# Derivations

The grammar of the language as data: every category has one production, and a
production is a phrase of terminals and categories.  `Phrase.Derives` is
derivability in the usual sense.  The terminal for literals stands for every
literal token, `true` and `false` included.
-/

namespace StackLang

/-- The categories of the grammar. -/
inductive Category where
  | program
  | member
  | method
  | parameters
  | type
  | body
  | statement
  | variable
  | assignment
  | call
  | print
  | read
  | giveBack
  | whileLoop
  | choice
  | doWhile
  | forLoop
  | switch
  | block
  | expression
  | conjunction
  | inversion
  | relation
  | sum
  | product
  | negation
  | primary
  deriving DecidableEq, Repr

/-- The right-hand side of a production. -/
inductive Phrase where
  | terminal (terminal : Terminal)
  | category (category : Category)
  | sequence (parts : List Phrase)
  | choice (alternatives : List Phrase)
  | optional (phrase : Phrase)
  | many (phrase : Phrase)

namespace Phrase

/-- A keyword, operator or delimiter. -/
def word (text : String) : Phrase := .terminal (.word text)

/-- Any name. -/
def identifier : Phrase := .terminal .identifier

/-- Any literal. -/
def literal : Phrase := .terminal .literal

/-- One of several keywords or operators. -/
def oneOf (texts : List String) : Phrase := .choice (texts.map word)

/-- A list of statements between braces. -/
def braced : Phrase := .sequence [word "\x7b", .category .body, word "\x7d"]

/-- An expression between parentheses. -/
def parenthesized : Phrase := .sequence [word "(", .category .expression, word ")"]

/-- What a clause of a switch starts with. -/
def clauseHead : Phrase :=
  .choice [.sequence [word "case", .category .expression], word "default"]

/-- A clause of a switch. -/
def clause : Phrase := .sequence [clauseHead, word ":", .category .body]

/-- Operands of a category, separated by operators. -/
def chain (operand : Category) (operators : List String) : Phrase :=
  .sequence [.category operand, .many (.sequence [oneOf operators, .category operand])]

/-- One or more phrases, separated by commas. -/
def separated (phrase : Phrase) : Phrase :=
  .sequence [phrase, .many (.sequence [word ",", phrase])]

/-- A parameter of a method. -/
def typedName : Phrase := .sequence [.category .type, identifier]

/-- The alternatives of a statement. -/
def statementForms : List Phrase :=
  [.sequence [.category .variable, word ";"],
    .sequence [.category .assignment, word ";"],
    .sequence [.category .call, word ";"],
    .sequence [.category .print, word ";"],
    .sequence [.category .read, word ";"],
    .sequence [word "break", word ";"],
    .category .giveBack,
    .category .whileLoop,
    .category .choice,
    .category .doWhile,
    .category .forLoop,
    .category .switch,
    braced,
    .sequence [.category .expression, word ";"]]

end Phrase

open Phrase in
/-- The production of a category. -/
def Category.production : Category → Phrase
  | .program =>
      .choice [braced,
        .sequence [word "class", identifier, word "\x7b", .many (.category .member), word "\x7d"],
        .category .body]
  | .member => .choice [.category .method, .sequence [.category .variable, word ";"]]
  | .method =>
      .sequence [.category .type, identifier, word "(", .category .parameters, word ")", braced]
  | .parameters => .optional (separated typedName)
  | .type => oneOf ["int", "float", "void", "char", "string", "boolean"]
  | .body => .many (.category .statement)
  | .statement => .choice statementForms
  | .variable =>
      .sequence [.category .type, identifier,
        .optional (.sequence [word "=", .category .expression])]
  | .assignment =>
      .choice [
        .sequence [identifier, oneOf ["=", "+=", "-=", "*=", "/="], .category .expression],
        .sequence [identifier, oneOf ["++", "--"]]]
  | .call =>
      .sequence [identifier, word "(", .optional (separated (.category .expression)), word ")"]
  | .print =>
      .sequence [oneOf ["println", "print"], word "(", .optional (.category .expression),
        word ")"]
  | .read => .sequence [word "inputln", word "(", identifier, word ")"]
  | .giveBack => .sequence [word "return", .optional (.category .expression), word ";"]
  | .whileLoop => .sequence [word "while", parenthesized, .category .block]
  | .choice =>
      .sequence [word "if", parenthesized, .category .block,
        .optional (.sequence [word "else", .choice [.category .choice, .category .block]])]
  | .doWhile =>
      .sequence [word "do", .category .block, word "while", parenthesized, word ";"]
  | .forLoop =>
      .sequence [word "for", word "(",
        .optional (.choice [.category .variable, .category .assignment]), word ";",
        .optional (.category .expression), word ";", .optional (.category .assignment), word ")",
        .category .block]
  | .switch =>
      .sequence [word "switch", parenthesized, word "\x7b", .many clause, word "\x7d"]
  | .block => .choice [braced, .category .statement]
  | .expression => chain .conjunction ["||"]
  | .conjunction => chain .inversion ["&&"]
  | .inversion =>
      .choice [.sequence [word "!", .category .inversion], .category .relation]
  | .relation =>
      .sequence [.category .sum,
        .optional (.sequence [oneOf [">", "<", ">=", "<=", "==", "!="], .category .sum])]
  | .sum => chain .product ["+", "-"]
  | .product => chain .negation ["*", "/"]
  | .negation => .sequence [.optional (word "-"), .category .primary]
  | .primary => .choice [identifier, .category .call, literal, parenthesized]

/-- The token lists that a phrase stands for. -/
inductive Phrase.Derives : Phrase → List Token → Prop where
  | terminal {terminal : Terminal} {token : Token} :
      terminal.accepts (some token) = true → Derives (.terminal terminal) [token]
  | category {category : Category} {tokens : List Token} :
      Derives category.production tokens → Derives (.category category) tokens
  | done : Derives (.sequence []) []
  | next {part : Phrase} {parts : List Phrase} {first rest : List Token} :
      Derives part first → Derives (.sequence parts) rest →
      Derives (.sequence (part :: parts)) (first ++ rest)
  | choice {alternative : Phrase} {alternatives : List Phrase} {tokens : List Token} :
      alternative ∈ alternatives → Derives alternative tokens →
      Derives (.choice alternatives) tokens
  | absent {phrase : Phrase} : Derives (.optional phrase) []
  | present {phrase : Phrase} {tokens : List Token} :
      Derives phrase tokens → Derives (.optional phrase) tokens
  | none {phrase : Phrase} : Derives (.many phrase) []
  | more {phrase : Phrase} {first rest : List Token} :
      Derives phrase first → Derives (.many phrase) rest →
      Derives (.many phrase) (first ++ rest)

namespace Phrase

theorem derives_word {text : String} {token : Token} (spelled : token.spells text = true) :
    Derives (word text) [token] :=
  .terminal spelled

/-- A part behind others. -/
theorem derives_snoc {parts : List Phrase} {last : Phrase} {front back : List Token}
    (derived : (sequence parts).Derives front) (ended : last.Derives back) :
    (sequence (parts ++ [last])).Derives (front ++ back) := by
  induction parts generalizing front with
  | nil =>
      cases derived
      simpa using Derives.next ended .done
  | cons part parts ih =>
      cases derived with
      | next first rest =>
          rw [List.append_assoc]
          exact .next first (ih rest)

/-- What a part behind others stands for. -/
theorem Derives.of_snoc {parts : List Phrase} {last : Phrase} {tokens : List Token}
    (derived : (sequence (parts ++ [last])).Derives tokens) :
    ∃ front back, tokens = front ++ back ∧ (sequence parts).Derives front ∧ last.Derives back := by
  induction parts generalizing tokens with
  | nil =>
      cases derived with
      | next ended rest =>
          cases rest
          exact ⟨[], _, by rw [List.append_nil, List.nil_append], .done, ended⟩
  | cons part parts ih =>
      cases derived with
      | next first rest =>
          obtain ⟨front, back, rfl, inner, ended⟩ := ih rest
          exact ⟨_, back, (List.append_assoc ..).symm, .next first inner, ended⟩

/-- What stands between two words. -/
theorem Derives.of_enclosed {opening closing : String} {parts : List Phrase} {tokens : List Token}
    (derived : (sequence (word opening :: (parts ++ [word closing]))).Derives tokens) :
    ∃ opener inner closer, tokens = opener :: (inner ++ [closer]) ∧
      opener.spells opening = true ∧ (sequence parts).Derives inner := by
  cases derived with
  | next first rest =>
      obtain ⟨inner, back, rfl, middle, last⟩ := rest.of_snoc
      cases first with
      | terminal opens =>
          cases last with
          | terminal _ => exact ⟨_, inner, _, rfl, opens, middle⟩

mutual

/-- Whether a phrase derives at least one token, judged by the categories in it. -/
def isSolid : Phrase → Bool
  | .terminal _ => true
  | .category label => label ∉ [Category.program, .parameters, .body]
  | .sequence parts => anySolid parts
  | .choice alternatives => allSolid alternatives
  | .optional _ => false
  | .many _ => false

/-- Whether one of the phrases is solid. -/
def anySolid : List Phrase → Bool
  | [] => false
  | part :: parts => part.isSolid || anySolid parts

/-- Whether all of the phrases are solid. -/
def allSolid : List Phrase → Bool
  | [] => true
  | alternative :: others => alternative.isSolid && allSolid others

end

theorem production_isSolid {category : Category}
    (solid : (Phrase.category category).isSolid = true) :
    category.production.isSolid = true := by
  cases category <;> revert solid <;> decide

theorem isSolid_of_mem {alternatives : List Phrase} (solid : allSolid alternatives = true) :
    ∀ alternative ∈ alternatives, alternative.isSolid = true := by
  induction alternatives with
  | nil => simp
  | cons alternative others ih =>
      simp only [allSolid, Bool.and_eq_true] at solid
      simpa using ⟨solid.1, ih solid.2⟩

/-- What a solid phrase derives is not empty. -/
theorem Derives.ne_nil {phrase : Phrase} {tokens : List Token}
    (derived : phrase.Derives tokens) (solid : phrase.isSolid = true) : tokens ≠ [] := by
  induction derived with
  | terminal => simp
  | category _ ih => exact ih (production_isSolid solid)
  | done => simp [isSolid, anySolid] at solid
  | next _ _ firstIh restIh =>
      simp only [isSolid, anySolid, Bool.or_eq_true] at solid
      rcases solid with first | rest
      · simp [firstIh first]
      · simp [restIh rest]
  | choice member _ ih => exact ih (isSolid_of_mem solid _ member)
  | absent => simp [isSolid] at solid
  | present => simp [isSolid] at solid
  | none => simp [isSolid] at solid
  | more => simp [isSolid] at solid

end Phrase

end StackLang
