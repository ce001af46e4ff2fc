import StackLang.Proofs.Completeness.Assignment
import StackLang.Proofs.Grammar.Occurrence
import StackLang.Proofs.Grammar.Rendered

/-!
# Statements are read without errors

A statement that ends with a semicolon or a brace is read up to that end, whatever is next.
One that ends with a block may be followed by an `else` that a choice inside of it takes:
`Absorbs` says that the tokens still are the phrase with the `else` and a block behind them,
and `Settles` that a reader stops in front of every `else` that cannot be absorbed.  So the
derivation that gives an `else` to an outer choice is exchanged for the one that the reader
follows.
-/

namespace StackLang.Reading

open Phrase
open Terminal (Opens allApart)
open Nonterminal (words)

variable {α β : Type} {size : Nat} {next behind : List Terminal} {phrase head : Phrase}
  {parts : List Phrase} {tokens rest : List Token} {symbol : String}

/-! ## Declarations and assignments -/

theorem typeName_meets :
    Meets size typeName (.category .type) next fun type? => ∃ type, type? = some type := by
  refine .category (.rule ?_)
  intro tokens rest _ predicted _
  obtain ⟨token, text, rfl, listed, spelled⟩ := predicted.of_oneOf
  obtain ⟨type, known⟩ := Option.isSome_iff_exists.mp (ofText?_isSome listed)
  refine .look (fun _ => rfl) fun cursor position => ?_
  rw [next?_eq position]
  refine .after (.take _) fun _ _ => .pure ⟨type, ?_⟩
  rw [value_of_spells spelled, known]

theorem constant?_looks : Looks constant? := by
  intro before
  cases before with
  | mk rest depth trace errors switches stuck => cases rest <;> rfl

theorem declaration_meets :
    Meets size declaration (.category .variable) expressionEnd anything := by
  refine .category (.rule (.part typeName_meets (List.Subset.refl _) ?_))
  rintro _ ⟨type, rfl⟩
  refine .part .identifier? (List.Subset.refl _) ?_
  rintro _ ⟨name, rfl⟩
  refine .optional (.last (.shrink (.acceptedUnless ?initialized))) ?bare
  case initialized =>
    refine .yes (asks_seesStart _) (by decide) (.look constant?_looks fun constant => ?_)
    exact .part foreseen_meets (by decide) fun _ _ => .done trivial
  case bare => exact .declinedUnless (by decide) (.done trivial)

/-- What an assignment is made of. -/
theorem exists_assignment (predicted : (Phrase.category .assignment).Predicts tokens) :
    ∃ target sign operator value, tokens = target :: sign :: value ∧
      target.isIdentifier = true ∧ sign.spells (AssignmentOperator.symbol operator) = true ∧
      (operator.step? = none ∧ (Phrase.category .expression).Predicts value ∨
        operator.step? ≠ none ∧ value = []) := by
  have storing : ∀ text ∈ ["=", "+=", "-=", "*=", "/="],
      ∃ operator ∈ AssignmentOperator.all, operator.symbol = text ∧ operator.step? = none := by
    decide
  have stepping : ∀ text ∈ ["++", "--"],
      ∃ operator ∈ AssignmentOperator.all, operator.symbol = text ∧ operator.step? ≠ none := by
    decide
  obtain ⟨form, listed, _, inside⟩ := predicted.of_category.of_choice
  simp only [List.mem_cons, List.not_mem_nil, or_false] at listed
  rcases listed with rfl | rfl
  · obtain ⟨_, back, rfl, name, others⟩ := inside.of_next
    obtain ⟨_, value, rfl, operation, last⟩ := others.of_next
    obtain ⟨target, rfl, named⟩ := name.of_terminal
    obtain ⟨sign, text, rfl, known, spelled⟩ := operation.of_oneOf
    obtain ⟨operator, -, rfl, stores⟩ := storing text known
    exact ⟨target, sign, operator, value, rfl, named, spelled, .inl ⟨stores, last.of_last⟩⟩
  · obtain ⟨_, back, rfl, name, operation⟩ := inside.of_next
    obtain ⟨target, rfl, named⟩ := name.of_terminal
    obtain ⟨sign, text, rfl, known, spelled⟩ := operation.of_last.of_oneOf
    obtain ⟨operator, -, rfl, steps⟩ := stepping text known
    exact ⟨target, sign, operator, [], rfl, named, spelled, .inr ⟨steps, rfl⟩⟩

theorem assignment_meets :
    Meets size assignment (.category .assignment) expressionEnd anything := by
  intro tokens rest short predicted follows
  obtain ⟨target, sign, operator, value, rfl, named, signed, ⟨stores, stored⟩ | ⟨steps, rfl⟩⟩ :=
    exists_assignment predicted
  · refine assignment_takes named signed ?_
    rw [stores]
    have read : Meets size foreseen (.category .expression) expressionEnd anything :=
      foreseen_meets
    have taken := read value rest (by simp at short; omega) stored follows
    exact .yes (asks_seesStart _) (stored.opens_append follows)
      (.after taken fun _ _ => .pure trivial)
  · obtain ⟨step, stepped⟩ := Option.ne_none_iff_exists'.mp steps
    exact (step_takes named signed stepped).imp fun _ _ => trivial

/-! ## Simple statements -/

theorem Meets.unlessSees {reader : Reading α}
    (meets : Meets size reader phrase [.word symbol] anything)
    (apart : allApart (phrase.opening [.word symbol]) [.word symbol] = true) :
    Meets size (unlessSees symbol reader) (.optional phrase) [.word symbol] anything := by
  refine .only (.optional (.last ?present) ?absent)
  case present => exact .no (asks_sees symbol) apart meets.void
  case absent => exact .yes (asks_sees symbol) (List.Subset.refl _) (.done trivial)

theorem print_meets : Meets size print (.category .print) next anything := by
  refine .category (.rule (.part (.take _ ?_) (List.Subset.refl _) ?_))
  · intro tokens predicted
    obtain ⟨token, _, rfl, _⟩ := predicted.of_oneOf
    exact ⟨token, rfl⟩
  · rintro _ ⟨keyword, rfl⟩
    refine .shrink (.acceptedUnless ?_)
    have value : Meets size expression (.category .expression) [.word ")"] anything :=
      expression_meets.mono (Nat.le_refl _) (by decide)
    refine .part (value.unlessSees (by decide)) (List.Subset.refl _) fun _ _ => ?_
    exact .part .demand (List.Subset.refl _) fun _ _ => .done trivial

theorem read_meets : Meets size read (.category .read) next anything := by
  refine .category (.rule (.part .keyword (List.Subset.refl _) fun _ _ => ?_))
  refine .shrink (.acceptedUnless (.part .identifier? (List.Subset.refl _) ?_))
  rintro _ ⟨target, rfl⟩
  exact .part .demand (List.Subset.refl _) fun _ _ => .done trivial

theorem terminate_meets {complaint : Complaint} :
    Meets size (terminate complaint) (word ";") next anything :=
  .demand

theorem leave_meets : Meets size leave (.sequence [word "break", word ";"]) next anything := by
  refine .look (fun _ => rfl) fun line => .part .keyword (List.Subset.refl _) fun _ _ => ?_
  exact .part terminate_meets (List.Subset.refl _) fun _ _ => .done trivial

theorem returned_meets :
    Meets size returned (.optional (.category .expression)) [.word ";"] anything := by
  refine .only (.optional (.no (asks_sees ";") (by decide) ?value) ?nothing)
  case value =>
    refine .yes (asks_seesStart _) (by decide) ?_
    exact .part expression_meets (by decide) fun _ _ => .done trivial
  case nothing => exact .yes (asks_sees ";") (List.Subset.refl _) (.done trivial)

theorem giveBack_meets : Meets size giveBack (.category .giveBack) next anything := by
  refine .category (.rule (.look (fun _ => rfl) fun line => ?_))
  refine .part .keyword (List.Subset.refl _) fun _ _ => ?_
  refine .part returned_meets (List.Subset.refl _) fun value _ => ?_
  exact .part terminate_meets (List.Subset.refl _) fun _ _ => .done trivial

theorem terminated_meets {complaint : Complaint} {statement : Reading Statement}
    (meets : Meets size statement phrase behind anything) (within : [.word ";"] ⊆ behind) :
    Meets size (terminated complaint statement) (.sequence [phrase, word ";"]) next anything :=
  .part meets within fun _ _ =>
    .part terminate_meets (List.Subset.refl _) fun _ _ => .done trivial

/-! ## Conditions and headers -/

theorem demandForeseen_meets {repair : Reading Unit} :
    Meets size (demandForeseen repair) (.category .expression) expressionEnd anything :=
  .yes (asks_seesStart _) (by decide) foreseen_meets

theorem condition_meets (form : ConditionForm) :
    Meets size (condition form) parenthesized next anything := by
  refine .part .demand (List.Subset.refl _) fun _ _ => ?_
  refine .part demandForeseen_meets (show [Terminal.word ")"] ⊆ expressionEnd by decide)
    fun value _ => ?_
  exact .part .demand (List.Subset.refl _) fun _ _ => .done trivial

theorem headerSeparator_meets {complaint : Complaint} :
    Meets size (headerSeparator complaint) (word ";") next anything :=
  .demand

theorem closeHeader_meets {complaint : Complaint} :
    Meets size (closeHeader complaint) (word ")") next anything :=
  .demand

theorem loopStart_meets :
    Meets size loopStart (.optional (.choice [.category .variable, .category .assignment]))
      [.word ";"] anything := by
  have declared : Meets size declaration (.category .variable) [.word ";"] anything :=
    declaration_meets.mono (Nat.le_refl _) (by decide)
  have assigned : Meets size assignment (.category .assignment) [.word ";"] anything :=
    assignment_meets.mono (Nat.le_refl _) (by decide)
  refine .only (.optional (.choiceFirst ?present) ?absent)
  case present =>
    simp only [List.forall_mem_cons, List.not_mem_nil, false_imp_iff, implies_true, and_true]
    constructor
    · exact .yes (asks_seesStart _) (by decide) (.last declared.void)
    · exact .no (asks_seesStart _) (by decide)
        (.yes asks_seesIdentifier (by decide) (.last assigned.void))
  case absent =>
    exact .no (asks_seesStart _) (by decide) (.no asks_seesIdentifier (by decide) (.done trivial))

theorem loopStep_meets :
    Meets size loopStep (.optional (.category .assignment)) [.word ")"] anything := by
  have assigned : Meets size assignment (.category .assignment) [.word ")"] anything :=
    assignment_meets.mono (Nat.le_refl _) (by decide)
  refine .only (.optional (.yes asks_seesIdentifier (by decide) (.last assigned)) ?_)
  exact .no asks_seesIdentifier (by decide) (.done trivial)

/-! ## An else behind a block -/

/-- What can be next behind a list of statements. -/
def bodyEnd : List Terminal := .endOfInput :: words ["\x7d", "case", "default"]

/-- What can be next behind a statement, an `else` apart. -/
def statementEnd : List Terminal := Nonterminal.block.first ++ bodyEnd

/-- With an `else` and a block behind them, the tokens still are the phrase. -/
def Absorbs (phrase : Phrase) (tokens : List Token) : Prop :=
  ∀ separator others, separator.spells "else" = true →
    (Phrase.category .block).Predicts others → phrase.Predicts (tokens ++ separator :: others)

/-- The reader takes all tokens that the phrase predicts, up to a number of them, in front of
what can be next behind a statement, and in front of an `else` that they cannot absorb. -/
def Settles (size : Nat) (reader : Reading α) (phrase : Phrase) : Prop :=
  ∀ tokens rest, tokens.length ≤ size → phrase.Predicts tokens →
    Opens (.word "else" :: statementEnd) rest →
    (Opens [.word "else"] rest → ¬Absorbs phrase tokens) → Takes reader tokens rest anything

theorem Absorbs.category {label : Category} (absorbs : Absorbs label.production tokens) :
    Absorbs (.category label) tokens :=
  fun separator others spelled block => .category (absorbs separator others spelled block)

theorem Absorbs.part {front : List Token} (predicted : head.Predicts front)
    (absorbs : Absorbs (.sequence parts) tokens) :
    Absorbs (.sequence (head :: parts)) (front ++ tokens) := by
  intro separator others spelled block
  rw [List.append_assoc]
  exact .next predicted (absorbs separator others spelled block)

theorem Absorbs.last (absorbs : Absorbs phrase tokens) : Absorbs (.sequence [phrase]) tokens := by
  intro separator others spelled block
  have whole := Predicts.next (absorbs separator others spelled block) .done
  rwa [List.append_nil] at whole

theorem Absorbs.choice {alternative : Phrase} {alternatives : List Phrase}
    (member : alternative ∈ alternatives) (free : alternative.isFree = true)
    (absorbs : Absorbs alternative tokens) : Absorbs (.choice alternatives) tokens :=
  fun separator others spelled block =>
    .choice member (isChosen_of_isFree free _) (absorbs separator others spelled block)

theorem not_opens_else (follows : Opens statementEnd rest) : ¬Opens [.word "else"] rest := by
  have apart : allApart statementEnd [.word "else"] = true := by decide
  exact ne_true_of_eq_false (follows.anyAccepts_eq_false apart)

namespace Settles

variable {reader : Reading α} {following : α → Reading β} {good : α → Prop} {label : Category}

/-- What is read whatever follows. -/
theorem of_meets (meets : Meets size reader phrase (.word "else" :: statementEnd) good) :
    Settles size reader phrase :=
  fun tokens rest short predicted follows _ =>
    (meets tokens rest short predicted follows).imp fun _ _ => trivial

theorem meets (settles : Settles size reader phrase) (within : next ⊆ statementEnd) :
    Meets size reader phrase next anything := by
  intro tokens rest short predicted follows
  have ends := follows.mono within
  refine settles tokens rest short predicted (ends.mono (List.subset_cons_self _ _)) ?_
  exact fun other => absurd other (not_opens_else ends)

theorem rule {nonterminal : Nonterminal} (inside : Settles size reader phrase) :
    Settles size (Reading.rule nonterminal reader) phrase :=
  fun tokens rest short predicted follows ended =>
    .rule (inside tokens rest short predicted follows ended)

theorem category (inside : Settles size reader label.production) :
    Settles size reader (.category label) :=
  fun tokens rest short predicted follows ended =>
    inside tokens rest short predicted.of_category follows fun other absorbs =>
      ended other absorbs.category

theorem map {function : α → β} (settles : Settles size reader phrase) :
    Settles size (do return function (← reader)) phrase :=
  fun tokens rest short predicted follows ended =>
    .after (settles tokens rest short predicted follows ended) fun _ _ => .pure trivial

theorem last (settles : Settles size reader phrase) : Settles size reader (.sequence [phrase]) :=
  fun tokens rest short predicted follows ended =>
    settles tokens rest short predicted.of_last follows fun other absorbs =>
      ended other absorbs.last

theorem part (first : Meets size reader head behind good)
    (within : (Phrase.sequence parts).opening (.word "else" :: statementEnd) ⊆ behind)
    (remaining : ∀ result, good result → Settles size (following result) (.sequence parts)) :
    Settles size (reader >>= following) (.sequence (head :: parts)) := by
  intro tokens rest short predicted follows ended
  obtain ⟨front, back, rfl, frontPredicted, backPredicted⟩ := predicted.of_next
  rw [List.length_append] at short
  refine .bind (first front _ (by omega) frontPredicted ?_) fun result holds => ?_
  · exact (backPredicted.opens_append follows).mono within
  · refine remaining result holds back rest (by omega) backPredicted follows fun other absorbs => ?_
    exact ended other (absorbs.part frontPredicted)

/-- The keyword in front leaves less for the others. -/
theorem keyword {remaining : Reading α} (settles : Settles size remaining (.sequence parts)) :
    Settles (size + 1) (do Reading.keyword symbol; remaining)
      (.sequence (word symbol :: parts)) := by
  intro tokens rest short predicted follows ended
  obtain ⟨_, back, rfl, keywordPredicted, backPredicted⟩ := predicted.of_next
  obtain ⟨token, rfl, _⟩ := keywordPredicted.of_terminal
  have taken : Takes (Reading.keyword symbol) [token] (back ++ rest) anything :=
    .after .skip fun _ _ => .log _
  refine .bind taken fun _ _ => ?_
  refine settles back rest (by simp at short; omega) backPredicted follows fun other absorbs => ?_
  exact ended other (absorbs.part keywordPredicted)

end Settles

/-! ## Control constructs -/

variable {block statement : Reading Statement} {body : Reading (List Statement)}

theorem whileLoop_settles (settles : Settles size block (.category .block)) :
    Settles (size + 1) (whileLoop block) (.category .whileLoop) :=
  .category (.rule (.keyword (.part (condition_meets _) (List.Subset.refl _) fun _ _ =>
    .last settles.map)))

theorem forLoop_settles (settles : Settles size block (.category .block)) :
    Settles (size + 1) (forLoop block) (.category .forLoop) := by
  have condition : Meets size foreseen (.category .expression) [.word ";"] anything :=
    foreseen_meets.mono (Nat.le_refl _) (by decide)
  refine .category (.rule (.keyword (.part .demand (List.Subset.refl _) fun _ _ => ?_)))
  refine .part loopStart_meets (List.Subset.refl _) fun start _ => ?_
  refine .part headerSeparator_meets (List.Subset.refl _) fun _ _ => ?_
  refine .part (condition.unlessSees (by decide)) (List.Subset.refl _) fun condition _ => ?_
  refine .part headerSeparator_meets (List.Subset.refl _) fun _ _ => ?_
  refine .part loopStep_meets (List.Subset.refl _) fun step _ => ?_
  exact .part closeHeader_meets (List.Subset.refl _) fun _ _ => .last settles.map

theorem repeatKeyword_meets : Meets size repeatKeyword (word "while") next (· = true) := by
  refine .only (.shrink (.accepted ?_))
  exact .done rfl

theorem doWhile_meets (settles : Settles size block (.category .block)) :
    Meets (size + 1) (doWhile block) (.category .doWhile) next anything := by
  refine .category (.rule (.solidPart .keyword rfl (List.Subset.refl _) fun _ _ => ?_))
  refine .part (settles.meets (show [Terminal.word "while"] ⊆ statementEnd by decide))
    (List.Subset.refl _) fun body _ => ?_
  refine .part repeatKeyword_meets (List.Subset.refl _) ?_
  rintro _ rfl
  refine .part (condition_meets _) (List.Subset.refl _) fun condition _ => ?_
  exact .part terminate_meets (List.Subset.refl _) fun _ _ => .done trivial

/-! ### Choices -/

/-- The branches of a choice. -/
def branchParts : List Phrase :=
  [.category .block,
    .optional (.sequence [word "else", .choice [.category .choice, .category .block]])]

/-- Read the branches of a choice. -/
def branches (block : Reading Statement) (condition : Foreseen) : Reading Statement := do
  let yes ← block
  if ← accept "else" then return .ifElse condition yes (← block)
  return .ifThen condition yes

theorem choice_eq (block : Reading Statement) :
    choice block = rule .choice (do
      keyword "if"
      let condition ← condition ⟨.choiceOpen, .choiceCondition, .choiceClose⟩
      branches block condition) :=
  rfl

/-- A choice behind an `else` is a block. -/
theorem predicts_block
    (predicted : (Phrase.choice [.category .choice, .category .block]).Predicts tokens) :
    (Phrase.category .block).Predicts tokens := by
  obtain ⟨alternative, listed, _, inside⟩ := predicted.of_choice
  simp only [List.mem_cons, List.not_mem_nil, or_false] at listed
  rcases listed with rfl | rfl
  · have statement : (Phrase.category .statement).Predicts tokens :=
      .category (.choice (by simp [statementForms]) rfl inside)
    exact .category (.choice (by simp) rfl statement)
  · exact inside

/-- A single branch absorbs an `else`. -/
theorem absorbs_branch (predicted : (Phrase.category .block).Predicts tokens) :
    Absorbs (.sequence branchParts) tokens := by
  intro separator others spelled block
  have keyword : (word "else").Predicts [separator] := .terminal spelled
  have alternative : (Phrase.choice [.category .choice, .category .block]).Predicts others :=
    .choice (by simp) rfl block
  have behind := Predicts.next keyword (.next alternative .done)
  have whole := Predicts.next predicted (.next (.present behind) .done)
  simpa [branchParts] using whole

section Branches

variable {condition : Foreseen} (settles : Settles size block (.category .block))
include settles

/-- A single branch is read if no `else` is next. -/
theorem branch_takes (short : tokens.length ≤ size)
    (predicted : (Phrase.category .block).Predicts tokens) (ends : Opens statementEnd rest) :
    Takes (branches block condition) tokens rest anything := by
  have yes := settles.meets (List.Subset.refl _) tokens rest short predicted ends
  exact .after yes fun _ _ => .declined ends (by decide) (.pure trivial)

theorem branches_settles : Settles size (branches block condition) (.sequence branchParts) := by
  intro tokens rest short predicted follows ended
  -- No `else` is next behind tokens that are a single branch, however they were derived.
  have single (only : (Phrase.category .block).Predicts tokens) :
      Takes (branches block condition) tokens rest anything := by
    refine branch_takes settles short only (follows.of_cons fun other => ?_)
    exact ended other (absorbs_branch only)
  obtain ⟨yes, back, rfl, yesPredicted, backPredicted⟩ := predicted.of_next
  rcases backPredicted.of_last.of_optional with rfl | present
  · rw [List.append_nil] at single ⊢
    exact single yesPredicted
  · obtain ⟨_, no, rfl, separatorPredicted, noPredicted⟩ := present.of_next
    obtain ⟨separator, rfl, spelled⟩ := separatorPredicted.of_terminal
    have noBlock := predicts_block noPredicted.of_last
    by_cases absorbs : Absorbs (.category .block) yes
    · exact single (absorbs separator no spelled noBlock)
    · have other : Opens (.word "else" :: statementEnd) ([separator] ++ no ++ rest) :=
        List.any_eq_true.mpr ⟨_, List.mem_cons_self, spelled⟩
      simp only [List.length_append, List.length_singleton] at short
      refine .bind (settles yes _ (by omega) yesPredicted other fun _ => absorbs) fun _ _ => ?_
      refine .accepted spelled (.after (settles no rest (by omega) noBlock follows ?_) ?_)
      · intro next noAbsorbs
        refine ended next fun later others laterSpelled block => ?_
        have longer := noAbsorbs later others laterSpelled block
        simpa using absorbs_branch yesPredicted separator _ spelled longer
      · exact fun _ _ => .pure trivial

theorem choice_settles : Settles (size + 1) (choice block) (.category .choice) := by
  rw [choice_eq]
  exact .category (.rule (.keyword (.part (condition_meets _) (List.Subset.refl _) fun _ _ =>
    branches_settles settles)))

end Branches

/-! ### Switches -/

theorem caseValue_meets : Meets size caseValue (.category .expression) expressionEnd anything :=
  .yes (asks_seesStart _) (by decide) foreseen_meets.void

/-- What can be next behind a clause of a switch. -/
abbrev clauseEnd : List Terminal := words ["case", "default", "\x7d"]

theorem clause?_stops (rest : List Token) (follows : Opens (words ["\x7d"]) rest) :
    Takes (clause? body) [] rest (· = none) := by
  refine .ask (asks_sees "case") (follows.anyAccepts_eq_false (by decide)) ?_
  refine .ask (asks_sees "default") (follows.anyAccepts_eq_false (by decide)) ?_
  refine .ask asks_atEnd (follows.anyAccepts_eq_false (by decide)) ?_
  exact .ask (asks_sees "\x7d") follows (.pure rfl)

section Clauses

variable (meets : Meets size body (.category .body) bodyEnd anything)
include meets

theorem clauseFrom_meets (test : Option Foreseen) :
    Meets size (clauseFrom body test) (.sequence [word ":", .category .body]) clauseEnd anything :=
  .part .demand (List.Subset.refl _) fun _ _ =>
    .last (meets.mono (Nat.le_refl _) (show clauseEnd ⊆ bodyEnd by decide)).void

theorem clause?_meets :
    Meets size (clause? body) clause clauseEnd fun clause? => ∃ clause, clause? = some clause := by
  have behind (test : Option Foreseen) : Meets size
      (do return some (some (← clauseFrom body test))) (.sequence [word ":", .category .body])
      clauseEnd fun clause? => ∃ clause, clause? = some clause :=
    (clauseFrom_meets meets test).map fun _ _ => ⟨_, rfl⟩
  refine .choiceFirst ?_
  simp only [List.forall_mem_cons, List.not_mem_nil, false_imp_iff, implies_true, and_true]
  constructor
  · refine .flatten (.affirm (asks_sees "case") (List.Subset.refl _) ?_)
    refine .deny (asks_sees "default") (by decide) (.shrink (.consume ?_))
    exact .part caseValue_meets (by decide) fun test _ => behind test
  · refine .deny (asks_sees "case") (by decide) ?_
    refine .affirm (asks_sees "default") (List.Subset.refl _) (.shrink (.consume ?_))
    exact behind none

theorem switch_meets : Meets (size + 1) (switch body) (.category .switch) next anything := by
  refine .category (.rule (.look (fun _ => rfl) fun line => ?_))
  refine .solidPart .keyword rfl (List.Subset.refl _) fun _ _ => .flatten ?_
  refine .part .demand (List.Subset.refl _) fun _ _ => ?_
  refine .part demandForeseen_meets (show [Terminal.word ")"] ⊆ expressionEnd by decide)
    fun value _ => ?_
  refine .part closeHeader_meets (List.Subset.refl _) fun _ _ => ?_
  have counted (rest : List Token) : Takes countSwitch [] rest anything :=
    fun _ position => ⟨trivial, position, rfl⟩
  refine .before counted fun number _ => .shrink (.acceptedUnless ?_)
  refine .part (.collect rfl (clause?_meets meets) (clause?_stops)) (List.Subset.refl _)
    fun clauses _ => ?_
  exact .part .demand (List.Subset.refl _) fun _ _ => .done trivial

end Clauses

/-! ## Lists of statements and blocks -/

/-- No other statement starts like a list between braces. -/
theorem braced_or_apart : ∀ form ∈ statementForms,
    form = braced ∨ allApart form.first [.word "\x7b"] = true := by
  simp only [statementForms, List.forall_mem_cons, List.not_mem_nil, false_imp_iff, implies_true,
    and_true]
  and_intros <;> first | exact .inl trivial | exact .inr (by decide)

section Lists

variable (settles : Settles size statement (.category .statement))

theorem nextStatement_stops (rest : List Token) (follows : Opens bodyEnd rest) :
    Takes (nextStatement statement) [] rest (· = none) := by
  refine .ask asks_atEnd rfl (.ask (asks_seesAny _) rfl ?_)
  have ended : (Terminal.anyAccepts [.endOfInput] rest.head? ||
      Terminal.anyAccepts [.word "\x7d", .word "case", .word "default"] rest.head?) = true := by
    simpa [Opens, bodyEnd, Terminal.anyAccepts, Nonterminal.words] using follows
  rw [List.nil_append, ended]
  exact .pure rfl

include settles

theorem nextStatement_meets :
    Meets size (nextStatement statement) (.category .statement) statementEnd
      fun statement? => ∃ statement, statement? = some statement := by
  refine .deny asks_atEnd (by decide) (.deny (asks_seesAny _) (by decide) ?_)
  intro tokens rest short predicted follows
  have present := predicted.length_pos rfl
  refine .look (fun _ => rfl) fun cursor position => ?_
  refine .after (settles.meets (List.Subset.refl _) tokens rest short predicted follows) ?_
  intro result _
  -- The statement was not empty, so its reader went on by itself.
  have kept : Takes (skipUnlessBelow cursor.rest.length) [] rest anything := by
    refine .look (fun _ => rfl) fun after left => ?_
    have fewer : after.rest.length ≠ cursor.rest.length := by
      rw [position, left, List.length_append, List.length_append, List.length_nil]
      omega
    rw [if_neg fewer]
    exact .pure trivial
  exact kept.before fun _ _ => .pure ⟨result, rfl⟩

theorem bodyOf_meets : Meets size (bodyOf statement) (.category .body) bodyEnd anything :=
  .category (.rule (.collect rfl (nextStatement_meets settles) nextStatement_stops))

/-- A list of statements between braces. -/
theorem blockOf_meets : Meets (size + 1) (blockOf statement) braced next anything := by
  have start : [Terminal.word "\x7b"] ⊆ Nonterminal.block.first := by decide
  have ending : [Terminal.word "\x7d"] ⊆ bodyEnd := by decide
  refine .rule (.expectUnless start (.accepted ?_))
  refine .part (bodyOf_meets settles) ending fun body _ => ?_
  exact .part .demand (List.Subset.refl _) fun _ _ => .done trivial

theorem blockOf_settles : Settles size (blockOf statement) (.category .block) := by
  intro tokens rest short predicted follows ended
  have start : Opens Nonterminal.block.first (tokens ++ rest) := predicted.opens_append follows
  have bracedTaken (inside : braced.Predicts tokens) :
      Takes (blockOf statement) tokens rest anything :=
    (blockOf_meets settles).shrink tokens rest short inside follows
  obtain ⟨alternative, listed, _, inside⟩ := predicted.of_category.of_choice
  simp only [List.mem_cons, List.not_mem_nil, or_false] at listed
  rcases listed with rfl | rfl
  · exact bracedTaken inside
  · obtain ⟨form, formListed, _, formPredicted⟩ := inside.of_category.of_choice
    rcases braced_or_apart form formListed with rfl | apart
    · exact bracedTaken formPredicted
    · have solid : form.isSolid = true := isSolid_of_mem (by decide) form formListed
      have opens : Opens form.first (tokens ++ rest) := by
        simpa [opening, solid] using formPredicted.opens_append follows
      have absorbed (absorbs : Absorbs (.category .statement) tokens) :
          Absorbs Category.block.production tokens :=
        absorbs.choice (List.mem_cons_of_mem _ List.mem_cons_self) rfl
      have taken := settles tokens rest short inside follows fun other absorbs =>
        ended other (absorbed absorbs).category
      refine .rule ?_
      rw [unless_eq]
      exact .expect start (.declined opens apart taken)

end Lists

/-! ## Statements -/

theorem Takes.dispatch {table : List (List Terminal × Reading α)} {otherwise reader : Reading α}
    {start known : List Terminal} {good : α → Prop} (index : Nat)
    (listed : table[index]? = some (start, reader)) (opens : Opens known (tokens ++ rest))
    (apart : ((table.map Prod.fst).take index).all (allApart known) = true)
    (within : known ⊆ start) (taken : Takes reader tokens rest good) :
    Takes (dispatch table otherwise) tokens rest good := by
  induction index generalizing table with
  | zero =>
      cases table with
      | nil => simp at listed
      | cons entry others =>
          obtain rfl := Option.some.inj listed
          exact .yes (asks_seesAny _) (opens.mono within) taken
  | succ index ih =>
      cases table with
      | nil => simp at listed
      | cons entry others =>
          simp only [List.map_cons, List.take_succ_cons, List.all_cons, Bool.and_eq_true] at apart
          exact .no (asks_seesAny _) opens apart.1 (ih listed apart.2)

/-- A statement is read by the reader whose terminals accept its first token. -/
theorem Takes.statementOf {reader : Reading Statement} {start known : List Terminal}
    {good : Statement → Prop} (index : Nat)
    (listed : (statementTable statement)[index]? = some (start, reader))
    (opens : Opens known (tokens ++ rest))
    (apart : (statementStarts.take index).all (allApart known) = true) (within : known ⊆ start)
    (taken : Takes reader tokens rest good) : Takes (statementOf statement) tokens rest good := by
  rw [statementOf_eq]
  rw [← statementTable_starts statement] at apart
  exact .dispatch index listed opens apart within taken

theorem Settles.statementOf {reader : Reading Statement} {start : List Terminal}
    (settles : Settles size reader phrase) (index : Nat)
    (listed : (statementTable statement)[index]? = some (start, reader))
    (apart : (statementStarts.take index).all
      (allApart (phrase.opening (.word "else" :: statementEnd))) = true)
    (within : phrase.opening (.word "else" :: statementEnd) ⊆ start) :
    Settles size (statementOf statement) phrase := by
  intro tokens rest short predicted follows ended
  refine .statementOf index listed (predicted.opens_append follows) apart within ?_
  exact settles tokens rest short predicted follows ended

theorem evaluation_meets :
    Meets size evaluation (.sequence [.category .expression, word ";"]) next anything := by
  have value : Meets size (Statement.evaluate <$> expression) (.category .expression) expressionEnd
      anything := expression_meets.void
  exact terminated_meets value (by decide)

/-- A name and a parenthesis are a call. -/
theorem named_meets : Meets size named (.sequence [.category .call, word ";"]) next anything := by
  intro tokens rest short predicted follows
  have second : Opens [.word "("] (tokens.tail ++ rest) := by
    obtain ⟨_, behind, rfl, called, _⟩ := predicted.of_next
    obtain ⟨_, _, rfl, name, others⟩ := called.of_category.of_next
    obtain ⟨_, inner, rfl, opening, _⟩ := others.of_next
    obtain ⟨name, rfl, _⟩ := name.of_terminal
    obtain ⟨parenthesis, rfl, spelled⟩ := opening.of_terminal
    exact List.any_eq_true.mpr ⟨_, List.mem_singleton_self _, spelled⟩
  obtain ⟨name, others, rfl⟩ := List.exists_cons_of_length_pos (predicted.length_pos rfl)
  refine .askSecond second ?_
  rw [if_pos rfl]
  have ends : [Terminal.word ";"] ⊆ [.word ";"] := List.Subset.refl _
  refine terminated_meets (.only ?_) ends _ rest short predicted follows
  refine .part (call_meets expression_meets).shrink (List.Subset.refl _) ?_
  rintro _ ⟨_, rfl⟩
  exact .done trivial

theorem assignmentStatement_meets (statement : Reading Statement) :
    Meets size (statementOf statement) (.sequence [.category .assignment, word ";"]) next
      anything := by
  have assigns : Meets size assignment (.category .assignment) expressionEnd anything :=
    assignment_meets
  intro tokens rest short predicted _
  obtain ⟨_, _, rfl, assigned, ending⟩ := predicted.of_next
  obtain ⟨semicolon, rfl, ends⟩ := ending.of_last.of_terminal
  rw [List.length_append] at short
  have follows : Opens expressionEnd (semicolon :: rest) :=
    List.any_eq_true.mpr ⟨_, List.mem_cons_self, ends⟩
  have taken := assigns _ (semicolon :: rest) (by omega) assigned follows
  obtain ⟨target, sign, operator, value, rfl, named, signed, _⟩ := exists_assignment assigned
  exact assignmentStatement_takes statement named signed ends taken fun _ _ => trivial

/-- The operators of assignments. -/
def assignmentSigns : List Terminal :=
  AssignmentOperator.all.map fun operator => .word operator.symbol

theorem production_unassigned (label : Category) (operand : label.isOperand = true) :
    label.production.mayHave assignmentSigns Category.isOperand = false := by
  cases label <;> revert operand <;> decide

/-- No operator of an assignment stands in an expression or ends it. -/
theorem ofToken?_eq_none
    (derived : (sequence [.category .expression, word ";"]).Derives tokens) :
    ∀ token ∈ tokens, AssignmentOperator.ofToken? token = none := by
  intro token member
  have absent := derived.anyAccepts_eq_false production_unassigned (by decide) token member
  refine List.find?_eq_none.mpr fun operator listed => ?_
  have unsigned := List.any_eq_false.mp absent (.word operator.symbol) (List.mem_map_of_mem listed)
  simpa using unsigned

/-- An expression behind a name that starts no call. -/
theorem named_evaluates (opens : Opens [.identifier] (tokens ++ rest))
    (predicted : (sequence [.category .expression, word ";"]).Predicts tokens)
    (silent : startsCall tokens = false) (follows : Opens next rest) :
    Takes named tokens rest anything := by
  have evaluated := evaluation_meets tokens rest (Nat.le_refl _) predicted follows
  have unsigned := ofToken?_eq_none predicted.derives
  obtain ⟨name, second, others, rfl⟩ : ∃ name second others, tokens = name :: second :: others := by
    obtain ⟨value, ending, rfl, valuePredicted, endingPredicted⟩ := predicted.of_next
    have valuePresent := valuePredicted.length_pos rfl
    have endingPresent := endingPredicted.length_pos rfl
    match value, ending with
    | [name], second :: others => exact ⟨name, second, others, rfl⟩
    | name :: second :: more, ending => exact ⟨name, second, more ++ ending, rfl⟩
  have named : name.isIdentifier = true := by
    simpa [Opens, Terminal.anyAccepts] using opens
  have noCall : Terminal.anyAccepts [.word "("] (some second) = false := by
    simpa [startsCall, named, Terminal.anyAccepts] using silent
  refine .askSecond noCall (.look (fun _ => rfl) fun cursor position => ?_)
  have plain : cursor.rest.tail.head?.bind AssignmentOperator.ofToken? = none := by
    rw [position]
    exact unsigned second (by simp)
  rw [plain]
  exact evaluated

/-- An expression is read as a statement where the alternative for it is chosen. -/
theorem evaluation_takes (statement : Reading Statement)
    (predicted : (sequence [.category .expression, word ";"]).Predicts tokens)
    (silent : startsCall tokens = false) (follows : Opens next rest) :
    Takes (statementOf statement) tokens rest anything := by
  have start : Opens Nonterminal.expression.first (tokens ++ rest) :=
    predicted.opens_append follows
  by_cases name : Opens [.identifier] (tokens ++ rest)
  · refine .statementOf 1 rfl name (by decide) (List.Subset.refl _) ?_
    exact named_evaluates name predicted silent follows
  · refine .statementOf 12 rfl (start.of_cons name) (by decide) (by decide) ?_
    exact evaluation_meets tokens rest (Nat.le_refl _) predicted follows

section Forms

variable (settles : Settles size statement (.category .statement))
include settles

theorem forms_settle :
    ∀ form ∈ statementForms.dropLast, Settles (size + 1) (statementOf statement) form := by
  have blocks := blockOf_settles settles
  simp only [statementForms, List.dropLast, List.forall_mem_cons, List.not_mem_nil, false_imp_iff,
    implies_true, and_true]
  refine ⟨?declaration, ?assignment, ?call, ?print, ?read, ?leave, ?giveBack,
    ?whileLoop, ?choice, ?doWhile, ?forLoop, ?switch, ?block⟩
  case declaration =>
    exact .statementOf (.of_meets (terminated_meets declaration_meets.void (by decide))) 0 rfl
      (by decide) (by decide)
  case assignment => exact .of_meets (assignmentStatement_meets statement)
  case call => exact .statementOf (.of_meets named_meets) 1 rfl (by decide) (by decide)
  case print =>
    have read : Meets (size + 1) print (.category .print) [.word ";"] anything := print_meets
    exact .statementOf (.of_meets (terminated_meets read (List.Subset.refl _))) 2 rfl (by decide)
      (by decide)
  case read =>
    have read : Meets (size + 1) read (.category .read) [.word ";"] anything := read_meets
    exact .statementOf (.of_meets (terminated_meets read (List.Subset.refl _))) 3 rfl (by decide)
      (by decide)
  case leave => exact .statementOf (.of_meets leave_meets) 4 rfl (by decide) (by decide)
  case giveBack => exact .statementOf (.of_meets giveBack_meets) 5 rfl (by decide) (by decide)
  case whileLoop => exact .statementOf (whileLoop_settles blocks) 6 rfl (by decide) (by decide)
  case choice => exact .statementOf (choice_settles blocks) 7 rfl (by decide) (by decide)
  case doWhile => exact .statementOf (.of_meets (doWhile_meets blocks)) 8 rfl (by decide) (by decide)
  case forLoop => exact .statementOf (forLoop_settles blocks) 9 rfl (by decide) (by decide)
  case switch =>
    exact .statementOf (.of_meets (switch_meets (bodyOf_meets settles))) 10 rfl (by decide) (by decide)
  case block =>
    exact .statementOf (.of_meets (blockOf_meets settles)) 11 rfl (by decide) (by decide)

theorem statementOf_settles : Settles (size + 1) (statementOf statement) (.category .statement) := by
  intro tokens rest short predicted follows ended
  obtain ⟨form, listed, chosen, inside⟩ := predicted.of_category.of_choice
  rcases List.mem_append.mp (show form ∈ statementForms.dropLast ++ [_] from listed) with
    listed | last
  · have free : ∀ form ∈ statementForms.dropLast, form.isFree = true := by decide
    have absorbed (absorbs : Absorbs form tokens) : Absorbs (.category .statement) tokens :=
      .category (absorbs.choice (List.dropLast_subset _ listed) (free form listed))
    exact forms_settle settles form listed tokens rest short inside follows fun other absorbs =>
      ended other (absorbed absorbs)
  · rw [List.mem_singleton.mp last] at chosen inside
    exact evaluation_takes statement inside (by simpa [isChosen] using chosen) follows

end Forms

theorem statementFor_settles (depth : Nat) :
    Settles depth (statementFor depth) (.category .statement) := by
  induction depth with
  | zero =>
      intro tokens rest short predicted _ _
      have present := predicted.length_pos rfl
      omega
  | succ depth ih => exact statementOf_settles ih

/-- Whatever list of statements can be predicted is read without errors. -/
theorem body_meets : Meets size Reading.body (.category .body) bodyEnd anything := by
  intro tokens rest short predicted follows
  refine .look (fun _ => rfl) fun cursor position => ?_
  refine bodyOf_meets (statementFor_settles _) tokens rest ?_ predicted follows
  rw [position, List.length_append]
  omega

end StackLang.Reading
