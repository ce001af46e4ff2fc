import StackLang.Lexeme.Scan
import StackLang.Proofs.Completeness.Statement
import StackLang.Proofs.Reading.Program

/-!
# Programs are read without errors

The readers of classes and their members take what their phrases predict, like the readers
of statements.  So the tokens that are read without a syntax error are those that the grammar
predicts: it derives them by the choices that the next tokens allow.
-/

namespace StackLang

namespace Reading

open Phrase
open Terminal (Opens allApart)
open Nonterminal (words)

variable {size : Nat} {next : List Terminal} {tokens rest : List Token}

/-! ## Parameters -/

theorem parameter_meets (complaint : Complaint) :
    Meets size (parameter complaint) typedName next (·.2 = true) := by
  refine .part typeName_meets (List.Subset.refl _) ?_
  rintro _ ⟨type, rfl⟩
  refine .part .identifier? (List.Subset.refl _) ?_
  rintro _ ⟨name, rfl⟩
  exact .done rfl

/-- A parameter behind a comma. -/
abbrev nextTypedName : Phrase := .sequence [word ",", typedName]

theorem extendParameters?_meets (found : List (Option (TypeName × Token)) × Bool)
    (goesOn : found.2 = true) :
    Meets size (extendParameters? found) nextTypedName next
      fun value? => ∃ later, value? = some later ∧ later.2 = true := by
  have read : Meets size (nextParameter true) nextTypedName next
      fun result? => ∃ result, result? = some result ∧ result.2 = true := by
    refine .shrink (.acceptedUnless (.yes (asks_seesStart _) (List.Subset.refl _) (.last ?_)))
    exact (parameter_meets _).map fun result holds => ⟨result, rfl, holds⟩
  rw [extendParameters?, goesOn]
  refine .only (.part read (List.Subset.refl _) ?_)
  rintro _ ⟨result, rfl, holds⟩
  exact .done ⟨_, rfl, holds⟩

theorem extendParameters?_stops (found : List (Option (TypeName × Token)) × Bool)
    (rest : List Token) (goesOn : found.2 = true) (follows : Opens (words [")"]) rest) :
    Takes (extendParameters? found) [] rest (· = none) := by
  have stopped : Takes (nextParameter true) [] rest (· = none) := by
    refine .before (.decline follows (by decide)) ?_
    rintro _ rfl
    exact .pure rfl
  rw [extendParameters?, goesOn]
  refine stopped.before ?_
  rintro _ rfl
  exact .pure rfl

theorem moreParameters_meets (first : Option (TypeName × Token) × Bool) (goesOn : first.2 = true) :
    Meets size (moreParameters first) (.many nextTypedName) (words [")"]) anything := by
  have more : Meets size (refine extendParameters? ([first.1], first.2)) (.many nextTypedName)
      (words [")"]) anything :=
    .refine (·.2 = true) rfl (fun found => extendParameters?_meets found)
      extendParameters?_stops _ goesOn
  exact more.void

theorem parameters_meets :
    Meets size parameters (.category .parameters) (words [")"]) anything := by
  refine .category (.rule (.only (.optional (.last ?present) ?absent)))
  case present =>
    refine .no (asks_sees ")") (by decide) (.expectUnless (by decide) ?_)
    refine .part (parameter_meets _) (List.Subset.refl _) fun first goesOn => ?_
    exact .last (moreParameters_meets first goesOn).void
  case absent => exact .yes (asks_sees ")") (List.Subset.refl _) (.done trivial)

/-! ## Members -/

theorem closeParameters_meets : Meets size closeParameters (word ")") next (· = true) :=
  .only (.shrink (.accepted (.done rfl)))

theorem methodBody_meets : Meets size methodBody (.sequence [word ")", braced]) next anything := by
  have ending : [Terminal.word "\x7d"] ⊆ bodyEnd := by decide
  refine .part closeParameters_meets (List.Subset.refl _) ?_
  rintro _ rfl
  refine .last (.shrink (.accepted (.part body_meets ending fun statements _ => ?_)))
  exact .part .demand (List.Subset.refl _) fun _ _ => .done trivial

theorem method_meets : Meets size method (.category .method) next anything := by
  refine .category (.rule (.part typeName_meets (List.Subset.refl _) ?_))
  rintro _ ⟨type, rfl⟩
  refine .part .identifier? (List.Subset.refl _) ?_
  rintro _ ⟨name, rfl⟩
  refine .part .accept (List.Subset.refl _) fun _ _ => ?_
  exact .part parameters_meets (List.Subset.refl _) fun parameters _ => methodBody_meets.void

/-- What can be next behind a member of a class. -/
abbrev memberEnd : List Terminal := words (Nonterminal.typeWords ++ ["\x7d"])

theorem seesMethod_answers {before : Cursor} {type name : Token} {behind : List Token}
    (position : before.rest = type :: name :: behind) (typed : Opens Nonterminal.type.first [type])
    (named : name.isIdentifier = true) :
    seesMethod.run before = (Terminal.anyAccepts [.word "("] behind.head?, before) := by
  have startsType : Nonterminal.type.startsWith (some type) = true := typed
  cases before with
  | mk rest depth trace errors switches stuck =>
      obtain rfl : rest = type :: name :: behind := position
      cases behind with
      | nil => rfl
      | cons third behind =>
          refine Prod.ext ?_ rfl
          change (Nonterminal.type.startsWith (some type) && name.isIdentifier &&
            third.spells "(") = _
          simp [startsType, named, Terminal.anyAccepts]

/-- Behind a type and a name, a method is told from a field by the next token. -/
theorem Takes.askMethod {α : Type} {following : Bool → Reading α} {good : α → Prop} {answer : Bool}
    {parts : List Phrase}
    (predicted : (sequence (.category .type :: Phrase.identifier :: parts)).Predicts tokens)
    (follows : Opens next rest)
    (answered : ∀ behind, Opens ((sequence parts).opening next) behind →
      Terminal.anyAccepts [.word "("] behind.head? = answer)
    (taken : Takes (following answer) tokens rest good) :
    Takes (seesMethod >>= following) tokens rest good := by
  obtain ⟨_, _, rfl, typePredicted, others⟩ := predicted.of_next
  obtain ⟨_, back, rfl, namePredicted, behind⟩ := others.of_next
  have typed := typePredicted.derives.opens (typePredicted.derives.ne_nil rfl)
  obtain ⟨type, _, rfl, _, _⟩ := typePredicted.of_category.of_oneOf
  obtain ⟨name, rfl, named⟩ := namePredicted.of_terminal
  refine .know (fun before position => ?_) taken
  rw [seesMethod_answers position typed named]
  exact congrArg (·, before) (answered (back ++ rest) (behind.opens_append follows))

theorem member?_meets :
    Meets size member? (.category .member) memberEnd
      fun member? => ∃ member, member? = some member := by
  refine .category (.deny asks_atEnd (by decide) (.deny (asks_sees "\x7d") (by decide) ?_))
  refine .choice ?_
  simp only [List.forall_mem_cons, List.not_mem_nil, false_imp_iff, implies_true, and_true]
  refine ⟨?method, ?field⟩
  case method =>
    refine .affirm (asks_seesStart _) (List.Subset.refl _) ?_
    intro tokens rest short predicted follows
    refine .askMethod predicted.of_category follows (fun _ opens => opens) ?_
    have read : Meets size (do return some (((← method).map Member.method).getD .skipped))
        (.category .method) memberEnd fun member? => ∃ member, member? = some member :=
      method_meets.map fun _ _ => ⟨_, rfl⟩
    exact read tokens rest short predicted follows
  case field =>
    refine .affirm (asks_seesStart _) (List.Subset.refl _) ?_
    intro tokens rest short predicted follows
    obtain ⟨_, _, rfl, declared, ending⟩ := predicted.of_next
    have flat := Predicts.flatten (.next declared.of_category ending)
    refine .askMethod flat follows (fun _ opens => opens.anyAccepts_eq_false (by decide)) ?_
    have read : Meets size (do
        let declaration ← declaration
        demand ";" (skipMember .variableEnd)
        return some ((declaration.map Member.field).getD .skipped))
        (.sequence [.category .variable, word ";"]) memberEnd
        fun member? => ∃ member, member? = some member :=
      .part declaration_meets (by decide) fun _ _ =>
        .part .demand (List.Subset.refl _) fun _ _ => .done ⟨_, rfl⟩
    exact read _ rest short predicted follows

theorem member?_stops (rest : List Token) (follows : Opens (words ["\x7d"]) rest) :
    Takes member? [] rest (· = none) := by
  refine .ask asks_atEnd (follows.anyAccepts_eq_false (by decide)) ?_
  exact .ask (asks_sees "\x7d") follows (.pure rfl)

theorem className_meets : Meets size className Phrase.identifier next (· = true) := by
  refine .only (.part .identifier? (List.Subset.refl _) ?_)
  rintro _ ⟨name, rfl⟩
  exact .done rfl

theorem classOf_meets :
    Meets size classOf
      (.sequence [Phrase.identifier, word "\x7b", .many (.category .member), word "\x7d"]) next
      anything := by
  refine .part className_meets (List.Subset.refl _) ?_
  rintro _ rfl
  refine .shrink (.acceptedUnless ?_)
  refine .part (.collect rfl member?_meets member?_stops) (List.Subset.refl _) fun members _ => ?_
  exact .part .demand (List.Subset.refl _) fun _ _ => .done trivial

/-! ## Programs -/

theorem seesProgram_takes (opens : Opens programStart rest) :
    Takes seesProgram [] rest (· = true) := by
  by_cases ended : Opens [.endOfInput] rest
  · exact .yes asks_atEnd ended (.pure rfl)
  · refine .ask asks_atEnd (eq_false_of_ne_true ended) ?_
    exact .yes (asks_seesAny _) (opens.of_cons ended) (.pure rfl)

/-- Read a program that can start here. -/
def programForm : Reading Program := do
  if ← accept "\x7b" then
    let statements ← body
    demand "\x7d" (abandon .programEnd fun _ => false)
    return .statements statements
  if ← accept "class" then return .members (← classOf)
  return .statements (← body)

theorem program_eq :
    program = rule .program (do
      if !(← seesProgram) then return .statements []
      programForm) :=
  rfl

theorem programForm_braced : Meets size programForm braced next anything := by
  have ending : [Terminal.word "\x7d"] ⊆ bodyEnd := by decide
  refine .shrink (.accepted (.part body_meets ending fun statements _ => ?_))
  exact .part .demand (List.Subset.refl _) fun _ _ => .done trivial

theorem programForm_class :
    Meets size programForm (.sequence [word "class", Phrase.identifier, word "\x7b",
      .many (.category .member), word "\x7d"]) next anything := by
  have apart : allApart [.word "class"] [.word "\x7b"] = true := by decide
  exact .declined apart (.shrink (.accepted classOf_meets.void))

/-- What a list of statements starts with where it is chosen as a program. -/
def bareStart : List Terminal :=
  ((Phrase.category .body).opening [.endOfInput]).filter (· ∉ notBare)

theorem opens_bareStart (predicted : (Phrase.category .body).Predicts tokens)
    (chosen : (Phrase.category .body).isChosen tokens = true) :
    Opens bareStart (tokens ++ []) := by
  have ends : Opens [.endOfInput] [] := rfl
  refine (predicted.opens_append ends).without ?_
  rw [List.append_nil]
  simpa [isChosen] using chosen

theorem program_takes (predicted : (Phrase.category .program).Predicts tokens) :
    Takes program tokens [] anything := by
  have ends : Opens [.endOfInput] [] := rfl
  have started (opens : Opens programStart (tokens ++ []))
      (taken : Takes programForm tokens [] anything) : Takes program tokens [] anything := by
    rw [program_eq]
    refine .rule (.before (seesProgram_takes opens) ?_)
    rintro _ rfl
    exact taken
  obtain ⟨alternative, listed, chosen, inside⟩ := predicted.of_category.of_choice
  simp only [List.mem_cons, List.not_mem_nil, or_false] at listed
  rcases listed with rfl | rfl | rfl
  · refine started ((inside.opens_append ends).mono (by decide)) ?_
    exact programForm_braced tokens [] (Nat.le_refl _) inside ends
  · refine started ((inside.opens_append ends).mono (by decide)) ?_
    exact programForm_class tokens [] (Nat.le_refl _) inside ends
  · have opens := opens_bareStart inside chosen
    refine started (opens.mono (by decide)) (.declined opens (by decide) ?_)
    refine .declined opens (by decide) ?_
    have read : Meets tokens.length Reading.body (.category .body) bodyEnd anything := body_meets
    exact read.void tokens [] (Nat.le_refl _) inside (ends.mono (by decide))

theorem wholeProgram_takes (predicted : (Phrase.category .program).Predicts tokens) :
    Takes wholeProgram tokens [] anything := by
  have ended : Takes checkEnd [] [] anything := .ask asks_atEnd rfl (.pure trivial)
  exact .after (program_takes predicted) fun result _ => ended.before fun _ _ => .pure trivial

end Reading

/-- Reading records no syntax error exactly for the tokens that the grammar derives by the
choices that the next tokens allow. -/
theorem Program.errors_eq_empty_iff (tokens : List Token) :
    (Program.ofTokens tokens).errors = #[] ↔ (Phrase.category .program).Predicts tokens := by
  constructor
  · intro clean
    have given := Reading.wholeProgram_gives (.initial tokens) (List.Subset.refl tokens)
    obtain ⟨⟨read, consumed, predicted⟩, ended, _⟩ := given.clean clean
    have whole : tokens = read := by
      have rest := consumed.rest
      rwa [ended, List.append_nil] at rest
    exact whole ▸ predicted
  · intro predicted
    have start : (Cursor.initial tokens).rest = tokens ++ [] := (List.append_nil tokens).symm
    obtain ⟨_, _, errors⟩ := Reading.wholeProgram_takes predicted _ start
    exact errors

/-- An `else` behind two choices, which the grammar derives in two ways. -/
example : (Program.ofTokens (tokenize "if (a) if (b) x++; else y--;")).errors = #[] := by
  decide +kernel

open Phrase in
/-- Not all tokens that the grammar derives are read without a syntax error: a literal is a
statement, but no program starts with one. -/
theorem Program.not_errors_eq_empty_of_derives :
    ¬∀ tokens, (category .program).Derives tokens → (Program.ofTokens tokens).errors = #[] := by
  intro complete
  let literal : Token := ⟨"1", .integer, 1⟩
  let semicolon : Token := ⟨";", .delimiter, 1⟩
  have value : (category .expression).Derives [literal] :=
    (Reading.expression_obeys _ (List.Subset.refl _)).derives trivial (by decide +kernel)
      (by decide +kernel)
  have ended : (word ";").Derives [semicolon] := derives_word rfl
  have statement : (category .statement).Derives [literal, semicolon] :=
    .category (.choice (by simp [statementForms]) (.next value (.next ended .done)))
  have body : (category .body).Derives ([literal, semicolon] ++ []) :=
    .category (.more statement .none)
  have derived : (category .program).Derives [literal, semicolon] :=
    .category (.choice (by simp) body)
  have complains : (Program.ofTokens [literal, semicolon]).errors ≠ #[] := by decide +kernel
  exact complains (complete _ derived)

end StackLang
