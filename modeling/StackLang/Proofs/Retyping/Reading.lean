import Mathlib.Data.List.Forall2
import StackLang.Proofs.Termination.Judgement

/-!
# Reading retyped tokens

Tokens are retyped if keywords of types are replaced by other ones, except in front of a name
and a parenthesis, where a keyword may tell what a method returns.  `Reading.Concurs` compares
two runs on such tokens: they stay side by side and complain about the same tokens, whatever
these say.  Every primitive reader is compared with itself here; the rules say how readers are
put together from others.
-/

namespace StackLang

namespace Token

/-- The same token, or the keyword of a type in the place of another one. -/
inductive Alike : Token → Token → Prop
  | refl (token : Token) : Alike token token
  | type (one other : TypeName) (line : Nat) :
      Alike ⟨one.text, .keyword, line⟩ ⟨other.text, .keyword, line⟩

/-- Whether a name and a parenthesis are next. -/
def callAhead : List Token → Bool
  | name :: parenthesis :: _ => name.isIdentifier && parenthesis.spells "("
  | _ => false

/-- Keywords of types are replaced by other ones, except in front of a name and a
parenthesis. -/
inductive Retyped : List Token → List Token → Prop
  | nil : Retyped [] []
  | cons {one other : Token} {rest others : List Token} : one.Alike other →
      (callAhead rest = true → one = other) → Retyped rest others →
      Retyped (one :: rest) (other :: others)

/-- The token without its spelling. -/
def valueless (token : Token) : Token := { token with value := "" }

end Token

/-- The syntax error without the spelling of its token. -/
def SyntaxError.valueless (error : SyntaxError) : SyntaxError :=
  { error with token? := error.token?.map Token.valueless }

/-! ## Tests of tokens -/

theorem TypeName.text_mem (type : TypeName) : type.text ∈ Nonterminal.typeWords := by
  cases type <;> decide

namespace Token.Alike

variable {one other : Token} (alike : one.Alike other)

include alike

theorem line_eq : one.line = other.line := by
  cases alike <;> rfl

theorem valueless_eq : one.valueless = other.valueless := by
  cases alike <;> rfl

theorem isIdentifier_eq : one.isIdentifier = other.isIdentifier := by
  cases alike <;> rfl

theorem spells_eq {symbol : String} (apart : symbol ∉ Nonterminal.typeWords) :
    one.spells symbol = other.spells symbol := by
  cases alike with
  | refl => rfl
  | type one other line =>
      have unlike (type : TypeName) : (type.text == symbol) = false :=
        beq_false_of_ne fun same => apart (same ▸ type.text_mem)
      rw [spells, spells, unlike, unlike]
      rfl

/-- Whether a type is named does not change. -/
theorem isSome_ofText?_eq :
    (TypeName.ofText? one.value).isSome = (TypeName.ofText? other.value).isSome := by
  cases alike with
  | refl => rfl
  | type one other line => rw [TypeName.ofText?_text, TypeName.ofText?_text]; rfl

/-- A name is not replaced. -/
theorem eq_of_isIdentifier (name : one.isIdentifier = true) : one = other := by
  cases alike with
  | refl => rfl
  | type => exact nomatch name

/-- A literal is not replaced. -/
theorem eq_of_isLiteral (literal : one.isLiteral = true) : one = other := by
  cases alike with
  | refl => rfl
  | type one other line => cases one <;> exact nomatch literal

end Token.Alike

theorem Token.Alike.map_valueless {one other : Option Token} (alike : Option.Rel Alike one other) :
    one.map valueless = other.map valueless := by
  cases alike with
  | none => rfl
  | some alike => rw [Option.map_some, Option.map_some, alike.valueless_eq]

/-- What is told of the next token does not depend on the type that it names. -/
def Reading.Blind {α : Type} (look : Option Token → α) : Prop :=
  ∀ one other, Option.Rel Token.Alike one other → look one = look other

/-- Keywords of types are listed all or none. -/
def Terminal.unifies (terminals : List Terminal) : Bool :=
  Nonterminal.typeWords.all (.word · ∈ terminals) || Nonterminal.typeWords.all (.word · ∉ terminals)

theorem Terminal.anyAccepts_type (terminals : List Terminal) (type : TypeName) (line : Nat) :
    anyAccepts terminals (some ⟨type.text, .keyword, line⟩) = decide (.word type.text ∈ terminals) := by
  have accepts (terminal : Terminal) :
      terminal.accepts (some ⟨type.text, .keyword, line⟩) = decide (terminal = .word type.text) := by
    cases terminal with
    | word text =>
        rw [Bool.eq_iff_iff, decide_eq_true_iff, word.injEq]
        exact beq_iff_eq.trans eq_comm
    | identifier | endOfInput => rfl
    | literal => cases type <;> rfl
  simp only [anyAccepts, accepts]
  rw [Bool.eq_iff_iff, List.any_eq_true, decide_eq_true_iff]
  simp only [decide_eq_true_iff, exists_eq_right]

namespace Reading.Blind

variable {stop other : Option Token → Bool}

theorem of_unifies {terminals : List Terminal} (unifies : Terminal.unifies terminals = true) :
    Blind (Terminal.anyAccepts terminals) := by
  rintro _ _ (@⟨_, _, alike⟩ | _)
  · cases alike with
    | refl => rfl
    | type one other line =>
        rw [Terminal.anyAccepts_type, Terminal.anyAccepts_type]
        rcases Bool.or_eq_true_iff.mp unifies with all | none
        · have listed (type : TypeName) := List.all_eq_true.mp all type.text type.text_mem
          rw [listed, listed]
        · have unlisted (type : TypeName) := List.all_eq_true.mp none type.text type.text_mem
          simp only [decide_not, Bool.not_eq_true', decide_eq_false_iff_not] at unlisted
          rw [decide_eq_false (unlisted one), decide_eq_false (unlisted other)]
  · rfl

theorem first (nonterminal : Nonterminal) : Blind nonterminal.startsWith :=
  of_unifies (by cases nonterminal <;> decide)

theorem follow (nonterminal : Nonterminal) : Blind nonterminal.endsBefore :=
  of_unifies (by cases nonterminal <;> decide)

theorem spells {symbol : String} (apart : symbol ∉ Nonterminal.typeWords) :
    Blind fun next => next.any (·.spells symbol) := by
  rintro _ _ (@⟨_, _, alike⟩ | _)
  · exact alike.spells_eq apart
  · rfl

theorem word {symbol : String} (apart : symbol ∉ Nonterminal.typeWords) :
    Blind (Terminal.word symbol).accepts := by
  rintro _ _ (@⟨_, _, alike⟩ | _)
  · exact alike.spells_eq apart
  · rfl

theorem or (front : Blind stop) (back : Blind other) :
    Blind fun next => stop next || other next := by
  intro one counterpart alike
  dsimp only
  rw [front one counterpart alike, back one counterpart alike]

end Reading.Blind

/-! ## Tokens ahead -/

namespace Token.Retyped

variable {one other : List Token} (retyped : Retyped one other)

include retyped

theorem length_eq : one.length = other.length := by
  induction retyped with
  | nil => rfl
  | cons _ _ _ ih => rw [List.length_cons, List.length_cons, ih]

theorem isEmpty_eq : one.isEmpty = other.isEmpty := by
  cases retyped <;> rfl

theorem head? : Option.Rel Alike one.head? other.head? := by
  cases retyped with
  | nil => exact .none
  | cons alike _ _ => exact .some alike

theorem tail : Retyped one.tail other.tail := by
  cases retyped with
  | nil => exact .nil
  | cons _ _ rest => exact rest

theorem callAhead_eq : callAhead one = callAhead other := by
  cases retyped with
  | nil => rfl
  | cons name _ rest =>
      cases rest with
      | nil => rfl
      | cons parenthesis _ _ =>
          rw [callAhead, callAhead, name.isIdentifier_eq, parenthesis.spells_eq (by decide)]

theorem dropWhile {stop : Option Token → Bool} (blind : Reading.Blind stop) :
    Retyped (one.dropWhile fun token => !stop (some token))
      (other.dropWhile fun token => !stop (some token)) := by
  induction retyped with
  | nil => exact .nil
  | @cons one other rest others alike kept retyped ih =>
      have same : stop (some one) = stop (some other) := blind _ _ (.some alike)
      rw [List.dropWhile_cons, List.dropWhile_cons, same]
      split
      · exact ih
      · exact .cons alike kept retyped

end Token.Retyped

/-- The first token is not replaced. -/
def Token.Kept (tokens : List Token) : Prop :=
  ∀ others, Retyped tokens others → tokens.head? = others.head?

namespace Token.Kept

variable {tokens : List Token}

theorem of_isIdentifier (name : tokens.head?.any isIdentifier = true) : Kept tokens := by
  intro others retyped
  cases retyped with
  | nil => rfl
  | cons alike _ _ => exact congrArg some (alike.eq_of_isIdentifier name)

theorem of_isLiteral (literal : tokens.head?.any isLiteral = true) : Kept tokens := by
  intro others retyped
  cases retyped with
  | nil => rfl
  | cons alike _ _ => exact congrArg some (alike.eq_of_isLiteral literal)

/-- What may tell the type of a method is not replaced. -/
theorem of_callAhead (ahead : callAhead tokens.tail = true) : Kept tokens := by
  intro others retyped
  cases retyped with
  | nil => rfl
  | cons _ kept _ => exact congrArg some (kept ahead)

end Token.Kept

/-- Both cursors are in front of retyped tokens and have come past the same errors and
switches. -/
structure Cursor.Retyped (one other : Cursor) : Prop where
  rest : Token.Retyped one.rest other.rest
  errors : one.errors.map SyntaxError.valueless = other.errors.map SyntaxError.valueless
  switches : one.switches = other.switches

theorem Cursor.Retyped.next? {one other : Cursor} (retyped : one.Retyped other) :
    Option.Rel Token.Alike one.next? other.next? :=
  retyped.rest.head?

namespace Reading

variable {α β : Type}

/-- On retyped tokens, of which the first ones have a property, both readers find related
results and get to cursors side by side. -/
def ConcursFrom (start : List Token → Prop) (rel : α → α → Prop) (one other : Reading α) : Prop :=
  ∀ before counterpart : Cursor, before.Retyped counterpart → start before.rest →
    rel (one.run before).1 (other.run counterpart).1 ∧
      (one.run before).2.Retyped (other.run counterpart).2

/-- On any retyped tokens both readers find related results. -/
abbrev Concurs (rel : α → α → Prop) (one other : Reading α) : Prop :=
  ConcursFrom (fun _ => True) rel one other

/-- The reader finds related results on retyped tokens. -/
abbrev Steady (rel : α → α → Prop) (reader : Reading α) : Prop := Concurs rel reader reader

namespace ConcursFrom

variable {start : List Token → Prop} {rel : α → α → Prop} {final : β → β → Prop}
  {one other : Reading α}

theorem pure {result answer : α} (related : rel result answer) :
    ConcursFrom start rel (Pure.pure result) (Pure.pure answer) :=
  fun _ _ retyped _ => ⟨related, retyped⟩

theorem bind {next following : α → Reading β} (first : ConcursFrom start rel one other)
    (second : ∀ result answer, rel result answer →
      Concurs final (next result) (following answer)) :
    ConcursFrom start final (one >>= next) (other >>= following) := by
  intro before counterpart retyped starts
  obtain ⟨related, after⟩ := first before counterpart retyped starts
  exact second _ _ related _ _ after trivial

/-- Both go on with the same result. -/
theorem andThen {next following : α → Reading β} (first : ConcursFrom start Eq one other)
    (second : ∀ result, Concurs final (next result) (following result)) :
    ConcursFrom start final (one >>= next) (other >>= following) := by
  refine first.bind ?_
  rintro result _ rfl
  exact second result

theorem ite {condition : Prop} [Decidable condition] {two second : Reading α}
    (holds : ConcursFrom start rel one other) (fails : ConcursFrom start rel two second) :
    ConcursFrom start rel (if condition then one else two)
      (if condition then other else second) := by
  split
  · exact holds
  · exact fails

theorem starting {narrower : List Token → Prop} (concurs : ConcursFrom start rel one other)
    (starts : ∀ tokens, narrower tokens → start tokens) : ConcursFrom narrower rel one other :=
  fun before counterpart retyped narrow => concurs before counterpart retyped (starts _ narrow)

theorem giving {wider : α → α → Prop} (concurs : ConcursFrom start rel one other)
    (implied : ∀ result answer, rel result answer → wider result answer) :
    ConcursFrom start wider one other := by
  intro before counterpart retyped starts
  obtain ⟨related, after⟩ := concurs before counterpart retyped starts
  exact ⟨implied _ _ related, after⟩

theorem anywhere (concurs : Concurs rel one other) : ConcursFrom start rel one other :=
  concurs.starting fun _ _ => trivial

/-- A look at the whole cursor. -/
theorem get {next following : Cursor → Reading β}
    (rest : ∀ cursor counterpart : Cursor, cursor.Retyped counterpart →
      ConcursFrom start final (next cursor) (following counterpart)) :
    ConcursFrom start final (do next (← MonadState.get)) (do following (← MonadState.get)) :=
  fun before counterpart retyped => rest before counterpart retyped before counterpart retyped

/-- A look at what is ahead. -/
theorem look {reader : Reading α} {answer : Cursor → α}
    (run : ∀ cursor, reader.run cursor = (answer cursor, cursor))
    (alike : ∀ cursor counterpart : Cursor, cursor.Retyped counterpart → start cursor.rest →
      rel (answer cursor) (answer counterpart)) : ConcursFrom start rel reader reader := by
  intro before counterpart retyped starts
  rw [run, run]
  exact ⟨alike _ _ retyped starts, retyped⟩

/-- A step that only moves the cursor. -/
theorem move {reader : Reading Unit} {step : Cursor → Cursor}
    (run : ∀ cursor, reader.run cursor = ((), step cursor))
    (alike : ∀ cursor counterpart : Cursor, cursor.Retyped counterpart →
      (step cursor).Retyped (step counterpart)) : Steady Eq reader := by
  intro before counterpart retyped _
  rw [run, run]
  exact ⟨rfl, alike _ _ retyped⟩

/-- What is ahead decides how to go on. -/
theorem ask {question : Reading Bool} (answer : List Token → Bool)
    (run : ∀ cursor : Cursor, question.run cursor = (answer cursor.rest, cursor))
    (steady : Steady Eq question) {yes no otherYes otherNo : Reading α}
    (holds : ConcursFrom (fun tokens => start tokens ∧ answer tokens = true) rel yes otherYes)
    (fails : ConcursFrom (fun tokens => start tokens ∧ answer tokens = false) rel no otherNo) :
    ConcursFrom start rel (do if ← question then yes else no)
      (do if ← question then otherYes else otherNo) := by
  intro before counterpart retyped starts
  have same := (steady before counterpart retyped trivial).1
  rw [run, run] at same
  have same : answer before.rest = answer counterpart.rest := same
  rw [StateT.run_bind, StateT.run_bind, run, run]
  show rel ((if answer before.rest = true then yes else no : Reading α).run before).1 _ ∧
    Cursor.Retyped _ ((if answer counterpart.rest = true then otherYes else otherNo :
      Reading α).run counterpart).2
  rw [← same]
  cases answered : answer before.rest with
  | true => exact holds before counterpart retyped ⟨starts, answered⟩
  | false => exact fails before counterpart retyped ⟨starts, answered⟩

/-- Reading inside of a nonterminal. -/
theorem rule {nonterminal : Nonterminal} (inside : ConcursFrom start rel one other) :
    ConcursFrom start rel (Reading.rule nonterminal one) (Reading.rule nonterminal other) := by
  intro before counterpart retyped starts
  obtain ⟨related, after⟩ := inside (before.enter nonterminal) (counterpart.enter nonterminal)
    ⟨retyped.rest, retyped.errors, retyped.switches⟩ starts
  exact ⟨related, after.rest, after.errors, after.switches⟩

end ConcursFrom

open ConcursFrom

/-! ## Primitives -/

theorem peek_steady : Steady (Option.Rel Token.Alike) peek :=
  look (fun _ => rfl) fun _ _ retyped _ => retyped.next?

/-- A look at the next token that is blind for types. -/
theorem peek_blind {test : Option Token → α} (blind : Blind test) :
    Steady Eq (return test (← peek)) :=
  look (fun _ => rfl) fun _ _ retyped _ => blind _ _ retyped.next?

theorem sees_steady {symbol : String} (apart : symbol ∉ Nonterminal.typeWords) :
    Steady Eq (sees symbol) :=
  peek_blind (.spells apart)

theorem seesAny_steady {terminals : List Terminal} (unifies : Terminal.unifies terminals = true) :
    Steady Eq (seesAny terminals) :=
  peek_blind (.of_unifies unifies)

theorem seesStart_steady (nonterminal : Nonterminal) : Steady Eq (seesStart nonterminal) :=
  peek_blind (.first nonterminal)

theorem seesIdentifier_steady : Steady Eq seesIdentifier := by
  refine peek_blind fun _ _ alike => ?_
  cases alike with
  | none => rfl
  | some alike => exact alike.isIdentifier_eq

theorem line_steady : Steady Eq line := by
  refine peek_blind fun _ _ alike => ?_
  cases alike with
  | none => rfl
  | some alike => exact alike.line_eq

theorem atEnd_steady : Steady Eq atEnd :=
  look (fun _ => rfl) fun _ _ retyped _ => retyped.rest.isEmpty_eq

theorem length_steady : Steady Eq (return (← get).rest.length) :=
  look (fun _ => rfl) fun _ _ retyped _ => retyped.rest.length_eq

/-- What is logged is of no account. -/
theorem log_concurs (entry counterpart : TraceEntry) : Concurs Eq (log entry) (log counterpart) :=
  fun _ _ retyped _ => ⟨rfl, retyped.rest, retyped.errors, retyped.switches⟩

theorem getStuck_steady : Steady Eq getStuck :=
  move (fun _ => rfl) fun _ _ retyped => ⟨retyped.rest, retyped.errors, retyped.switches⟩

theorem complain_steady (complaint : Complaint) : Steady Eq (complain complaint) := by
  refine move (fun _ => rfl) fun one other retyped => ⟨retyped.rest, ?_, retyped.switches⟩
  have token := Token.Alike.map_valueless retyped.next?
  rw [Array.map_push, Array.map_push, retyped.errors, SyntaxError.valueless, SyntaxError.valueless,
    token]

theorem skip_steady : Steady Eq skip :=
  move (fun _ => rfl) fun _ _ retyped => ⟨retyped.rest.tail, retyped.errors, retyped.switches⟩

theorem skipTo_steady {stop : Option Token → Bool} (blind : Blind stop) :
    Steady Eq (skipTo stop) :=
  move (fun _ => rfl) fun _ _ retyped =>
    ⟨retyped.rest.dropWhile blind, retyped.errors, retyped.switches⟩

theorem take_steady (entry : Token → TraceEntry) :
    Steady (Option.Rel Token.Alike) (take entry) := by
  refine peek_steady.bind fun _ _ alike => ?_
  cases alike with
  | none => exact getStuck_steady.andThen fun _ => .pure .none
  | some alike =>
      exact skip_steady.andThen fun _ => (log_concurs _ _).andThen fun _ => .pure (.some alike)

theorem peek_concursFrom : ConcursFrom Token.Kept Eq peek peek :=
  look (fun _ => rfl) fun _ counterpart retyped kept => kept counterpart.rest retyped.rest

/-- A token that is not replaced is read as it is. -/
theorem take_concursFrom (entry : Token → TraceEntry) :
    ConcursFrom Token.Kept Eq (take entry) (take entry) := by
  refine peek_concursFrom.andThen fun next => ?_
  cases next with
  | none => exact getStuck_steady.andThen fun _ => .pure rfl
  | some token => exact skip_steady.andThen fun _ => (log_concurs _ _).andThen fun _ => .pure rfl

theorem identifier?_steady : Steady Eq identifier? := by
  refine ask (fun tokens => tokens.head?.any Token.isIdentifier) (fun _ => rfl)
    seesIdentifier_steady ?_ (.pure rfl)
  exact (take_concursFrom _).starting fun _ starts => .of_isIdentifier starts.2

theorem accept_steady {symbol : String} (apart : symbol ∉ Nonterminal.typeWords) :
    Steady Eq (accept symbol) := by
  refine (sees_steady apart).andThen fun _ => .ite ?_ (.pure rfl)
  exact skip_steady.andThen fun _ => (log_concurs _ _).andThen fun _ => .pure rfl

theorem keyword_steady (symbol : String) : Steady Eq (keyword symbol) :=
  skip_steady.andThen fun _ => log_concurs _ _

theorem demand_steady {symbol : String} (apart : symbol ∉ Nonterminal.typeWords)
    {repair : Reading Unit} (repairs : Steady Eq repair) : Steady Eq (demand symbol repair) :=
  (accept_steady apart).andThen fun _ => .ite repairs (.pure rfl)

theorem abandon_steady (complaint : Complaint) {stop : Option Token → Bool} (blind : Blind stop) :
    Steady Eq (abandon complaint stop) :=
  (complain_steady complaint).andThen fun _ => skipTo_steady blind

theorem recover_steady (nonterminal : Nonterminal) (complaint : Complaint) :
    Steady Eq (recover nonterminal complaint) :=
  (abandon_steady complaint (.or (.first _) (.follow _))).andThen fun _ =>
    seesStart_steady nonterminal

theorem expect_steady (nonterminal : Nonterminal) (complaint : Complaint) :
    Steady Eq (expect nonterminal complaint) :=
  (seesStart_steady nonterminal).andThen fun _ => .ite (.pure rfl) (recover_steady _ complaint)

section

variable {start : List Token → Prop} {rel : α → α → Prop} {yes no otherYes otherNo : Reading α}

/-- A nonterminal is read where it can start. -/
theorem ConcursFrom.expectBranch {nonterminal : Nonterminal} {complaint : Complaint}
    (starts : ConcursFrom (fun tokens => nonterminal.startsWith tokens.head? = true) rel yes
      otherYes) (fails : Concurs rel no otherNo) :
    ConcursFrom start rel (do if ← expect nonterminal complaint then yes else no)
      (do if ← expect nonterminal complaint then otherYes else otherNo) := by
  intro before counterpart retyped _
  have expected := (expect_proceeds nonterminal complaint before).reached.1
  obtain ⟨same, after⟩ := expect_steady nonterminal complaint before counterpart retyped trivial
  rw [StateT.run_bind, StateT.run_bind]
  cases run : (expect nonterminal complaint).run before with | mk can middle =>
  cases otherRun : (expect nonterminal complaint).run counterpart with | mk _ otherMiddle =>
  rw [run] at expected
  rw [run, otherRun] at same after
  obtain rfl : can = _ := same
  cases can with
  | true => exact starts middle otherMiddle after expected.symm
  | false => exact fails middle otherMiddle after trivial

/-- Where the symbol is not next nothing is read. -/
theorem ConcursFrom.acceptBranch {symbol : String} (apart : symbol ∉ Nonterminal.typeWords)
    (accepts : Concurs rel yes otherYes)
    (fails : ConcursFrom (fun tokens => start tokens ∧
      tokens.head?.any (·.spells symbol) = false) rel no otherNo) :
    ConcursFrom start rel (do if ← accept symbol then yes else no)
      (do if ← accept symbol then otherYes else otherNo) := by
  have assoc (front back : Reading α) : (do if ← accept symbol then front else back) = (do
      if ← sees symbol then
        skip
        log (.symbol symbol)
        front
      else back) := by
    rw [accept, bind_assoc]
    refine bind_congr fun seen => ?_
    cases seen <;> simp
  have run (cursor : Cursor) :
      (sees symbol).run cursor = (cursor.rest.head?.any (·.spells symbol), cursor) := rfl
  rw [assoc, assoc]
  refine ask (fun tokens => tokens.head?.any (·.spells symbol)) run (sees_steady apart) ?_ fails
  exact skip_steady.anywhere.andThen fun _ => (log_concurs _ _).andThen fun _ => accepts

end

/-! ## Loops -/

variable {rel : α → α → Prop}

theorem collectFor_steady {round : Reading (Option α)} (rounds : Steady (Option.Rel rel) round)
    (bound : Nat) : Steady (List.Forall₂ rel) (collectFor round bound) := by
  induction bound with
  | zero => exact getStuck_steady.andThen fun _ => .pure .nil
  | succ bound ih =>
      refine rounds.bind fun _ _ next => ?_
      cases next with
      | none => exact .pure .nil
      | some related => exact ih.bind fun _ _ others => .pure (.cons related others)

theorem collect_steady {round : Reading (Option α)} (rounds : Steady (Option.Rel rel) round) :
    Steady (List.Forall₂ rel) (collect round) :=
  length_steady.andThen fun size => collectFor_steady rounds (size + 1)

theorem refineFor_steady {round : α → Reading (Option α)}
    (rounds : ∀ value answer, rel value answer → Concurs (Option.Rel rel) (round value) (round answer))
    (bound : Nat) {value answer : α} (related : rel value answer) :
    Concurs rel (refineFor round bound value) (refineFor round bound answer) := by
  induction bound generalizing value answer with
  | zero => exact getStuck_steady.andThen fun _ => .pure related
  | succ bound ih =>
      refine (rounds value answer related).bind fun _ _ next => ?_
      cases next with
      | none => exact .pure related
      | some later => exact ih later

theorem refine_steady {round : α → Reading (Option α)}
    (rounds : ∀ value answer, rel value answer → Concurs (Option.Rel rel) (round value) (round answer))
    {value answer : α} (related : rel value answer) :
    Concurs rel (refine round value) (refine round answer) :=
  length_steady.andThen fun size => refineFor_steady rounds (size + 1) related

end Reading

end StackLang
