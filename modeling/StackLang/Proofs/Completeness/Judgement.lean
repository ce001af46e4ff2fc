import StackLang.Proofs.Grammar.Prediction
import StackLang.Proofs.Reading.Primitives

/-!
# Reading without errors

`Reading.Takes` says that a reader steps over given tokens without an error, and
`Reading.Meets` that it does so for all tokens that a phrase predicts, as long as
one of given terminals is next behind them.  The rules follow the phrase and the
reader at the same time: what is next at each point is computed from the phrase,
and so is the answer to each question that the reader asks about it.
-/

namespace StackLang

open Terminal (Opens allApart)

namespace Reading

variable {α β : Type} {size : Nat} {tokens front back rest : List Token} {token : Token}
  {phrase head : Phrase} {parts : List Phrase} {known tested next behind : List Terminal}

/-- Nothing is said about the result. -/
def anything : α → Prop := fun _ => True

/-- In front of the tokens and `rest`, the reader steps over the tokens and adds no error. -/
def Takes (reader : Reading α) (tokens rest : List Token) (good : α → Prop) : Prop :=
  ∀ before : Cursor, before.rest = tokens ++ rest →
    good (reader.run before).1 ∧ (reader.run before).2.rest = rest ∧
      (reader.run before).2.errors = before.errors

/-- The reader takes all tokens that the phrase predicts, up to a number of them, if one of
the terminals is next behind them. -/
def Meets (size : Nat) (reader : Reading α) (phrase : Phrase) (next : List Terminal)
    (good : α → Prop) : Prop :=
  ∀ tokens rest, tokens.length ≤ size → phrase.Predicts tokens → Opens next rest →
    Takes reader tokens rest good

/-- The reader looks at the cursor and does not move it. -/
def Looks (reader : Reading α) : Prop := ∀ before : Cursor, (reader.run before).2 = before

theorem next?_eq {before : Cursor} (position : before.rest = tokens) :
    before.next? = tokens.head? := by
  rw [Cursor.next?, position]

namespace Takes

variable {reader : Reading α} {following : α → Reading β} {good weaker : α → Prop}
  {goodAfter : β → Prop} {question : Reading Bool} {found missing : Reading β}

theorem pure {result : α} (holds : good result) : Takes (Pure.pure result) [] rest good :=
  fun _ position => ⟨holds, position, rfl⟩

theorem imp (taken : Takes reader tokens rest good)
    (onGood : ∀ result, good result → weaker result) : Takes reader tokens rest weaker := by
  intro before position
  obtain ⟨holds, unread, errors⟩ := taken before position
  exact ⟨onGood _ holds, unread, errors⟩

theorem bind (first : Takes reader front (back ++ rest) good)
    (second : ∀ result, good result → Takes (following result) back rest goodAfter) :
    Takes (reader >>= following) (front ++ back) rest goodAfter := by
  intro before position
  rw [List.append_assoc] at position
  obtain ⟨holds, unread, errors⟩ := first before position
  obtain ⟨holdsAfter, unreadAfter, errorsAfter⟩ := second _ holds _ unread
  exact ⟨holdsAfter, unreadAfter, Eq.trans errorsAfter errors⟩

/-- A reader that takes nothing comes first. -/
theorem before (first : Takes reader [] (tokens ++ rest) good)
    (second : ∀ result, good result → Takes (following result) tokens rest goodAfter) :
    Takes (reader >>= following) tokens rest goodAfter :=
  bind first second

/-- A reader that takes nothing comes last. -/
theorem after (first : Takes reader tokens rest good)
    (second : ∀ result, good result → Takes (following result) [] rest goodAfter) :
    Takes (reader >>= following) tokens rest goodAfter := by
  have whole : Takes (reader >>= following) (tokens ++ []) rest goodAfter := bind first second
  rwa [List.append_nil] at whole

/-- A look at the cursor does not move it. -/
theorem look {answer : Cursor → α} (run : ∀ before, reader.run before = (answer before, before))
    (taken : ∀ before : Cursor, before.rest = tokens ++ rest →
      Takes (following (answer before)) tokens rest goodAfter) :
    Takes (reader >>= following) tokens rest goodAfter := by
  intro before position
  rw [StateT.run_bind, run before]
  exact taken before position before position

/-- What a look at the cursor tells is known from the tokens. -/
theorem know {answer : α}
    (run : ∀ before : Cursor, before.rest = tokens ++ rest → reader.run before = (answer, before))
    (taken : Takes (following answer) tokens rest goodAfter) :
    Takes (reader >>= following) tokens rest goodAfter := by
  intro before position
  rw [StateT.run_bind, run before position]
  exact taken before position

theorem ask {answer : Bool} {following : Bool → Reading β} (asks : Asks question tested)
    (answered : Terminal.anyAccepts tested (tokens ++ rest).head? = answer)
    (taken : Takes (following answer) tokens rest goodAfter) :
    Takes (question >>= following) tokens rest goodAfter := by
  refine look asks fun before position => ?_
  rw [next?_eq position, answered]
  exact taken

theorem yes (asks : Asks question tested) (opens : Opens tested (tokens ++ rest))
    (taken : Takes found tokens rest goodAfter) :
    Takes (do if ← question then found else missing) tokens rest goodAfter :=
  ask asks opens taken

theorem no (asks : Asks question tested) (opens : Opens known (tokens ++ rest))
    (apart : allApart known tested = true) (taken : Takes missing tokens rest goodAfter) :
    Takes (do if ← question then found else missing) tokens rest goodAfter :=
  ask asks (opens.anyAccepts_eq_false apart) taken

theorem skip : Takes Reading.skip [token] rest anything :=
  fun _ position => ⟨trivial, congrArg List.tail position, rfl⟩

theorem log (entry : TraceEntry) : Takes (Reading.log entry) [] rest anything :=
  fun _ position => ⟨trivial, position, rfl⟩

/-- Stepping over the next token and logging it. -/
theorem consume {entry : TraceEntry} {remaining : Reading β}
    (taken : Takes remaining tokens rest goodAfter) :
    Takes (do Reading.skip; Reading.log entry; remaining) (token :: tokens) rest goodAfter := by
  change Takes _ ([token] ++ tokens) rest goodAfter
  exact bind skip fun _ _ => before (log entry) fun _ _ => taken

theorem take (entry : Token → TraceEntry) :
    Takes (Reading.take entry) [token] rest fun token? => token? = some token := by
  refine look (fun _ => rfl) fun cursor position => ?_
  rw [next?_eq position]
  exact consume (pure rfl)

theorem accept {symbol : String} (spelled : token.spells symbol = true) :
    Takes (Reading.accept symbol) [token] rest (· = true) := by
  refine yes (asks_sees symbol) ?_ (consume (pure rfl))
  simpa [Opens, Terminal.anyAccepts] using spelled

theorem decline {symbol : String} (opens : Opens known rest)
    (apart : allApart known [.word symbol] = true) :
    Takes (Reading.accept symbol) [] rest (· = false) :=
  no (asks_sees symbol) opens apart (pure rfl)

theorem accepted {symbol : String} (spelled : token.spells symbol = true)
    (taken : Takes found tokens rest goodAfter) :
    Takes (do if ← Reading.accept symbol then found else missing) (token :: tokens) rest
      goodAfter := by
  change Takes _ ([token] ++ tokens) rest goodAfter
  refine .bind (.accept spelled) ?_
  rintro _ rfl
  exact taken

theorem declined {symbol : String} (opens : Opens known (tokens ++ rest))
    (apart : allApart known [.word symbol] = true) (taken : Takes missing tokens rest goodAfter) :
    Takes (do if ← Reading.accept symbol then found else missing) tokens rest goodAfter := by
  refine .before (.decline opens apart) ?_
  rintro _ rfl
  exact taken

theorem demand {symbol : String} {repair : Reading Unit} (spelled : token.spells symbol = true) :
    Takes (Reading.demand symbol repair) [token] rest anything := by
  refine .after (.accept spelled) ?_
  rintro _ rfl
  exact .pure trivial

theorem expect {nonterminal : Nonterminal} {complaint : Complaint}
    (opens : Opens nonterminal.first (tokens ++ rest))
    (taken : Takes found tokens rest goodAfter) :
    Takes (do if ← Reading.expect nonterminal complaint then found else missing) tokens rest
      goodAfter := by
  refine .before (.yes (asks_seesStart nonterminal) opens (.pure rfl)) ?_
  rintro _ rfl
  exact taken

theorem rule {nonterminal : Nonterminal} (inside : Takes reader tokens rest good) :
    Takes (Reading.rule nonterminal reader) tokens rest good :=
  fun before position => inside (before.enter nonterminal) position

end Takes

namespace Meets

variable {reader : Reading α} {following : α → Reading β} {good weaker : α → Prop}
  {goodAfter : β → Prop} {question : Reading Bool} {found missing : Reading β} {smaller : Nat}
  {symbol : String} {label : Category}

theorem mono (meets : Meets size reader phrase behind good) (le : smaller ≤ size)
    (within : next ⊆ behind) : Meets smaller reader phrase next good :=
  fun tokens rest short predicted follows =>
    meets tokens rest (Nat.le_trans short le) predicted (follows.mono within)

theorem shrink (meets : Meets (size + 1) reader phrase next good) :
    Meets size reader phrase next good :=
  meets.mono (Nat.le_succ size) (List.Subset.refl next)

theorem imp (meets : Meets size reader phrase next good)
    (onGood : ∀ result, good result → weaker result) : Meets size reader phrase next weaker :=
  fun tokens rest short predicted follows => (meets tokens rest short predicted follows).imp onGood

/-- A result is made of the one that was read. -/
theorem map {function : α → β} (meets : Meets size reader phrase next good)
    (onGood : ∀ result, good result → goodAfter (function result)) :
    Meets size (do return function (← reader)) phrase next goodAfter :=
  fun tokens rest short predicted follows =>
    .after (meets tokens rest short predicted follows) fun result holds =>
      .pure (onGood result holds)

/-- Nothing is asked of the result. -/
theorem void {function : α → β} (meets : Meets size reader phrase next good) :
    Meets size (do return function (← reader)) phrase next anything :=
  meets.map fun _ _ => trivial

/-- A phrase that is not empty does not fit into no tokens. -/
theorem zero (solid : phrase.isSolid = true) : Meets 0 reader phrase next good := by
  intro tokens rest short predicted _
  have present := predicted.length_pos solid
  omega

theorem rule {nonterminal : Nonterminal} (inside : Meets size reader phrase next good) :
    Meets size (Reading.rule nonterminal reader) phrase next good :=
  fun tokens rest short predicted follows => .rule (inside tokens rest short predicted follows)

theorem category (inside : Meets size reader label.production next good) :
    Meets size reader (.category label) next good :=
  fun tokens rest short predicted follows =>
    inside tokens rest short predicted.of_category follows

theorem production (label : Category) (outside : Meets size reader (.category label) next good) :
    Meets size reader label.production next good :=
  fun tokens rest short predicted follows =>
    outside tokens rest short (.category predicted) follows

/-! ### Sequences -/

theorem done {result : α} (holds : good result) :
    Meets size (pure result) (.sequence []) next good := by
  intro tokens rest _ predicted _
  rw [predicted.of_done]
  exact .pure holds

theorem part (first : Meets size reader head behind good)
    (within : (Phrase.sequence parts).opening next ⊆ behind)
    (remaining : ∀ result, good result →
      Meets size (following result) (.sequence parts) next goodAfter) :
    Meets size (reader >>= following) (.sequence (head :: parts)) next goodAfter := by
  intro tokens rest short predicted follows
  obtain ⟨front, back, rfl, frontPredicted, backPredicted⟩ := predicted.of_next
  rw [List.length_append] at short
  refine .bind (first front _ (by omega) frontPredicted ?_) fun result holds => ?_
  · exact (backPredicted.opens_append follows).mono within
  · exact remaining result holds back rest (by omega) backPredicted follows

/-- A part that is not empty leaves less for the others. -/
theorem solidPart (first : Meets (size + 1) reader head behind good)
    (solid : head.isSolid = true) (within : (Phrase.sequence parts).opening next ⊆ behind)
    (remaining : ∀ result, good result →
      Meets size (following result) (.sequence parts) next goodAfter) :
    Meets (size + 1) (reader >>= following) (.sequence (head :: parts)) next goodAfter := by
  intro tokens rest short predicted follows
  obtain ⟨front, back, rfl, frontPredicted, backPredicted⟩ := predicted.of_next
  have present := frontPredicted.length_pos solid
  rw [List.length_append] at short
  refine .bind (first front _ (by omega) frontPredicted ?_) fun result holds => ?_
  · exact (backPredicted.opens_append follows).mono within
  · exact remaining result holds back rest (by omega) backPredicted follows

theorem last (only : Meets size reader head next good) :
    Meets size reader (.sequence [head]) next good := by
  intro tokens rest short predicted follows
  exact only tokens rest short predicted.of_last follows

theorem only (last : Meets size reader (.sequence [head]) next good) :
    Meets size reader head next good := by
  intro tokens rest short predicted follows
  have whole := Phrase.Predicts.next predicted .done
  rw [List.append_nil] at whole
  exact last tokens rest short whole follows

/-- A sequence in front is a part of the whole sequence. -/
theorem flatten {inner : List Phrase} (whole : Meets size reader (.sequence (inner ++ parts)) next good) :
    Meets size reader (.sequence (.sequence inner :: parts)) next good :=
  fun tokens rest short predicted follows => whole tokens rest short predicted.flatten follows

theorem optional (present : Meets size reader (.sequence (head :: parts)) next good)
    (absent : Meets size reader (.sequence parts) next good) :
    Meets size reader (.sequence (.optional head :: parts)) next good := by
  intro tokens rest short predicted follows
  obtain ⟨front, back, rfl, frontPredicted, backPredicted⟩ := predicted.of_next
  rcases frontPredicted.of_optional with rfl | inside
  · exact absent back rest short backPredicted follows
  · exact present _ rest short (.next inside backPredicted) follows

theorem choice {alternatives : List Phrase}
    (each : ∀ alternative ∈ alternatives, Meets size reader alternative next good) :
    Meets size reader (.choice alternatives) next good := by
  intro tokens rest short predicted follows
  obtain ⟨alternative, member, _, inside⟩ := predicted.of_choice
  exact each alternative member tokens rest short inside follows

/-- One of several phrases is in front. -/
theorem choiceFirst {alternatives : List Phrase}
    (each : ∀ alternative ∈ alternatives,
      Meets size reader (.sequence (alternative :: parts)) next good) :
    Meets size reader (.sequence (.choice alternatives :: parts)) next good := by
  intro tokens rest short predicted follows
  obtain ⟨front, back, rfl, chosen, others⟩ := predicted.of_next
  obtain ⟨alternative, member, _, inside⟩ := chosen.of_choice
  exact each alternative member _ rest short (.next inside others) follows

/-! ### Questions -/

theorem look (looks : Looks reader)
    (taken : ∀ answer, Meets size (following answer) phrase next goodAfter) :
    Meets size (reader >>= following) phrase next goodAfter :=
  fun tokens rest short predicted follows =>
    .look (fun cursor => Prod.ext rfl (looks cursor)) fun _ _ =>
      taken _ tokens rest short predicted follows

/-- A reader that takes nothing comes first. -/
theorem before (first : ∀ rest, Takes reader [] rest good)
    (second : ∀ result, good result → Meets size (following result) phrase next goodAfter) :
    Meets size (reader >>= following) phrase next goodAfter :=
  fun tokens rest short predicted follows =>
    .before (first _) fun result holds => second result holds tokens rest short predicted follows

theorem affirm {following : Bool → Reading β} (asks : Asks question tested)
    (within : phrase.opening next ⊆ tested)
    (taken : Meets size (following true) phrase next goodAfter) :
    Meets size (question >>= following) phrase next goodAfter :=
  fun tokens rest short predicted follows =>
    .ask asks ((predicted.opens_append follows).mono within)
      (taken tokens rest short predicted follows)

theorem deny {following : Bool → Reading β} (asks : Asks question tested)
    (apart : allApart (phrase.opening next) tested = true)
    (taken : Meets size (following false) phrase next goodAfter) :
    Meets size (question >>= following) phrase next goodAfter :=
  fun tokens rest short predicted follows =>
    .ask asks ((predicted.opens_append follows).anyAccepts_eq_false apart)
      (taken tokens rest short predicted follows)

theorem yes (asks : Asks question tested) (within : phrase.opening next ⊆ tested)
    (taken : Meets size found phrase next goodAfter) :
    Meets size (do if ← question then found else missing) phrase next goodAfter :=
  affirm asks within taken

theorem no (asks : Asks question tested) (apart : allApart (phrase.opening next) tested = true)
    (taken : Meets size missing phrase next goodAfter) :
    Meets size (do if ← question then found else missing) phrase next goodAfter :=
  deny asks apart taken

/-! ### Symbols -/

theorem accept : Meets size (Reading.accept symbol) (Phrase.word symbol) next (· = true) := by
  intro tokens rest _ predicted _
  obtain ⟨token, rfl, spelled⟩ := predicted.of_terminal
  exact .accept spelled

theorem accepted (taken : Meets size found (.sequence parts) next goodAfter) :
    Meets (size + 1) (do if ← Reading.accept symbol then found else missing)
      (.sequence (Phrase.word symbol :: parts)) next goodAfter := by
  refine solidPart accept rfl (List.Subset.refl _) ?_
  rintro _ rfl
  exact taken

theorem declined (apart : allApart (phrase.opening next) [.word symbol] = true)
    (taken : Meets size missing phrase next goodAfter) :
    Meets size (do if ← Reading.accept symbol then found else missing) phrase next goodAfter := by
  intro tokens rest short predicted follows
  exact .declined (predicted.opens_append follows) apart (taken tokens rest short predicted follows)

theorem declinedUnless (apart : allApart (phrase.opening next) [.word symbol] = true)
    (taken : Meets size missing phrase next goodAfter) :
    Meets size (do if !(← Reading.accept symbol) then missing else found) phrase next
      goodAfter := by
  rw [unless_eq]
  exact declined apart taken

theorem acceptedUnless (taken : Meets size found (.sequence parts) next goodAfter) :
    Meets (size + 1) (do if !(← Reading.accept symbol) then missing else found)
      (.sequence (Phrase.word symbol :: parts)) next goodAfter := by
  rw [unless_eq]
  exact accepted taken

theorem keyword : Meets size (Reading.keyword symbol) (Phrase.word symbol) next anything := by
  intro tokens rest _ predicted _
  obtain ⟨token, rfl, _⟩ := predicted.of_terminal
  exact .after .skip fun _ _ => .log _

/-- Stepping over a token and logging it. -/
theorem consume {symbol : Terminal} {entry : TraceEntry}
    (taken : Meets size found (.sequence parts) next goodAfter) :
    Meets (size + 1) (do skip; log entry; found) (.sequence (.terminal symbol :: parts)) next
      goodAfter := by
  intro tokens rest short predicted follows
  obtain ⟨_, back, rfl, single, others⟩ := predicted.of_next
  obtain ⟨token, rfl, _⟩ := single.of_terminal
  exact .consume (taken back rest (by simp at short; omega) others follows)

theorem demand {repair : Reading Unit} :
    Meets size (Reading.demand symbol repair) (Phrase.word symbol) next anything := by
  intro tokens rest _ predicted _
  obtain ⟨token, rfl, spelled⟩ := predicted.of_terminal
  exact .demand spelled

theorem expect {nonterminal : Nonterminal} {complaint : Complaint}
    (within : phrase.opening next ⊆ nonterminal.first)
    (taken : Meets size found phrase next goodAfter) :
    Meets size (do if ← Reading.expect nonterminal complaint then found else missing) phrase next
      goodAfter := by
  intro tokens rest short predicted follows
  have opens := (predicted.opens_append follows).mono within
  exact .expect opens (taken tokens rest short predicted follows)

theorem expectUnless {nonterminal : Nonterminal} {complaint : Complaint}
    (within : phrase.opening next ⊆ nonterminal.first)
    (taken : Meets size found phrase next goodAfter) :
    Meets size (do if !(← Reading.expect nonterminal complaint) then missing else found) phrase next
      goodAfter := by
  rw [unless_eq]
  exact expect within taken

/-- A phrase for one token is next. -/
theorem take (entry : Token → TraceEntry)
    (single : ∀ tokens, phrase.Predicts tokens → ∃ token, tokens = [token]) :
    Meets size (Reading.take entry) phrase next (fun token? => ∃ token, token? = some token) := by
  intro tokens rest _ predicted _
  obtain ⟨token, rfl⟩ := single tokens predicted
  exact (Takes.take entry).imp fun _ read => ⟨token, read⟩

theorem identifier? :
    Meets size Reading.identifier? Phrase.identifier next
      (fun name? => ∃ name, name? = some name) := by
  refine yes asks_seesIdentifier (List.Subset.refl [Terminal.identifier]) (take _ ?_)
  intro tokens predicted
  obtain ⟨token, rfl, _⟩ := predicted.of_terminal
  exact ⟨token, rfl⟩

/-! ### Loops -/

/-- A round of a loop takes an item, and behind the last item a round takes nothing and ends
the loop. -/
theorem refine {round : α → Reading (Option α)} (holds : α → Prop)
    (solid : head.isSolid = true)
    (step : ∀ value, holds value →
      Meets size (round value) head ((Phrase.many head).opening next)
        fun value? => ∃ later, value? = some later ∧ holds later)
    (stop : ∀ value rest, holds value → Opens next rest →
      Takes (round value) [] rest (· = none))
    (value : α) (initially : holds value) :
    Meets size (Reading.refine round value) (.many head) next anything := by
  intro tokens rest short predicted follows
  refine .look (fun _ => rfl) fun cursor position => ?_
  have enough : tokens.length < cursor.rest.length + 1 := by
    rw [position, List.length_append]
    omega
  refine predicted.rounds (motive := fun bound tokens => ∀ value, holds value →
    tokens.length ≤ size → Takes (refineFor round bound value) tokens rest anything) solid
    ?_ ?_ _ enough value initially short
  · intro bound value holdsNow _
    refine .before (stop value rest holdsNow follows) ?_
    rintro _ rfl
    exact .pure trivial
  · intro bound front back item others ih value holdsNow short
    rw [List.length_append] at short
    refine .bind (step value holdsNow front _ (by omega) item (others.opens_append follows)) ?_
    rintro _ ⟨later, rfl, holdsLater⟩
    exact ih later holdsLater (by omega)

theorem collect {round : Reading (Option α)} (solid : head.isSolid = true)
    (step : Meets size round head ((Phrase.many head).opening next)
      fun result? => ∃ result, result? = some result)
    (stop : ∀ rest, Opens next rest → Takes round [] rest (· = none)) :
    Meets size (Reading.collect round) (.many head) next anything := by
  intro tokens rest short predicted follows
  refine .look (fun _ => rfl) fun cursor position => ?_
  have enough : tokens.length < cursor.rest.length + 1 := by
    rw [position, List.length_append]
    omega
  refine predicted.rounds (motive := fun bound tokens => tokens.length ≤ size →
    Takes (collectFor round bound) tokens rest anything) solid ?_ ?_ _ enough short
  · intro bound _
    refine .before (stop rest follows) ?_
    rintro _ rfl
    exact .pure trivial
  · intro bound front back item others ih short
    rw [List.length_append] at short
    refine .bind (step front _ (by omega) item (others.opens_append follows)) ?_
    rintro _ ⟨result, rfl⟩
    exact .after (ih (by omega)) fun _ _ => .pure trivial

end Meets

end Reading

end StackLang
