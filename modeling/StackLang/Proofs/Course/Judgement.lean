import StackLang.Proofs.Termination.Judgement

/-!
# Courses of reading

`Cursor.Course` says once what a reader can do to a cursor: step over tokens, complain, log
a leaf of the trace, and read inside of a nonterminal.  Every run of every reader is such a
course, so what these steps keep is kept by reading, by induction over the course.
-/

namespace StackLang

/-- A symbol that cannot be taken for a nonterminal, a name or a literal in a trace. -/
def Legible (symbol : String) : Prop :=
  symbol.toList.head? ≠ some ' ' ∧ symbol.toList.head? ≠ some 'R' ∧
    symbol.toList.head? ≠ some 'I' ∧ symbol.toList.head? ≠ some 'L'

instance (symbol : String) : Decidable (Legible symbol) := inferInstanceAs (Decidable (_ ∧ _))

/-- A leaf of a trace, whose symbol, if it is one, is legible. -/
def TraceEntry.IsLeaf : TraceEntry → Prop
  | .enter _ => False
  | .symbol text => Legible text
  | .identifier _ | .literal _ | .resumed => True

/-- What readers do to a cursor. -/
inductive Cursor.Course : Cursor → Cursor → Prop
  | done (cursor : Cursor) : Course cursor cursor
  | trans {before middle after : Cursor} (front : Course before middle)
      (back : Course middle after) : Course before after
  | skip (cursor : Cursor) :
      Course cursor { cursor with
        rest := cursor.rest.tail, stuck := cursor.stuck || cursor.rest.isEmpty }
  | skipTo (stop : Option Token → Bool) (cursor : Cursor) :
      Course cursor { cursor with
        rest := cursor.rest.dropWhile fun token => !stop (some token) }
  | complain (complaint : Complaint) (cursor : Cursor) :
      Course cursor { cursor with errors := cursor.errors.push ⟨complaint, cursor.next?⟩ }
  | log (entry : TraceEntry) (leaf : entry.IsLeaf) (cursor : Cursor) :
      Course cursor { cursor with trace := cursor.trace.push ⟨cursor.depth, entry⟩ }
  | note (stuck : Bool) (cursor : Cursor) : Course cursor { cursor with stuck := stuck }
  | count (cursor : Cursor) : Course cursor { cursor with switches := cursor.switches + 1 }
  | rule (nonterminal : Nonterminal) {before after : Cursor}
      (inside : Course (before.enter nonterminal) after) :
      Course before { after with depth := before.depth }

namespace Reading

variable {α β : Type} {before : Cursor}

/-- A run of a reader is a course. -/
def Courses (reader : Reading α) (before : Cursor) : Prop := before.Course (reader.run before).2

namespace Courses

theorem pure (result : α) : Courses (Pure.pure result) before := .done before

theorem bind {reader : Reading α} {next : α → Reading β} (first : Courses reader before)
    (second : ∀ result middle, reader.run before = (result, middle) →
      Courses (next result) middle) :
    Courses (reader >>= next) before :=
  .trans first (second _ _ rfl)

theorem map {reader : Reading α} {function : α → β} (courses : Courses reader before) :
    Courses (function <$> reader) before :=
  courses

theorem ite {condition : Prop} [Decidable condition] {yes no : Reading α}
    (holds : condition → Courses yes before) (fails : ¬condition → Courses no before) :
    Courses (if condition then yes else no) before := by
  split
  · next condition => exact holds condition
  · next condition => exact fails condition

/-- A look at the cursor does not move it. -/
theorem look {reader : Reading α} {next : α → Reading β} (answer : α)
    (run : reader.run before = (answer, before)) (rest : Courses (next answer) before) :
    Courses (reader >>= next) before := by
  have whole : (reader >>= next).run before = (next answer).run before := by
    rw [StateT.run_bind, run]
    rfl
  rwa [Courses, whole]

/-- A look at the cursor that decides between two ways to go on. -/
theorem branch {question : Reading Bool} {yes no : Reading α} (answer : Bool)
    (run : question.run before = (answer, before))
    (holds : answer = true → Courses yes before) (fails : answer = false → Courses no before) :
    Courses (do if ← question then yes else no) before := by
  refine look answer run (ite holds fun failed => fails ?_)
  simpa using failed

/-- Reading inside of a nonterminal. -/
theorem rule {nonterminal : Nonterminal} {body : Reading α}
    (inside : Courses body (before.enter nonterminal)) :
    Courses (Reading.rule nonterminal body) before :=
  Cursor.Course.rule nonterminal inside

/-- Behind a nonterminal the depth is the one at which it was entered. -/
theorem enters {nonterminal : Nonterminal} {body : Reading α}
    (inside : Courses body (before.enter nonterminal)) :
    ∃ after, (before.enter nonterminal).Course after ∧
      ((Reading.rule nonterminal body).run before).2 = { after with depth := before.depth } :=
  ⟨_, inside, rfl⟩

/-- Stepping over the next token and logging it. -/
theorem consume {entry : TraceEntry} {rest : Reading α} (leaf : entry.IsLeaf)
    (given : ∀ middle, Courses rest middle) : Courses (do skip; log entry; rest) before :=
  .trans (.trans (.skip before) (.log entry leaf _)) (given _)

end Courses

/-! ## Primitives -/

theorem complain_courses (complaint : Complaint) (before : Cursor) :
    Courses (complain complaint) before :=
  .complain complaint before

theorem skipTo_courses (stop : Option Token → Bool) (before : Cursor) :
    Courses (skipTo stop) before :=
  .skipTo stop before

theorem getStuck_courses (before : Cursor) : Courses getStuck before := .note true before

theorem abandon_courses (complaint : Complaint) (stop : Option Token → Bool) (before : Cursor) :
    Courses (abandon complaint stop) before :=
  (complain_courses complaint before).bind fun _ middle _ => skipTo_courses stop middle

theorem keyword_courses {symbol : String} (legible : Legible symbol) (before : Cursor) :
    Courses (keyword symbol) before :=
  .trans (.skip before) (.log (.symbol symbol) legible _)

theorem accept_courses {symbol : String} (legible : Legible symbol) (before : Cursor) :
    Courses (accept symbol) before :=
  .branch (before.sees symbol) rfl (fun _ => .consume legible fun _ => .pure true) fun _ =>
    .pure false

theorem demand_courses {symbol : String} {repair : Reading Unit} (legible : Legible symbol)
    (repairs : ∀ before, Courses repair before) (before : Cursor) :
    Courses (demand symbol repair) before :=
  (accept_courses legible before).bind fun _ middle _ =>
    .ite (fun _ => repairs middle) fun _ => .pure ()

theorem take_courses (entry : Token → TraceEntry)
    (leaf : ∀ token, before.next? = some token → (entry token).IsLeaf) :
    Courses (take entry) before := by
  refine .look before.next? rfl ?_
  cases next : before.next? with
  | none => exact (getStuck_courses before).bind fun _ _ _ => .pure none
  | some token => exact .consume (leaf token next) fun _ => .pure (some token)

theorem identifier?_courses (before : Cursor) : Courses identifier? before :=
  .branch before.seesIdentifier rfl (fun _ => take_courses _ fun _ _ => trivial) fun _ =>
    .pure none

theorem recover_courses (nonterminal : Nonterminal) (complaint : Complaint) (before : Cursor) :
    Courses (recover nonterminal complaint) before :=
  (abandon_courses complaint _ before).bind fun _ _ _ => .look _ rfl (.pure _)

theorem expect_courses (nonterminal : Nonterminal) (complaint : Complaint) (before : Cursor) :
    Courses (expect nonterminal complaint) before :=
  .branch (before.seesStart nonterminal) rfl (fun _ => .pure true) fun _ =>
    recover_courses nonterminal complaint before

/-- A nonterminal is read where it can start, if need be after skipping. -/
theorem Courses.expectBranch {nonterminal : Nonterminal} {complaint : Complaint}
    {yes no : Reading α}
    (start : ∀ middle : Cursor, middle.seesStart nonterminal = true → Courses yes middle)
    (giveUp : ∀ middle, Courses no middle) :
    Courses (do if ← expect nonterminal complaint then yes else no) before := by
  refine (expect_courses nonterminal complaint before).bind fun starts middle run => ?_
  have expected := (expect_proceeds nonterminal complaint before).reached.1
  rw [run] at expected
  exact .ite (fun can => start middle (expected ▸ can)) fun _ => giveUp middle

theorem Courses.expectUnless {nonterminal : Nonterminal} {complaint : Complaint}
    {yes no : Reading α}
    (start : ∀ middle : Cursor, middle.seesStart nonterminal = true → Courses yes middle)
    (giveUp : ∀ middle, Courses no middle) :
    Courses (do if !(← expect nonterminal complaint) then no else yes) before := by
  rw [unless_eq]
  exact .expectBranch start giveUp

/-! ## Loops -/

theorem collectFor_courses {round : Reading (Option α)} (rounds : ∀ cursor, Courses round cursor)
    (bound : Nat) (before : Cursor) : Courses (collectFor round bound) before := by
  induction bound generalizing before with
  | zero => exact (getStuck_courses before).bind fun _ _ _ => .pure []
  | succ bound ih =>
      refine (rounds before).bind fun next? middle _ => ?_
      cases next? with
      | none => exact .pure []
      | some next => exact (ih middle).bind fun _ _ _ => .pure _

theorem collect_courses {round : Reading (Option α)} (rounds : ∀ cursor, Courses round cursor)
    (before : Cursor) : Courses (collect round) before :=
  .look before rfl (collectFor_courses rounds _ before)

theorem refineFor_courses {round : α → Reading (Option α)}
    (rounds : ∀ value cursor, Courses (round value) cursor) (bound : Nat) (value : α)
    (before : Cursor) : Courses (refineFor round bound value) before := by
  induction bound generalizing value before with
  | zero => exact (getStuck_courses before).bind fun _ _ _ => .pure value
  | succ bound ih =>
      refine (rounds value before).bind fun next? middle _ => ?_
      cases next? with
      | none => exact .pure value
      | some next => exact ih next middle

theorem refine_courses {round : α → Reading (Option α)}
    (rounds : ∀ value cursor, Courses (round value) cursor) (value : α) (before : Cursor) :
    Courses (refine round value) before :=
  .look before rfl (refineFor_courses rounds _ value before)

end Reading

end StackLang
