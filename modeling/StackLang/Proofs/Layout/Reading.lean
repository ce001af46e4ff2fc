import StackLang.Proofs.Layout.Erasure

/-!
# Reading without lines

`Reading.Unlines` compares two runs: from a cursor without lines a reader gets to where
it gets with them, and what it reads is the same but for the lines.  Every primitive
reader is compared with itself here; the rules say how readers are put together from
others.
-/

namespace StackLang

/-- The cursor without lines, neither ahead nor in what has been recorded. -/
def Cursor.unlined (cursor : Cursor) : Cursor :=
  { cursor with
    rest := cursor.rest.map Token.unlined
    errors := cursor.errors.map SyntaxError.unlined }

namespace Cursor

theorem unlined_initial (tokens : List Token) :
    (initial tokens).unlined = initial (tokens.map Token.unlined) := by
  simp only [unlined, initial, Array.map_empty]

theorem unlined_next? (cursor : Cursor) :
    cursor.unlined.next? = cursor.next?.map Token.unlined :=
  List.head?_map ..

theorem unlined_length (cursor : Cursor) :
    cursor.unlined.rest.length = cursor.rest.length :=
  List.length_map ..

end Cursor

namespace Reading

variable {α β : Type}

/-- From a cursor without lines, `other` reads what `one` reads, up to lines. -/
def Unlines (erase : α → α) (one other : Reading α) : Prop :=
  ∀ cursor : Cursor,
    other.run cursor.unlined = (erase (one.run cursor).1, (one.run cursor).2.unlined)

/-- The answer of the reader does not depend on lines. -/
abbrev Unmoved (one other : Reading α) : Prop := Unlines id one other

namespace Unlines

variable {erase : α → α} {finish : β → β} {one other : Reading α}

theorem pure {result counterpart : α} (alike : counterpart = erase result) :
    Unlines erase (Pure.pure result) (Pure.pure counterpart) := by
  subst alike
  exact fun _ => rfl

theorem bind {next following : α → Reading β} (first : Unlines erase one other)
    (second : ∀ result, Unlines finish (next result) (following (erase result))) :
    Unlines finish (one >>= next) (other >>= following) := by
  intro cursor
  rw [StateT.run_bind, first cursor]
  exact second _ _

/-- A first part whose answer does not depend on lines. -/
theorem andThen {next following : α → Reading β} (first : Unmoved one other)
    (second : ∀ result, Unlines finish (next result) (following result)) :
    Unlines finish (one >>= next) (other >>= following) :=
  first.bind second

theorem map {function counterpart : α → β} (given : Unlines erase one other)
    (alike : ∀ result, counterpart (erase result) = finish (function result)) :
    Unlines finish (function <$> one) (counterpart <$> other) := by
  intro cursor
  rw [StateT.run_map, StateT.run_map, given cursor]
  exact congrArg (fun result => (result, _)) (alike _)

theorem ite {condition : Prop} [Decidable condition] {two second : Reading α}
    (holds : Unlines erase one other) (fails : Unlines erase two second) :
    Unlines erase (if condition then one else two) (if condition then other else second) := by
  split
  · exact holds
  · exact fails

/-- A look at the whole cursor. -/
theorem get {next following : Cursor → Reading β}
    (rest : ∀ cursor, Unlines finish (next cursor) (following cursor.unlined)) :
    Unlines finish (do next (← MonadState.get)) (do following (← MonadState.get)) :=
  fun cursor => rest cursor cursor

/-- A look at the cursor whose answer does not depend on lines. -/
theorem ofRun {answer : Cursor → α} (run : ∀ cursor, one.run cursor = (answer cursor, cursor))
    (alike : ∀ cursor, answer cursor.unlined = erase (answer cursor)) : Unlines erase one one := by
  intro cursor
  rw [run, run, alike]

/-- A step that only moves the cursor. -/
theorem ofMove {reader : Reading Unit} {move : Cursor → Cursor}
    (run : ∀ cursor, reader.run cursor = ((), move cursor))
    (alike : ∀ cursor, move cursor.unlined = (move cursor).unlined) : Unmoved reader reader := by
  intro cursor
  rw [run, run, alike]

/-- Reading inside of a nonterminal. -/
theorem rule {nonterminal : Nonterminal} (inside : Unlines erase one other) :
    Unlines erase (Reading.rule nonterminal one) (Reading.rule nonterminal other) := by
  intro cursor
  let entered : Cursor :=
    { cursor with
      depth := cursor.depth + 1
      trace := cursor.trace.push ⟨cursor.depth, .enter nonterminal⟩ }
  have same := inside entered
  show (((other.run entered.unlined).1,
    { (other.run entered.unlined).2 with depth := cursor.depth }) : α × Cursor) = _
  rw [same]
  rfl

end Unlines

open Unlines

/-- Whether to stop at a token does not depend on its line. -/
def StopsAlike (stop : Option Token → Bool) : Prop :=
  ∀ next, stop (next.map Token.unlined) = stop next

/-! ## Primitives -/

theorem peek_unlines : Unlines (Option.map Token.unlined) peek peek :=
  ofRun (fun _ => rfl) Cursor.unlined_next?

theorem sees_unmoved (symbol : String) : Unmoved (sees symbol) (sees symbol) := by
  refine peek_unlines.bind fun next => .pure ?_
  cases next with
  | none => rfl
  | some token => rfl

theorem seesAny_unmoved (terminals : List Terminal) :
    Unmoved (seesAny terminals) (seesAny terminals) :=
  peek_unlines.bind fun next => .pure (Terminal.anyAccepts_unlined terminals next)

theorem seesStart_unmoved (nonterminal : Nonterminal) :
    Unmoved (seesStart nonterminal) (seesStart nonterminal) :=
  seesAny_unmoved _

theorem seesIdentifier_unmoved : Unmoved seesIdentifier seesIdentifier := by
  refine peek_unlines.bind fun next => .pure ?_
  cases next with
  | none => rfl
  | some token => rfl

theorem seesType_unmoved : Unmoved seesType seesType := seesStart_unmoved .type

theorem atEnd_unmoved : Unmoved atEnd atEnd :=
  ofRun (fun _ => rfl) fun _ => List.isEmpty_map

/-- The line itself is all that is lost. -/
theorem line_unlines : Unlines (fun _ => 0) line line := by
  refine peek_unlines.bind fun next => .pure ?_
  cases next with
  | none => rfl
  | some token => rfl

theorem length_unmoved : Unmoved (return (← get).rest.length) (return (← get).rest.length) :=
  ofRun (fun _ => rfl) Cursor.unlined_length

theorem log_unmoved (entry : TraceEntry) : Unmoved (log entry) (log entry) :=
  ofMove (fun _ => rfl) fun _ => rfl

theorem complain_unmoved (complaint : Complaint) :
    Unmoved (complain complaint) (complain complaint) := by
  refine ofMove (fun _ => rfl) fun cursor => ?_
  have recorded : (cursor.errors.map SyntaxError.unlined).push ⟨complaint, cursor.unlined.next?⟩ =
      (cursor.errors.push ⟨complaint, cursor.next?⟩).map SyntaxError.unlined := by
    rw [Array.map_push, Cursor.unlined_next?]
    rfl
  exact congrArg (fun errors => { cursor.unlined with errors := errors }) recorded

theorem getStuck_unmoved : Unmoved getStuck getStuck :=
  ofMove (fun _ => rfl) fun _ => rfl

theorem skip_unmoved : Unmoved skip skip := by
  refine ofMove (fun _ => rfl) fun cursor => ?_
  have tail : (cursor.rest.map Token.unlined).tail = cursor.rest.tail.map Token.unlined :=
    List.map_tail.symm
  have none : (cursor.rest.map Token.unlined).isEmpty = cursor.rest.isEmpty := List.isEmpty_map
  show ({ cursor.unlined with rest := _, stuck := cursor.stuck || _ } : Cursor) = _
  rw [Cursor.unlined, tail, none]
  rfl

theorem dropWhile_unlined {stop : Option Token → Bool} (alike : StopsAlike stop)
    (tokens : List Token) :
    (tokens.map Token.unlined).dropWhile (fun token => !stop (some token)) =
      (tokens.dropWhile fun token => !stop (some token)).map Token.unlined := by
  induction tokens with
  | nil => rfl
  | cons token rest ih =>
      have same : stop (some token.unlined) = stop (some token) := alike (some token)
      cases stops : stop (some token) with
      | true => simp [same, stops]
      | false => simpa [same, stops] using ih

theorem skipTo_unmoved {stop : Option Token → Bool} (alike : StopsAlike stop) :
    Unmoved (skipTo stop) (skipTo stop) := by
  refine ofMove (fun _ => rfl) fun cursor => ?_
  have dropped := dropWhile_unlined alike cursor.rest
  exact congrArg (fun rest => { cursor.unlined with rest := rest }) dropped

theorem take_unlines {entry : Token → TraceEntry}
    (alike : ∀ token, entry token.unlined = entry token) :
    Unlines (Option.map Token.unlined) (take entry) (take entry) := by
  refine peek_unlines.bind fun next => ?_
  cases next with
  | none => exact getStuck_unmoved.andThen fun _ => .pure rfl
  | some token =>
      refine skip_unmoved.andThen fun _ => ?_
      show Unlines _ _ (do log (entry token.unlined); return some token.unlined)
      rw [alike]
      exact (log_unmoved _).andThen fun _ => .pure rfl

theorem identifier?_unlines : Unlines (Option.map Token.unlined) identifier? identifier? :=
  seesIdentifier_unmoved.andThen fun _ => .ite (take_unlines fun _ => rfl) (.pure rfl)

theorem accept_unmoved (symbol : String) : Unmoved (accept symbol) (accept symbol) := by
  refine (sees_unmoved symbol).andThen fun _ => .ite ?_ (.pure rfl)
  exact skip_unmoved.andThen fun _ => (log_unmoved _).andThen fun _ => .pure rfl

theorem keyword_unmoved (symbol : String) : Unmoved (keyword symbol) (keyword symbol) :=
  skip_unmoved.andThen fun _ => log_unmoved _

theorem demand_unmoved (symbol : String) {repair : Reading Unit} (repairs : Unmoved repair repair) :
    Unmoved (demand symbol repair) (demand symbol repair) :=
  (accept_unmoved symbol).andThen fun _ => .ite repairs (.pure rfl)

theorem abandon_unmoved (complaint : Complaint) {stop : Option Token → Bool}
    (alike : StopsAlike stop) : Unmoved (abandon complaint stop) (abandon complaint stop) :=
  (complain_unmoved complaint).andThen fun _ => skipTo_unmoved alike

theorem demand_complain_unmoved (symbol : String) (complaint : Complaint) :
    Unmoved (demand symbol (complain complaint)) (demand symbol (complain complaint)) :=
  demand_unmoved symbol (complain_unmoved complaint)

theorem demand_abandon_unmoved (symbol : String) (complaint : Complaint)
    {stop : Option Token → Bool} (alike : StopsAlike stop) :
    Unmoved (demand symbol (abandon complaint stop)) (demand symbol (abandon complaint stop)) :=
  demand_unmoved symbol (abandon_unmoved complaint alike)

theorem recover_unmoved (nonterminal : Nonterminal) (complaint : Complaint) :
    Unmoved (recover nonterminal complaint) (recover nonterminal complaint) :=
  (abandon_unmoved complaint fun next => by simp).andThen fun _ => seesStart_unmoved nonterminal

theorem expect_unmoved (nonterminal : Nonterminal) (complaint : Complaint) :
    Unmoved (expect nonterminal complaint) (expect nonterminal complaint) :=
  (seesStart_unmoved nonterminal).andThen fun _ => .ite (.pure rfl) (recover_unmoved _ complaint)

/-! ## Loops -/

variable {erase : α → α}

theorem collectFor_unlines {round : Reading (Option α)}
    (rounds : Unlines (Option.map erase) round round) (bound : Nat) :
    Unlines (List.map erase) (collectFor round bound) (collectFor round bound) := by
  induction bound with
  | zero => exact getStuck_unmoved.andThen fun _ => .pure rfl
  | succ bound ih =>
      refine rounds.bind fun next? => ?_
      cases next? with
      | none => exact .pure rfl
      | some next => exact ih.bind fun _ => .pure rfl

theorem collect_unlines {round : Reading (Option α)}
    (rounds : Unlines (Option.map erase) round round) :
    Unlines (List.map erase) (collect round) (collect round) :=
  length_unmoved.andThen fun size => collectFor_unlines rounds (size + 1)

theorem refineFor_unlines {round : α → Reading (Option α)}
    (rounds : ∀ value, Unlines (Option.map erase) (round value) (round (erase value)))
    (bound : Nat) (value : α) :
    Unlines erase (refineFor round bound value) (refineFor round bound (erase value)) := by
  induction bound generalizing value with
  | zero => exact getStuck_unmoved.andThen fun _ => .pure rfl
  | succ bound ih =>
      refine (rounds value).bind fun next? => ?_
      cases next? with
      | none => exact .pure rfl
      | some next => exact ih next

theorem refine_unlines {round : α → Reading (Option α)}
    (rounds : ∀ value, Unlines (Option.map erase) (round value) (round (erase value)))
    (value : α) : Unlines erase (refine round value) (refine round (erase value)) :=
  length_unmoved.andThen fun size => refineFor_unlines rounds (size + 1) value

end Reading

end StackLang
