import StackLang.Proofs.Fork.Program
import StackLang.Proofs.Grammar.Ending
import StackLang.Proofs.Grammar.Nesting

/-!
# Single runs

Where a run without complaints gets to when the tokens ahead are known.  Readers of single
tokens step over them, and the reader of statements goes on with the reader that the next
token asks for.
-/

namespace StackLang.Reading

open Terminal (Opens allApart)
open Nonterminal (words)

variable {α β : Type} {before after middle : Cursor} {final : β} {symbol : String}

/-- A run up to a symbol, which is then read. -/
def GoesBehind (reader : Reading α) (symbol : String) (before : Cursor) (result : α)
    (after : Cursor) : Prop :=
  ∃ middle, Goes reader before result middle ∧ middle.place.sees symbol = true ∧
    after.place = middle.place.tail

namespace Goes

variable {reader : Reading α} {next : α → Reading β} {rest : Reading β}

/-- A run whose first part is known. -/
theorem of_known {answer : α} (goes : Goes (reader >>= next) before final after)
    (run : reader.run before = (answer, middle)) (kept : middle.errors = before.errors) :
    Goes (next answer) middle final after := by
  obtain ⟨whole, clean⟩ := goes
  rw [StateT.run_bind, run] at whole
  exact ⟨whole, clean.trans kept.symm⟩

theorem of_yes {question : Reading Bool} {yes no : Reading β}
    (goes : Goes (do if ← question then yes else no) before final after)
    (run : question.run before = (true, before)) : Goes yes before final after := goes.of_look run

theorem of_no {question : Reading Bool} {yes no : Reading β}
    (goes : Goes (do if ← question then yes else no) before final after)
    (run : question.run before = (false, before)) : Goes no before final after := goes.of_look run

theorem of_keyword (goes : Goes (do keyword symbol; rest) before final after) :
    ∃ middle, middle.place = before.place.tail ∧ Goes rest middle final after := by
  have run : (keyword symbol).run before = ((), ((keyword symbol).run before).2) := rfl
  exact ⟨_, rfl, goes.of_known run rfl⟩

/-- A symbol that is next. -/
theorem of_accept {yes no : Reading β} (goes : Goes (do if ← accept symbol then yes else no) before
    final after) (seen : before.place.sees symbol = true) :
    ∃ middle, middle.place = before.place.tail ∧ Goes yes middle final after := by
  have run : (accept symbol).run before = (true, ((keyword symbol).run before).2) :=
    accept_run_of_sees seen
  exact ⟨_, rfl, goes.of_known run rfl⟩

theorem of_demand {repair : Reading Unit}
    (goes : Goes (do demand symbol repair; rest) before final after) (repairs : Repairs repair)
    (moves : Moves rest) :
    before.place.sees symbol = true ∧
      ∃ middle, middle.place = before.place.tail ∧ Goes rest middle final after := by
  cases seen : before.place.sees symbol with
  | true =>
      have accepted : (accept symbol).run before = (true, ((keyword symbol).run before).2) :=
        accept_run_of_sees seen
      have run : (demand symbol repair).run before = ((), ((keyword symbol).run before).2) := by
        rw [demand, StateT.run_bind, accepted]
        rfl
      exact ⟨rfl, _, rfl, goes.of_known run rfl⟩
  | false =>
      have run : (demand symbol repair).run before = repair.run before := by
        rw [demand, StateT.run_bind, accept_run_of_not_sees seen]
        rfl
      obtain ⟨_, middle, ⟨front, clean⟩, _⟩ := goes.of_bind (demand_moves symbol repairs)
        fun _ => moves
      rw [run] at front
      exact absurd ⟨front, clean⟩ (Fails.of_repairs repairs _ _ _ trivial)

/-- What is read in front of a symbol that must be next. -/
theorem of_bindDemand {repair : Reading Unit} {rest : α → Reading β}
    (goes : Goes (do let value ← reader; demand symbol repair; rest value) before final after)
    (moves : Moves reader) (repairs : Repairs repair) (onward : ∀ value, Moves (rest value)) :
    ∃ value middle, GoesBehind reader symbol before value middle ∧
      Goes (rest value) middle final after := by
  obtain ⟨value, middle, front, back⟩ := goes.of_bind moves fun value =>
    (demand_moves symbol repairs).bind fun _ => onward value
  obtain ⟨seen, behind, place, back⟩ := back.of_demand repairs (onward value)
  exact ⟨value, behind, ⟨middle, front, seen, place⟩, back⟩

end Goes

/-! ## Statements -/

variable {statement : Reading Statement} {result : Statement}

/-- The reader of a table that the next token asks for. -/
theorem Goes.of_dispatch {table : List (List Terminal × Reading α)} {otherwise reader : Reading α}
    {value : α} {start known : List Terminal}
    (goes : Goes (dispatch table otherwise) before value after) (index : Nat)
    (listed : table[index]? = some (start, reader)) (opens : Opens known before.rest)
    (apart : ((table.map Prod.fst).take index).all (allApart known) = true)
    (within : known ⊆ start) : Goes reader before value after := by
  induction index generalizing table with
  | zero =>
      cases table with
      | nil => simp at listed
      | cons entry others =>
          obtain rfl := Option.some.inj listed
          exact goes.of_yes ((asks_seesAny _).run_of_within opens within)
  | succ index ih =>
      cases table with
      | nil => simp at listed
      | cons entry others =>
          simp only [List.map_cons, List.take_succ_cons, List.all_cons, Bool.and_eq_true] at apart
          exact ih (goes.of_no ((asks_seesAny _).run_of_apart opens apart.1)) listed apart.2

theorem Goes.of_statementOf {reader : Reading Statement} {start known : List Terminal}
    (goes : Goes (statementOf statement) before result after) (index : Nat)
    (listed : (statementTable statement)[index]? = some (start, reader))
    (opens : Opens known before.rest)
    (apart : (statementStarts.take index).all (allApart known) = true) (within : known ⊆ start) :
    Goes reader before result after := by
  rw [statementOf_eq] at goes
  rw [← statementTable_starts statement] at apart
  exact goes.of_dispatch index listed opens apart within

/-- A loop with a header is read where its keyword is next. -/
theorem Goes.of_statementOf_for (goes : Goes (statementOf statement) before result after)
    (seen : before.place.sees "for" = true) :
    Goes (forLoop (blockOf statement)) before result after :=
  goes.of_statementOf 9 rfl (opens_of_sees seen) (by decide) (List.Subset.refl _)

theorem Goes.of_statementOf_while (goes : Goes (statementOf statement) before result after)
    (seen : before.place.sees "while" = true) :
    Goes (whileLoop (blockOf statement)) before result after :=
  goes.of_statementOf 6 rfl (opens_of_sees seen) (by decide) (List.Subset.refl _)

theorem Goes.of_terminated {complaint : Complaint}
    (goes : Goes (terminated complaint statement) before result after) (moves : Moves statement) :
    GoesBehind statement ";" before result after := by
  obtain ⟨answer, last, front, back⟩ := goes.of_bindDemand moves (resume_repairs complaint _)
    fun _ => .pure _
  obtain ⟨rfl, rfl⟩ := back.of_pure
  exact front

/-- What is read up to a symbol, seen as something else. -/
theorem GoesBehind.of_map {reader : Reading α} {view : α → β}
    (goes : GoesBehind (do return view (← reader)) symbol before final after)
    (moves : Moves reader) :
    ∃ value, GoesBehind reader symbol before value after ∧ final = view value := by
  obtain ⟨middle, goes, ended⟩ := goes
  obtain ⟨value, last, front, back⟩ := goes.of_bind moves fun _ => .pure _
  obtain ⟨rfl, rfl⟩ := back.of_pure
  exact ⟨value, ⟨_, front, ended⟩, rfl⟩

/-- A declaration is read where the name of a type is next. -/
theorem Goes.of_statementOf_type (goes : Goes (statementOf statement) before result after)
    (opens : Opens (words Nonterminal.typeWords) before.rest) :
    ∃ declaration?, GoesBehind declaration ";" before declaration? after ∧
      result = (declaration?.map Statement.declare).getD .skipped := by
  have goes := goes.of_statementOf 0 rfl opens rfl (List.Subset.refl _)
  exact (goes.of_terminated (declaration_moves.bind fun _ => .pure _)).of_map declaration_moves

/-- An assignment is read where a name and an operator are next. -/
theorem Goes.of_statementOf_name (goes : Goes (statementOf statement) before result after)
    (opens : Opens [.identifier] before.rest) (uncalled : before.place.tail.sees "(" = false)
    (assigned : before.place.tail.operator?.isSome = true) :
    ∃ assignment?, GoesBehind assignment ";" before assignment? after ∧
      result = (assignment?.map Statement.assign).getD .skipped := by
  have second : (seesSecond "(").run before = (false, before) := by
    change (before.place.tail.sees "(", before) = _
    rw [uncalled]
  have look : (get : Reading Cursor).run before = (before, before) := rfl
  have goes := goes.of_statementOf 1 rfl opens (by decide) (List.Subset.refl _)
  have goes := (goes.of_no second).of_look look
  have goes : Goes (if before.place.tail.operator?.isSome = true then
      terminated .assignmentEnd do return ((← assignment).map Statement.assign).getD .skipped
    else evaluation) before result after := goes
  rw [if_pos assigned] at goes
  exact (goes.of_terminated (assignment_moves.bind fun _ => .pure _)).of_map assignment_moves

/-! ## Lists of statements -/

/-- The tokens that end a list of statements. -/
def bodyEnds : List Terminal := [.word "\x7d", .word "case", .word "default"]

/-- A run of the loop over statements, with more budget and more depth than there are
tokens. -/
def Lists (depth : Nat) (before : Cursor) (found : List Statement) (after : Cursor) : Prop :=
  before.rest.length < depth ∧ ∃ bound, before.rest.length < bound ∧
    Goes (collectFor (nextStatement (statementFor depth)) bound) before found after

namespace Lists

variable {depth : Nat} {found : List Statement}

theorem of_goes {bound size : Nat}
    (goes : Goes (collectFor (nextStatement (statementFor depth)) bound) before found after)
    (small : before.rest.length < size) (within : size ≤ bound) (enough : size ≤ depth) :
    Lists depth before found after :=
  ⟨Nat.lt_of_lt_of_le small enough, bound, Nat.lt_of_lt_of_le small within, goes⟩

/-- A list of statements goes on unless the next token ends it. -/
theorem next {known : List Terminal} (lists : Lists (depth + 1) before found after)
    (opens : Opens known before.rest) (apart : allApart known bodyEnds = true)
    (unended : Terminal.anyAccepts known none = false) :
    ∃ first rest middle, found = first :: rest ∧
      Goes (statementOf (statementFor depth)) before first middle ∧
        Lists (depth + 1) middle rest after := by
  obtain ⟨small, bound, within, goes⟩ := lists
  cases bound with
  | zero => exact absurd within (Nat.not_lt_zero _)
  | succ bound =>
      have moves := statementFor_moves (depth + 1)
      have onward : Moves (collectFor (nextStatement (statementFor (depth + 1))) bound) :=
        .collectFor (nextStatement_moves moves) bound
      obtain ⟨next?, middle, front, back⟩ := goes.of_bind (nextStatement_moves moves)
        fun next? => by
          cases next? with
          | none => exact .pure _
          | some _ => exact onward.bind fun _ => .pure _
      have present : atEnd.run before = (false, before) := by
        change (before.rest.isEmpty, before) = _
        rw [opens.isEmpty_eq_false unended]
      have unread : (seesAny bodyEnds).run before = (false, before) :=
        (asks_seesAny _).run_of_apart opens apart
      have front := (front.of_look present).of_look unread
      have front : Goes (forced (statementFor (depth + 1))) before next? middle := front
      obtain ⟨first, rfl, front, shorter⟩ :=
        front.of_forced moves (statementFor_shortens (depth + 1)) small
      obtain ⟨rest, last, back, ended⟩ := back.of_bind onward fun _ => .pure _
      obtain ⟨rfl, rfl⟩ := ended.of_pure
      exact ⟨first, rest, middle, rfl, front, Nat.lt_trans shorter small, bound,
        Nat.lt_of_lt_of_le shorter (Nat.le_of_lt_succ within), back⟩

/-- A list of statements ends at a closing brace. -/
theorem closed (lists : Lists depth before found after)
    (closes : before.place.sees "\x7d" = true) : found = [] ∧ after = before := by
  obtain ⟨_, bound, within, goes⟩ := lists
  cases bound with
  | zero => exact absurd within (Nat.not_lt_zero _)
  | succ bound =>
      have opens := opens_of_sees closes
      have present : atEnd.run before = (false, before) := by
        change (before.rest.isEmpty, before) = _
        rw [opens.isEmpty_eq_false rfl]
      have read : (seesAny bodyEnds).run before = (true, before) :=
        (asks_seesAny _).run_of_within opens (by simp [bodyEnds])
      have ends : (nextStatement (statementFor depth)).run before = (none, before) := by
        rw [nextStatement, StateT.run_bind, present]
        change StateT.run (seesAny bodyEnds >>= _) before = _
        rw [StateT.run_bind, read]
        rfl
      obtain ⟨rfl, rfl⟩ := (goes.of_known ends rfl).of_pure
      exact ⟨rfl, rfl⟩

end Lists

/-- A block between braces is read where a brace is next. -/
theorem Goes.of_blockOf {depth : Nat}
    (goes : Goes (blockOf (statementFor depth)) before result after)
    (opens : before.place.sees "\x7b" = true) :
    ∃ entered body, entered.place = before.place.tail ∧
      GoesBehind (bodyOf (statementFor depth)) "\x7d" entered body after ∧
        result = .block body := by
  have bodies : Moves (bodyOf (statementFor depth)) := .rule fun before =>
    Moves.collectFor (nextStatement_moves (statementFor_moves depth)) _ before
  obtain ⟨inner, goes, place⟩ := goes.of_rule
  have able : (expect .block .blockStart).run (before.enter .block) =
      (true, before.enter .block) := by
    have seen : (before.enter .block).place.seesAny Nonterminal.block.first = true :=
      (opens_of_sees opens).mono (by decide)
    change StateT.run (if (before.enter .block).place.seesAny Nonterminal.block.first = true then _
      else _) _ = _
    rw [if_pos seen]
    rfl
  have goes := goes.of_known able rfl
  obtain ⟨entered, entering, goes⟩ := Goes.of_accept goes opens
  obtain ⟨body, last, ⟨ending, front, closes, left⟩, back⟩ := goes.of_bindDemand bodies
    (complain_repairs _) fun _ => .pure _
  obtain ⟨rfl, rfl⟩ := back.of_pure
  exact ⟨entered, body, entering, ⟨ending, front, closes, place.symm.trans left⟩, rfl⟩

/-! ## Loops -/

theorem demandForeseen_moves {repair : Reading Unit} (repairs : Repairs repair) :
    Moves (demandForeseen repair) :=
  (looks fun _ => rfl).bind fun _ => .ite foreseen_moves
    ((Moves.of_repairs repairs).bind fun _ => .pure _)

theorem Goes.of_demandForeseen {repair : Reading Unit} {value : Foreseen}
    (goes : Goes (demandForeseen repair) before value after) (repairs : Repairs repair) :
    Goes foreseen before value after := by
  cases seen : before.place.seesStart .expression with
  | true =>
      have run : (seesStart .expression).run before = (true, before) := by
        change (before.place.seesStart .expression, before) = _
        rw [seen]
      exact goes.of_yes run
  | false =>
      have run : (seesStart .expression).run before = (false, before) := by
        change (before.place.seesStart .expression, before) = _
        rw [seen]
      have fails : Fails (do repair; return Foreseen.missing) :=
        (Fails.of_repairs repairs).bind (.of_repairs repairs) fun _ => .pure _
      exact absurd (goes.of_no run) (fails _ _ _ trivial)

theorem Goes.of_condition {form : ConditionForm} {value : Foreseen}
    (goes : Goes (condition form) before value after) :
    ∃ asked, asked.place = before.place.tail ∧ GoesBehind foreseen ")" asked value after := by
  obtain ⟨_, asked, asks, goes⟩ := goes.of_demand (complain_repairs _)
    ((demandForeseen_moves (abandon_repairs _ _)).bind fun _ =>
      (demand_moves ")" (abandon_accept_repairs _ _ _)).bind fun _ => .pure _)
  obtain ⟨answer, last, ⟨told, front, closes⟩, back⟩ := goes.of_bindDemand
    (demandForeseen_moves (abandon_repairs _ _)) (abandon_accept_repairs _ _ _) fun _ => .pure _
  obtain ⟨rfl, rfl⟩ := back.of_pure
  exact ⟨asked, asks, told, front.of_demandForeseen (abandon_repairs _ _), closes⟩

theorem blockOf_moves (depth : Nat) : Moves (blockOf (statementFor depth)) :=
  .of_gives fun before => blockOf_gives (statementFor_statementsBelow before.rest depth) before
    (List.Subset.refl _)

/-- The parts of a while loop. -/
theorem Goes.of_whileLoop {depth : Nat}
    (goes : Goes (whileLoop (blockOf (statementFor depth))) before result after) :
    ∃ asked value closed body last, asked.place = before.place.tail.tail ∧
      GoesBehind foreseen ")" asked value closed ∧
        Goes (blockOf (statementFor depth)) closed body last ∧ last.place = after.place ∧
          result = .whileLoop value body := by
  obtain ⟨inner, goes, place⟩ := goes.of_rule
  obtain ⟨entered, entering, goes⟩ := goes.of_keyword
  obtain ⟨value, closed, front, back⟩ := goes.of_bind (condition_moves _) fun _ =>
    (blockOf_moves depth).bind fun _ => .pure _
  obtain ⟨asked, asking, front⟩ := front.of_condition
  obtain ⟨body, last, block, back⟩ := back.of_bind (blockOf_moves depth) fun _ => .pure _
  obtain ⟨rfl, rfl⟩ := back.of_pure
  exact ⟨asked, value, closed, body, _, asking.trans (congrArg Place.tail entering), front, block,
    place, rfl⟩

theorem loopStart_moves : Moves loopStart :=
  .of_gives fun before => loopStart_obeys before (List.Subset.refl before.rest)

theorem loopStep_moves : Moves loopStep :=
  .of_gives fun before => loopStep_obeys before (List.Subset.refl before.rest)

/-- A loop header starts with a declaration where the name of a type is next. -/
theorem GoesBehind.of_loopStart_type {start : LoopStart}
    (goes : GoesBehind loopStart symbol before start after)
    (opens : Opens Nonterminal.type.first before.rest) :
    ∃ declaration?, GoesBehind declaration symbol before declaration? after ∧
      start = (declaration?.map LoopStart.declare).getD .nothing := by
  obtain ⟨middle, goes, ended⟩ := goes
  have goes := goes.of_yes ((asks_seesAny _).run_of_within opens (List.Subset.refl _))
  have behind : GoesBehind (do return ((← declaration).map LoopStart.declare).getD .nothing) symbol
      before start after := ⟨middle, goes, ended⟩
  exact behind.of_map declaration_moves

/-- A loop header starts with an assignment where a name is next. -/
theorem GoesBehind.of_loopStart_name {start : LoopStart}
    (goes : GoesBehind loopStart symbol before start after)
    (opens : Opens [.identifier] before.rest) :
    ∃ assignment?, GoesBehind assignment symbol before assignment? after ∧
      start = (assignment?.map LoopStart.assign).getD .nothing := by
  obtain ⟨middle, goes, ended⟩ := goes
  have goes := goes.of_no ((asks_seesAny _).run_of_apart opens (by decide))
  have goes := goes.of_yes (asks_seesIdentifier.run_of_within opens (List.Subset.refl _))
  have behind : GoesBehind (do return ((← assignment).map LoopStart.assign).getD .nothing) symbol
      before start after := ⟨middle, goes, ended⟩
  exact behind.of_map assignment_moves

/-- A loop header starts with nothing at a semicolon. -/
theorem Goes.of_loopStart_end {start : LoopStart} (goes : Goes loopStart before start after)
    (opens : Opens [.word ";"] before.rest) : start = .nothing ∧ after = before := by
  have goes := goes.of_no ((asks_seesAny _).run_of_apart opens (by decide))
  have goes := goes.of_no (asks_seesIdentifier.run_of_apart opens (by decide))
  exact goes.of_pure

/-- A loop has a step where a name is next. -/
theorem GoesBehind.of_loopStep_name {step? : Option Assignment}
    (goes : GoesBehind loopStep symbol before step? after)
    (opens : Opens [.identifier] before.rest) :
    GoesBehind assignment symbol before step? after := by
  obtain ⟨middle, goes, ended⟩ := goes
  exact ⟨middle, goes.of_yes (asks_seesIdentifier.run_of_within opens (List.Subset.refl _)), ended⟩

/-- A loop has no step at the end of its header. -/
theorem Goes.of_loopStep_end {step? : Option Assignment} (goes : Goes loopStep before step? after)
    (opens : Opens [.word ")"] before.rest) : step? = none ∧ after = before :=
  (goes.of_no (asks_seesIdentifier.run_of_apart opens (by decide))).of_pure

/-- A loop has a condition where an expression is next. -/
theorem GoesBehind.of_unlessSees {condition? : Option Foreseen}
    (goes : GoesBehind (unlessSees ";" foreseen) symbol before condition? after)
    (opens : Opens Nonterminal.expression.first before.rest) :
    ∃ condition, GoesBehind foreseen symbol before condition after ∧
      condition? = some condition := by
  obtain ⟨middle, goes, ended⟩ := goes
  have goes := goes.of_no ((asks_sees _).run_of_apart opens (by decide))
  have behind : GoesBehind (do return some (← foreseen)) symbol before condition? after :=
    ⟨middle, goes, ended⟩
  exact behind.of_map foreseen_moves

theorem unlessSees_moves : Moves (unlessSees ";" foreseen) :=
  (looks fun _ => rfl).bind fun _ => .ite (.pure _) (foreseen_moves.bind fun _ => .pure _)

/-- The parts of a loop header. -/
theorem Goes.of_loopHeader {header : LoopHeader} (goes : Goes loopHeader before header after) :
    ∃ opened asked going, opened.place = before.place.tail ∧
      GoesBehind loopStart ";" opened header.1 asked ∧
        GoesBehind (unlessSees ";" foreseen) ";" asked header.2.1 going ∧
          GoesBehind loopStep ")" going header.2.2 after := by
  have closed (start : LoopStart) (condition? : Option Foreseen) (step? : Option Assignment) :
      Moves (closedHeader start condition? step?) := (closeHeader_moves _).bind fun _ => .pure _
  have stepped (start : LoopStart) (condition? : Option Foreseen) :
      Moves (steppedHeader start condition?) :=
    (demand_moves ";" (abandon_accept_repairs _ _ _)).bind fun _ =>
      loopStep_moves.bind (closed start condition?)
  obtain ⟨_, opened, opening, goes⟩ := goes.of_demand (complain_repairs _)
    (loopStart_moves.bind fun start => (demand_moves ";" (abandon_accept_repairs _ _ _)).bind
      fun _ => unlessSees_moves.bind (stepped start))
  obtain ⟨start, asked, starting, goes⟩ := goes.of_bindDemand loopStart_moves
    (abandon_accept_repairs _ _ _) fun start => unlessSees_moves.bind (stepped start)
  obtain ⟨condition?, going, asking, goes⟩ := goes.of_bindDemand unlessSees_moves
    (abandon_accept_repairs _ _ _) fun condition? => loopStep_moves.bind (closed start condition?)
  obtain ⟨step?, ended, stepping, back⟩ := goes.of_bindDemand loopStep_moves
    (abandon_accept_repairs _ _ _) fun _ => .pure _
  obtain ⟨rfl, rfl⟩ := back.of_pure
  exact ⟨opened, asked, going, opening, starting, asking, stepping⟩

/-- The parts of a loop with a header. -/
theorem Goes.of_forLoop {depth : Nat}
    (goes : Goes (forLoop (blockOf (statementFor depth))) before result after) :
    ∃ opened start asked condition? going step? closed body last,
      opened.place = before.place.tail.tail ∧ GoesBehind loopStart ";" opened start asked ∧
        GoesBehind (unlessSees ";" foreseen) ";" asked condition? going ∧
          GoesBehind loopStep ")" going step? closed ∧
            Goes (blockOf (statementFor depth)) closed body last ∧ last.place = after.place ∧
              result = .forLoop start condition? step? body := by
  have headers : Moves loopHeader :=
    .of_gives fun before => loopHeader_obeys before (List.Subset.refl before.rest)
  rw [forLoop_eq] at goes
  obtain ⟨inner, goes, place⟩ := goes.of_rule
  obtain ⟨entered, entering, goes⟩ := goes.of_keyword
  obtain ⟨⟨start, condition?, step?⟩, closed, front, back⟩ := goes.of_bind headers fun _ =>
    (blockOf_moves depth).bind fun _ => .pure _
  obtain ⟨opened, asked, going, opening, starting, asking, stepping⟩ := front.of_loopHeader
  obtain ⟨body, last, block, back⟩ := back.of_bind (blockOf_moves depth) fun _ => .pure _
  obtain ⟨rfl, rfl⟩ := back.of_pure
  exact ⟨opened, start, asked, condition?, going, step?, closed, body, _,
    opening.trans (congrArg Place.tail entering), starting, asking, stepping, block, place, rfl⟩

end StackLang.Reading
