import StackLang.Proofs.Loops.Segments

/-!
# Loop headers and statements

A declaration, an assignment or an expression is read the same in the header of a loop and
where it is a statement or a condition of its own.  So the loop over statements reads what
the header has, if the same tokens stand there as statements.
-/

namespace StackLang

open Terminal (Opens)
open Nonterminal (words)

namespace Token

/-- A keyword that stands on no line. -/
def keyword (text : String) : Token := ⟨text, .keyword, 0⟩

/-- A delimiter that stands on no line. -/
def delimiter (text : String) : Token := ⟨text, .delimiter, 0⟩

theorem keyword_spells (text : String) : (keyword text).spells text = true := by
  simp [keyword, spells, isFixed]

theorem delimiter_spells (text : String) : (delimiter text).spells text = true := by
  simp [delimiter, spells, isFixed]

end Token

open Token (delimiter delimiter_spells)

/-- The tokens with a semicolon behind them, or nothing if there are none. -/
def asStatement : List Token → List Token
  | [] => []
  | token :: tokens => token :: tokens ++ [delimiter ";"]

theorem asStatement_append {tokens : List Token} (present : tokens ≠ []) (rest : List Token) :
    asStatement tokens ++ rest = tokens ++ delimiter ";" :: rest := by
  cases tokens with
  | nil => exact absurd rfl present
  | cons token tokens => rw [asStatement, List.append_assoc, List.singleton_append]

theorem Terminal.Opens.append {known : List Terminal} {tokens : List Token}
    (opens : Opens known tokens) (unended : anyAccepts known none = false) (more : List Token) :
    Opens known (tokens ++ more) := by
  cases tokens with
  | nil => exact nomatch unended.symm.trans opens
  | cons token tokens => exact opens

/-- The spellings of the operators of an assignment. -/
def AssignmentOperator.symbols : List String := all.map symbol

theorem Place.isSome_operator? {place : Place}
    (opens : Opens (words AssignmentOperator.symbols) place.rest) :
    place.operator?.isSome = true := by
  obtain ⟨terminal, member, accepted⟩ := List.any_eq_true.mp opens
  simp only [words, AssignmentOperator.symbols, List.map_map, List.mem_map] at member
  obtain ⟨operator, listed, rfl⟩ := member
  rw [Place.operator?_eq, List.find?_isSome]
  exact ⟨operator, listed, (Terminal.accepts_word ..).symm.trans accepted⟩

/-- The phrase for what a header does first. -/
def Phrase.loopStart : Phrase := .optional (.choice [.category .variable, .category .assignment])

/-- The phrase for the step of a header. -/
def Phrase.loopStep : Phrase := .optional (.category .assignment)

/-- An assignment starts with a name and an operator. -/
theorem Phrase.Derives.exists_assignment {tokens : List Token}
    (derived : (Phrase.category .assignment).Derives tokens) :
    ∃ name rest, tokens = name :: rest ∧ name.isIdentifier = true ∧
      Opens (words AssignmentOperator.symbols) rest := by
  have forms (parts : List Phrase) {texts : List String} {tokens : List Token}
      (derived : (Phrase.sequence (.identifier :: .oneOf texts :: parts)).Derives tokens)
      (within : (Phrase.sequence (.oneOf texts :: parts)).first ⊆
        words AssignmentOperator.symbols) :
      ∃ name rest, tokens = name :: rest ∧ name.isIdentifier = true ∧
        Opens (words AssignmentOperator.symbols) rest := by
    cases derived with
    | next first rest =>
        cases first with
        | terminal named =>
            have solid : (Phrase.sequence (.oneOf texts :: parts)).isSolid = true := by
              rw [Phrase.isSolid, Phrase.anySolid, Phrase.oneOf_isSolid, Bool.true_or]
            exact ⟨_, _, rfl, named, (rest.opens (rest.ne_nil solid)).mono within⟩
  cases derived with
  | category derived =>
      cases derived with
      | choice member derived =>
          rcases List.mem_cons.mp member with rfl | member
          · exact forms _ derived (by decide)
          · obtain rfl := List.mem_singleton.mp member
            exact forms _ derived (by decide)

namespace Reading

variable {before after counterpart last : Cursor} {tokens tail otherTail : List Token}
  {otherClose : Token} {symbol : String}

/-! ## The same tokens in two places -/

theorem declaration_alike {declared answer : Option Declaration}
    (goes : GoesBehind declaration ";" before declared after)
    (otherGoes : GoesBehind declaration symbol counterpart answer last)
    (derived : (Phrase.category .variable).Derives tokens)
    (rest : before.rest = tokens ++ delimiter ";" :: tail)
    (otherRest : counterpart.rest = tokens ++ delimiter ";" :: otherTail) :
    declared = answer ∧ after.place = ⟨tail, before.switches⟩ ∧
      last.place = ⟨otherTail, counterpart.switches⟩ := by
  have opens : Opens Nonterminal.type.first before.rest := by
    rw [rest]
    exact (derived.opens (derived.ne_nil rfl)).append rfl _
  have goes : GoesBehind declaration Phrase.semicolons.closing before declared after := goes
  have reads (middle : Cursor) (goes : Goes declaration before declared middle) :
      before.Reads (.category .variable) middle :=
    (goes.given (declaration_obeys before (List.Subset.refl _)) opens).1
  refine goes.alike otherGoes reads ?_ derived Phrase.respects_semicolons (by decide) rfl rfl rest
    otherRest rfl rfl
  rintro fork rfl extent plain
  exact (declaration_follows plain fun _ _ _ => rfl).starting fun _ _ starts => starts.1

theorem assignment_alike {brackets : Brackets} {calm : Category → Bool} {close : Token}
    {assigned answer : Option Assignment}
    (goes : GoesBehind assignment brackets.closing before assigned after)
    (otherGoes : GoesBehind assignment symbol counterpart answer last)
    (derived : (Phrase.category .assignment).Derives tokens)
    (respects : Phrase.Respects brackets calm) (level : calm .assignment = true)
    (closes : close.spells brackets.closing = true)
    (rest : before.rest = tokens ++ close :: tail)
    (otherRest : counterpart.rest = tokens ++ otherClose :: otherTail)
    (stops : Opens Fork.stops [close]) (otherStops : Opens Fork.otherStops [otherClose]) :
    assigned = answer ∧ after.place = ⟨tail, before.switches⟩ ∧
      last.place = ⟨otherTail, counterpart.switches⟩ := by
  have named : before.place.seesIdentifier = true := by
    obtain ⟨name, more, rfl, named, _⟩ := derived.exists_assignment
    rw [Place.seesIdentifier, Place.next?, Cursor.place, rest]
    exact named
  have reads (middle : Cursor) (goes : Goes assignment before assigned middle) :
      before.Reads (.category .assignment) middle :=
    (goes.given (assignment_obeys before (List.Subset.refl _)) named).1
  refine goes.alike otherGoes reads ?_ derived respects (if_pos level) rfl closes rest otherRest
    stops otherStops
  rintro fork rfl extent plain
  refine (assignment_follows plain).starting ?_
  rintro place other ⟨beside, rfl⟩
  exact ⟨beside.near, named⟩

theorem foreseen_alike {value answer : Foreseen}
    (goes : GoesBehind foreseen ";" before value after)
    (otherGoes : GoesBehind foreseen symbol counterpart answer last)
    (derived : (Phrase.category .expression).Derives tokens)
    (rest : before.rest = tokens ++ delimiter ";" :: tail)
    (otherRest : counterpart.rest = tokens ++ otherClose :: otherTail)
    (otherStops : Opens Fork.otherStops [otherClose]) :
    value = answer ∧ after.place = ⟨tail, before.switches⟩ ∧
      last.place = ⟨otherTail, counterpart.switches⟩ := by
  have goes : GoesBehind foreseen Phrase.semicolons.closing before value after := goes
  have reads (middle : Cursor) (goes : Goes foreseen before value middle) :
      before.Reads (.category .expression) middle :=
    (goes.given (foreseen_obeys before (List.Subset.refl _)) trivial).1
  refine goes.alike otherGoes reads ?_ derived Phrase.respects_semicolons (by decide) rfl rfl rest
    otherRest rfl otherStops
  rintro fork rfl extent plain
  exact (foreseen_tracks plain).starting fun _ _ starts => starts.1.near

/-! ## The same tokens as statements -/

section

variable {depth : Nat} {found : List Statement}
  (lists : Lists (depth + 1) counterpart found last)

include lists

/-- A declaration that can be read elsewhere is read as the first statement. -/
theorem Lists.declares {declared : Option Declaration}
    (goes : GoesBehind declaration ";" before declared after)
    (derived : (Phrase.category .variable).Derives tokens)
    (rest : before.rest = tokens ++ delimiter ";" :: tail)
    (otherRest : counterpart.rest = tokens ++ delimiter ";" :: otherTail) :
    after.place = ⟨tail, before.switches⟩ ∧
      ∃ declaration others middle, declared = some declaration ∧
        found = .declare declaration :: others ∧
          middle.place = ⟨otherTail, counterpart.switches⟩ ∧
            Lists (depth + 1) middle others last := by
  have opens : Opens Nonterminal.type.first tokens := derived.opens (derived.ne_nil rfl)
  have front : Opens Nonterminal.type.first before.rest := rest ▸ opens.append rfl _
  have otherFront : Opens Nonterminal.type.first counterpart.rest :=
    otherRest ▸ opens.append rfl _
  have ⟨ending, reading, _⟩ := goes
  obtain ⟨declaration, rfl, _⟩ :=
    (reading.given (declaration_obeys before (List.Subset.refl _)) front).2.exists_some id
  obtain ⟨first, others, middle, rfl, leading, onward⟩ :=
    lists.next otherFront (by decide) rfl
  obtain ⟨answer, otherGoes, rfl⟩ := leading.of_statementOf_type otherFront
  obtain ⟨rfl, place, otherPlace⟩ := declaration_alike goes otherGoes derived rest otherRest
  exact ⟨place, declaration, others, middle, rfl, rfl, otherPlace, onward⟩

/-- An assignment that can be read elsewhere is read as the first statement. -/
theorem Lists.assigns {brackets : Brackets} {calm : Category → Bool} {close : Token}
    {assigned : Option Assignment}
    (goes : GoesBehind assignment brackets.closing before assigned after)
    (derived : (Phrase.category .assignment).Derives tokens)
    (respects : Phrase.Respects brackets calm) (level : calm .assignment = true)
    (closes : close.spells brackets.closing = true)
    (rest : before.rest = tokens ++ close :: tail)
    (otherRest : counterpart.rest = tokens ++ delimiter ";" :: otherTail)
    (stops : Opens Fork.stops [close]) :
    after.place = ⟨tail, before.switches⟩ ∧
      ∃ assignment others middle, assigned = some assignment ∧
        found = .assign assignment :: others ∧
          middle.place = ⟨otherTail, counterpart.switches⟩ ∧
            Lists (depth + 1) middle others last := by
  obtain ⟨name, more, rfl, named, operators⟩ := derived.exists_assignment
  have front : before.place.seesIdentifier = true := by
    rw [Place.seesIdentifier, Place.next?, Cursor.place, rest]
    exact named
  have otherFront : Opens [.identifier] counterpart.rest := by
    rw [otherRest]
    exact (Place.seesAny_identifier ⟨name :: (more ++ delimiter ";" :: otherTail), 0⟩).trans named
  have second : Opens (words AssignmentOperator.symbols) counterpart.place.tail.rest := by
    rw [Place.tail, Cursor.place, otherRest]
    exact operators.append rfl _
  have read := goes
  obtain ⟨ending, reading, -⟩ := read
  obtain ⟨assignment, rfl, _⟩ :=
    (reading.given (assignment_obeys before (List.Subset.refl _)) front).2.exists_some id
  obtain ⟨first, others, middle, rfl, leading, onward⟩ :=
    lists.next otherFront (by decide) rfl
  have uncalled : counterpart.place.tail.sees "(" = false := by
    rw [← Place.seesAny_word]
    exact second.anyAccepts_eq_false (by decide)
  obtain ⟨answer, otherGoes, rfl⟩ :=
    leading.of_statementOf_name otherFront uncalled (Place.isSome_operator? second)
  obtain ⟨rfl, place, otherPlace⟩ := assignment_alike goes otherGoes derived respects level closes
    rest otherRest stops rfl
  exact ⟨place, assignment, others, middle, rfl, rfl, otherPlace, onward⟩

end

/-! ## The parts of a header -/

/-- What a header does first is done by the statements that stand in front of a loop. -/
theorem Lists.start {depth : Nat} {found : List Statement} {first : LoopStart}
    (lists : Lists (depth + 1) counterpart found last)
    (goes : GoesBehind loopStart ";" before first after) (derived : Phrase.loopStart.Derives tokens)
    (rest : before.rest = tokens ++ delimiter ";" :: tail)
    (otherRest : counterpart.rest = asStatement tokens ++ otherTail) :
    after.place = ⟨tail, before.switches⟩ ∧
      ∃ front others middle, found = front ++ others ∧
        Statement.desugaredAll front = first.statements ∧
          middle.place = ⟨otherTail, counterpart.switches⟩ ∧
            Lists (depth + 1) middle others last := by
  cases derived with
  | absent =>
      obtain ⟨middle, goes, _, place⟩ := goes
      obtain ⟨rfl, rfl⟩ := goes.of_loopStart_end (rest ▸ rfl)
      refine ⟨?_, [], found, counterpart, rfl, rfl, ?_, lists⟩
      · rw [place, Place.tail, Cursor.place, rest]
        rfl
      · rw [Cursor.place, otherRest]
        rfl
  | present derived =>
      have present := derived.ne_nil rfl
      rw [asStatement_append present] at otherRest
      cases derived with
      | choice member derived =>
          rcases List.mem_cons.mp member with rfl | member
          · obtain ⟨declared, declaring, rfl⟩ :=
              goes.of_loopStart_type (rest ▸ (derived.opens present).append rfl _)
            obtain ⟨place, declaration, others, middle, rfl, rfl, otherPlace, lists⟩ :=
              lists.declares declaring derived rest otherRest
            exact ⟨place, [.declare declaration], others, middle, rfl, rfl, otherPlace, lists⟩
          · obtain rfl := List.mem_singleton.mp member
            obtain ⟨_, assigning, rfl⟩ :=
              goes.of_loopStart_name (rest ▸ (derived.opens present).append rfl _)
            have assigning : GoesBehind _ Phrase.semicolons.closing before _ after := assigning
            obtain ⟨place, assignment, others, middle, rfl, rfl, otherPlace, lists⟩ :=
              lists.assigns assigning derived Phrase.respects_semicolons (by decide) rfl rest
                otherRest rfl
            exact ⟨place, [.assign assignment], others, middle, rfl, rfl, otherPlace, lists⟩

/-- Behind the step of a header its closing parenthesis has been read. -/
theorem GoesBehind.step_place {step? : Option Assignment}
    (goes : GoesBehind loopStep ")" before step? after) (derived : Phrase.loopStep.Derives tokens)
    (rest : before.rest = tokens ++ delimiter ")" :: tail) :
    after.place = ⟨tail, before.switches⟩ := by
  cases derived with
  | absent =>
      obtain ⟨middle, goes, _, place⟩ := goes
      obtain ⟨rfl, rfl⟩ := goes.of_loopStep_end (rest ▸ rfl)
      rw [place, Place.tail, Cursor.place, rest]
      rfl
  | present derived =>
      have opens : Opens [.identifier] tokens := derived.opens (derived.ne_nil rfl)
      have goes : GoesBehind assignment Phrase.parentheses.closing before step? after :=
        goes.of_loopStep_name (rest ▸ opens.append rfl _)
      exact (assignment_alike goes goes derived Phrase.respects_parentheses rfl rfl rest rest rfl
        rfl).2.1

/-- The step of a header is done by the last statement of a body. -/
theorem Lists.step {depth : Nat} {found : List Statement} {step? : Option Assignment}
    (lists : Lists (depth + 1) counterpart found last)
    (goes : GoesBehind loopStep ")" before step? after) (derived : Phrase.loopStep.Derives tokens)
    (rest : before.rest = tokens ++ delimiter ")" :: tail)
    (otherRest : counterpart.rest = asStatement tokens ++ delimiter "\x7d" :: otherTail) :
    found = step?.toList.map .assign ∧
      last.place = ⟨delimiter "\x7d" :: otherTail, counterpart.switches⟩ := by
  have closes {cursor : Cursor} {switches : Nat}
      (place : cursor.place = ⟨delimiter "\x7d" :: otherTail, switches⟩) :
      cursor.place.sees "\x7d" = true := by
    rw [place]
    exact delimiter_spells _
  cases derived with
  | absent =>
      obtain ⟨middle, goes, _, _⟩ := goes
      obtain ⟨rfl, rfl⟩ := goes.of_loopStep_end (rest ▸ rfl)
      have place : counterpart.place = ⟨delimiter "\x7d" :: otherTail, counterpart.switches⟩ := by
        rw [Cursor.place, otherRest]
        rfl
      obtain ⟨rfl, rfl⟩ := lists.closed (closes place)
      exact ⟨rfl, place⟩
  | present derived =>
      have opens : Opens [.identifier] tokens := derived.opens (derived.ne_nil rfl)
      have goes : GoesBehind assignment Phrase.parentheses.closing before step? after :=
        goes.of_loopStep_name (rest ▸ opens.append rfl _)
      rw [asStatement_append (derived.ne_nil rfl)] at otherRest
      obtain ⟨_, assignment, others, middle, rfl, rfl, place, lists⟩ :=
        lists.assigns goes derived Phrase.respects_parentheses rfl rfl rest otherRest rfl
      obtain ⟨rfl, rfl⟩ := lists.closed (closes place)
      exact ⟨rfl, place⟩

end Reading

end StackLang
