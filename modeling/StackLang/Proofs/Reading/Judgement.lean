import Mathlib.Data.List.Basic
import StackLang.Grammar.Reading
import StackLang.Proofs.Grammar.Prediction

/-!
# What readers give

`Reading.Gives` speaks about one run of a reader.  Whatever the tokens are, the
cursor only moves forward, errors are only added, and the result has a property
that holds always.  If no error is added, the run is clean and more can be said
about the result and the cursor; above all that a phrase of the grammar predicts the
tokens in between and that they stand as leaves in the trace.
-/

namespace StackLang

/-- What an entry adds to the leaves of the trace. -/
def TraceEntry.leaf? : TraceEntry → Option String
  | .enter _ => none
  | .symbol text => some text
  | .identifier name => some name
  | .literal text => some text
  | .resumed => some TraceEntry.resumed.text

/-- The texts of the lines of a trace that enter no nonterminal. -/
def leavesOf (trace : Array TraceLine) : List String :=
  trace.toList.filterMap fun line => line.entry.leaf?

namespace Cursor

/-- The cursor moved forward, errors were only added, and switches only counted on. -/
structure Advances (before after : Cursor) : Prop where
  rest : after.rest <:+ before.rest
  errors : before.errors.toList <+: after.errors.toList
  switches : before.switches ≤ after.switches

/-- The given tokens, and no others, were stepped over and logged. -/
structure Consumes (before : Cursor) (tokens : List Token) (after : Cursor) : Prop where
  rest : before.rest = tokens ++ after.rest
  leaves : leavesOf after.trace = leavesOf before.trace ++ tokens.map Token.value

/-- A phrase predicts the tokens between two cursors, which were logged. -/
def Reads (before : Cursor) (phrase : Phrase) (after : Cursor) : Prop :=
  ∃ tokens, before.Consumes tokens after ∧ phrase.Predicts tokens

/-- Whether the next token is spelled `symbol`. -/
def sees (cursor : Cursor) (symbol : String) : Bool :=
  cursor.next?.any fun token => token.spells symbol

/-- Whether the next token is a name. -/
def seesIdentifier (cursor : Cursor) : Bool := cursor.next?.any Token.isIdentifier

/-- Whether the token after the next one is spelled `symbol`. -/
def seesSecond (cursor : Cursor) (symbol : String) : Bool :=
  cursor.rest.tail.head?.any fun token => token.spells symbol

/-- Whether the next token can start the nonterminal. -/
def seesStart (cursor : Cursor) (nonterminal : Nonterminal) : Bool :=
  nonterminal.startsWith cursor.next?

/-- The cursor inside of a nonterminal. -/
def enter (cursor : Cursor) (nonterminal : Nonterminal) : Cursor :=
  { cursor with
    depth := cursor.depth + 1
    trace := cursor.trace.push ⟨cursor.depth, .enter nonterminal⟩ }

namespace Advances

theorem refl (cursor : Cursor) : cursor.Advances cursor :=
  ⟨List.suffix_refl _, List.prefix_rfl, Nat.le_refl _⟩

theorem trans {first second third : Cursor} (front : first.Advances second)
    (back : second.Advances third) : first.Advances third :=
  ⟨back.rest.trans front.rest, front.errors.trans back.errors,
    Nat.le_trans front.switches back.switches⟩

theorem length_le {before after : Cursor} (advances : before.Advances after) :
    after.rest.length ≤ before.rest.length :=
  advances.rest.length_le

/-- No error was added up to any cursor in between. -/
theorem errors_eq {before middle after : Cursor} (front : before.Advances middle)
    (back : middle.Advances after) (clean : after.errors = before.errors) :
    middle.errors = before.errors := by
  have shorter := back.errors.length_le
  rw [clean] at shorter
  have same := front.errors.eq_of_length_le shorter
  exact Array.toList_inj.mp same.symm

end Advances

theorem leavesOf_push (trace : Array TraceLine) (line : TraceLine) :
    leavesOf (trace.push line) = leavesOf trace ++ line.entry.leaf?.toList := by
  cases leaf : line.entry.leaf? <;> simp [leavesOf, leaf]

namespace Consumes

theorem nil (cursor : Cursor) : cursor.Consumes [] cursor := ⟨rfl, by simp⟩

theorem trans {first second third : Cursor} {front back : List Token}
    (one : first.Consumes front second) (two : second.Consumes back third) :
    first.Consumes (front ++ back) third := by
  constructor
  · rw [one.rest, two.rest, List.append_assoc]
  · rw [two.leaves, one.leaves, List.map_append, List.append_assoc]

end Consumes

namespace Reads

variable {before middle after : Cursor} {phrase : Phrase}

/-- What was read derives from the phrase. -/
theorem derives (read : before.Reads phrase after) :
    ∃ tokens, before.Consumes tokens after ∧ phrase.Derives tokens := by
  obtain ⟨tokens, consumed, predicted⟩ := read
  exact ⟨tokens, consumed, predicted.derives⟩

theorem done (cursor : Cursor) : cursor.Reads (.sequence []) cursor :=
  ⟨[], .nil cursor, .done⟩

theorem next {part : Phrase} {parts : List Phrase} (first : before.Reads part middle)
    (rest : middle.Reads (.sequence parts) after) :
    before.Reads (.sequence (part :: parts)) after := by
  obtain ⟨front, frontRead, frontPredicted⟩ := first
  obtain ⟨back, backRead, backPredicted⟩ := rest
  exact ⟨front ++ back, frontRead.trans backRead, .next frontPredicted backPredicted⟩

theorem last {part : Phrase} (only : before.Reads part after) :
    before.Reads (.sequence [part]) after :=
  next only (done after)

theorem snoc {parts : List Phrase} {last : Phrase} (front : before.Reads (.sequence parts) middle)
    (ended : middle.Reads last after) : before.Reads (.sequence (parts ++ [last])) after := by
  obtain ⟨read, frontRead, frontPredicted⟩ := front
  obtain ⟨back, backRead, backPredicted⟩ := ended
  exact ⟨read ++ back, frontRead.trans backRead, Phrase.predicts_snoc frontPredicted backPredicted⟩

theorem category {category : Category} (read : before.Reads category.production after) :
    before.Reads (.category category) after := by
  obtain ⟨tokens, consumed, predicted⟩ := read
  exact ⟨tokens, consumed, .category predicted⟩

/-- An alternative is chosen by what is at the cursor. -/
theorem chosen {alternatives : List Phrase} (read : before.Reads phrase after)
    (member : phrase ∈ alternatives)
    (chosen : ∀ tokens, before.rest = tokens ++ after.rest → phrase.isChosen tokens = true) :
    before.Reads (.choice alternatives) after := by
  obtain ⟨tokens, consumed, predicted⟩ := read
  exact ⟨tokens, consumed, .choice member (chosen tokens consumed.rest) predicted⟩

theorem choice {alternatives : List Phrase} (read : before.Reads phrase after)
    (member : phrase ∈ alternatives) (free : phrase.isFree = true) :
    before.Reads (.choice alternatives) after :=
  read.chosen member fun tokens _ => Phrase.isChosen_of_isFree free tokens

theorem absent (cursor : Cursor) : cursor.Reads (.optional phrase) cursor :=
  ⟨[], .nil cursor, .absent⟩

theorem present (read : before.Reads phrase after) : before.Reads (.optional phrase) after := by
  obtain ⟨tokens, consumed, predicted⟩ := read
  exact ⟨tokens, consumed, .present predicted⟩

theorem none (cursor : Cursor) : cursor.Reads (.many phrase) cursor :=
  ⟨[], .nil cursor, .none⟩

theorem more (first : before.Reads phrase middle) (rest : middle.Reads (.many phrase) after) :
    before.Reads (.many phrase) after := by
  obtain ⟨front, frontRead, frontPredicted⟩ := first
  obtain ⟨back, backRead, backPredicted⟩ := rest
  exact ⟨front ++ back, frontRead.trans backRead, .more frontPredicted backPredicted⟩

theorem ofSame {other : Cursor} (read : other.Reads phrase after) (rest : other.rest = before.rest)
    (trace : other.trace = before.trace) : before.Reads phrase after := by
  obtain ⟨tokens, consumed, predicted⟩ := read
  exact ⟨tokens, ⟨rest ▸ consumed.rest, trace ▸ consumed.leaves⟩, predicted⟩

theorem ofEnter {nonterminal : Nonterminal} {depth : Nat}
    (read : (before.enter nonterminal).Reads phrase after) :
    before.Reads phrase { after with depth := depth } := by
  obtain ⟨tokens, consumed, predicted⟩ := read
  refine ⟨tokens, ⟨consumed.rest, ?_⟩, predicted⟩
  have leaves := consumed.leaves
  simpa [enter, leavesOf_push, TraceEntry.leaf?] using leaves

/-- Reading a solid phrase leaves fewer tokens. -/
theorem length_lt (read : before.Reads phrase after) (solid : phrase.isSolid = true) :
    after.rest.length < before.rest.length := by
  obtain ⟨tokens, consumed, predicted⟩ := read
  have present := predicted.length_pos solid
  rw [consumed.rest, List.length_append]
  omega

theorem word_length_lt {symbol : String} (read : before.Reads (Phrase.word symbol) after) :
    after.rest.length < before.rest.length :=
  read.length_lt (by simp [Phrase.isSolid, Phrase.word])

end Reads

end Cursor

namespace Reading

variable {α β : Type} {before : Cursor}

/-- What a run of a reader gives: `always` holds of the result of any run, and
`clean` of the result and the last cursor of a run without errors. -/
structure Gives (reader : Reading α) (before : Cursor) (always : α → Prop)
    (clean : α → Cursor → Prop) : Prop where
  advances : before.Advances (reader.run before).2
  always : always (reader.run before).1
  clean : (reader.run before).2.errors = before.errors →
    clean (reader.run before).1 (reader.run before).2

/-- Every run adds an error. -/
def Repairs (reader : Reading Unit) : Prop :=
  ∀ before, Gives reader before (fun _ => True) fun _ _ => False

namespace Gives

variable {always : α → Prop} {clean : α → Cursor → Prop}
  {alwaysAfter : β → Prop} {cleanAfter : β → Cursor → Prop}

theorem pure {result : α} (holds : always result) (arrives : clean result before) :
    Gives (Pure.pure result) before always clean :=
  ⟨.refl before, holds, fun _ => arrives⟩

theorem bind {reader : Reading α} {next : α → Reading β}
    (first : Gives reader before always clean)
    (second : ∀ result middle, before.Advances middle → always result →
      Gives (next result) middle alwaysAfter fun final after =>
        clean result middle → cleanAfter final after) :
    Gives (reader >>= next) before alwaysAfter cleanAfter := by
  have rest := second _ _ first.advances first.always
  refine ⟨first.advances.trans rest.advances, rest.always, ?_⟩
  intro unchanged
  have middleClean := first.advances.errors_eq rest.advances unchanged
  exact rest.clean (Eq.trans unchanged middleClean.symm) (first.clean middleClean)

theorem imp {reader : Reading α} {weaker : α → Prop} {reached : α → Cursor → Prop}
    (given : Gives reader before always clean)
    (onAlways : ∀ result, always result → weaker result)
    (onClean : ∀ result after, before.Advances after → always result → clean result after →
      reached result after) :
    Gives reader before weaker reached :=
  ⟨given.advances, onAlways _ given.always, fun unchanged =>
    onClean _ _ given.advances given.always (given.clean unchanged)⟩

theorem map {reader : Reading α} {function : α → β} (given : Gives reader before always clean)
    (onAlways : ∀ result, always result → alwaysAfter (function result))
    (onClean : ∀ result after, before.Advances after → always result → clean result after →
      cleanAfter (function result) after) :
    Gives (function <$> reader) before alwaysAfter cleanAfter :=
  ⟨given.advances, onAlways _ given.always, fun unchanged =>
    onClean _ _ given.advances given.always (given.clean unchanged)⟩

theorem ite {condition : Prop} [Decidable condition] {yes no : Reading α}
    (holds : condition → Gives yes before always clean)
    (fails : ¬condition → Gives no before always clean) :
    Gives (if condition then yes else no) before always clean := by
  split
  · next condition => exact holds condition
  · next condition => exact fails condition

/-- Only the run matters. -/
theorem of_run {reader : Reading α} (other : Reading α)
    (run : reader.run before = other.run before) (given : Gives other before always clean) :
    Gives reader before always clean :=
  ⟨by rw [run]; exact given.advances, by rw [run]; exact given.always,
    by rw [run]; exact given.clean⟩

/-- A look at the cursor does not move it. -/
theorem look {reader : Reading α} {next : α → Reading β} (answer : α)
    (run : reader.run before = (answer, before))
    (rest : Gives (next answer) before alwaysAfter cleanAfter) :
    Gives (reader >>= next) before alwaysAfter cleanAfter := by
  refine of_run _ ?_ rest
  calc
    (reader >>= next).run before =
        (next (reader.run before).1).run (reader.run before).2 := rfl
    _ = (next answer).run before := by rw [run]

/-- A look at the cursor that decides between two ways to go on. -/
theorem branch {question : Reading Bool} {yes no : Reading α} (answer : Bool)
    (run : question.run before = (answer, before))
    (holds : answer = true → Gives yes before always clean)
    (fails : answer = false → Gives no before always clean) :
    Gives (do if ← question then yes else no) before always clean := by
  refine look answer run (ite holds ?_)
  intro failed
  exact fails (by simpa using failed)

end Gives

/-- A repair that is followed by anything without a claim is still a repair. -/
theorem Repairs.bind {repair rest : Reading Unit} (repairs : Repairs repair)
    (advances : ∀ before, Gives rest before (fun _ => True) fun _ _ => True) :
    Repairs (do repair; rest) := by
  intro before
  refine (repairs before).bind fun _ middle _ _ => ?_
  exact (advances middle).imp (fun _ => id) fun _ _ _ _ _ impossible => impossible

/-- Going on after a repair needs no claim about clean runs. -/
theorem Gives.repaired {repair : Reading Unit} {rest : Reading α} {always : α → Prop}
    {clean : α → Cursor → Prop} (repairs : Repairs repair)
    (given : ∀ middle, before.Advances middle → Gives rest middle always fun _ _ => True) :
    Gives (do repair; rest) before always clean := by
  refine (repairs before).bind fun _ middle advances _ => ?_
  exact (given middle advances).imp (fun _ => id) fun _ _ _ _ _ impossible => impossible.elim

end Reading

end StackLang
