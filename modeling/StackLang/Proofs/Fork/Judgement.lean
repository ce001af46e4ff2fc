import StackLang.Proofs.Reading.Switches

/-!
# Two runs

`Reading.Follows` compares two runs, each on an input of its own: from places that belong
together they get to places that belong together, with results that belong together.  The
first run makes no complaint; the second one may make some, and is taken to make none only
where that is said.  Which places belong together is left open, as long as it only depends
on the tokens ahead, on the count of switches and on the complaints of the second run.
-/

namespace StackLang

/-- What of a cursor reading depends on. -/
structure Place where
  rest : List Token
  switches : Nat

namespace Place

/-- The next token. -/
def next? (place : Place) : Option Token := place.rest.head?

/-- Whether the next token is spelled `symbol`. -/
def sees (place : Place) (symbol : String) : Bool :=
  place.next?.any fun token => token.spells symbol

/-- Whether the token after the next one is spelled `symbol`. -/
def seesSecond (place : Place) (symbol : String) : Bool :=
  place.rest.tail.head?.any fun token => token.spells symbol

/-- Whether the next token is one of the terminals. -/
def seesAny (place : Place) (terminals : List Terminal) : Bool :=
  Terminal.anyAccepts terminals place.next?

/-- Whether the next token can start the nonterminal. -/
def seesStart (place : Place) (nonterminal : Nonterminal) : Bool :=
  place.seesAny nonterminal.first

/-- Whether the next token is a name. -/
def seesIdentifier (place : Place) : Bool := place.next?.any Token.isIdentifier

/-- The place behind the next token. -/
def tail (place : Place) : Place := ⟨place.rest.tail, place.switches⟩

end Place

/-- A place with the number of complaints made on the way to it. -/
structure Stance extends Place where
  complaints : Nat

/-- The stance behind the next token. -/
def Stance.tail (stance : Stance) : Stance := ⟨stance.toPlace.tail, stance.complaints⟩

namespace Cursor

/-- The place of a cursor. -/
def place (cursor : Cursor) : Place := ⟨cursor.rest, cursor.switches⟩

/-- The stance of a cursor. -/
def stance (cursor : Cursor) : Stance := ⟨cursor.place, cursor.errors.size⟩

end Cursor

namespace Reading

variable {α β : Type}

/-- A run, which makes no complaint if `clean` holds. -/
structure Runs (clean : Prop) (reader : Reading α) (before : Cursor) (result : α)
    (after : Cursor) : Prop where
  run : reader.run before = (result, after)
  kept : clean → after.errors = before.errors

/-- A run without a complaint. -/
structure Goes (reader : Reading α) (before : Cursor) (result : α) (after : Cursor) : Prop where
  run : reader.run before = (result, after)
  clean : after.errors = before.errors

theorem Runs.goes {clean : Prop} {reader : Reading α} {before after : Cursor} {result : α}
    (runs : Runs clean reader before result after) (holds : clean) :
    Goes reader before result after :=
  ⟨runs.run, runs.kept holds⟩

theorem Goes.runs {reader : Reading α} {before after : Cursor} {result : α}
    (goes : Goes reader before result after) (clean : Prop) :
    Runs clean reader before result after :=
  ⟨goes.run, fun _ => goes.clean⟩

/-- No run from a place like these is without a complaint. -/
def FailsFrom (start : Place → Prop) (reader : Reading α) : Prop :=
  ∀ before result after, start before.place → ¬Goes reader before result after

/-- No run is without a complaint. -/
abbrev Fails (reader : Reading α) : Prop := FailsFrom (fun _ => True) reader

/-! ## Movement -/

namespace Moves

theorem pure (result : α) : Moves (Pure.pure result) := fun before => .refl before

theorem bind {reader : Reading α} {next : α → Reading β} (first : Moves reader)
    (second : ∀ result, Moves (next result)) : Moves (reader >>= next) :=
  fun before => (first before).trans (second _ _)

theorem ite {condition : Prop} [Decidable condition] {yes no : Reading α} (holds : Moves yes)
    (fails : Moves no) : Moves (if condition then yes else no) := by
  split
  · exact holds
  · exact fails

theorem rule {nonterminal : Nonterminal} {body : Reading α} (inside : Moves body) :
    Moves (Reading.rule nonterminal body) := by
  intro before
  obtain ⟨rest, errors, switches⟩ := inside (before.enter nonterminal)
  exact ⟨rest, errors, switches⟩

theorem collectFor {round : Reading (Option α)} (rounds : Moves round) (bound : Nat) :
    Moves (Reading.collectFor round bound) := by
  induction bound with
  | zero => exact fun _ => ⟨List.suffix_refl _, List.prefix_rfl, Nat.le_refl _⟩
  | succ bound ih =>
      refine rounds.bind fun next? => ?_
      cases next? with
      | none => exact .pure _
      | some next => exact ih.bind fun _ => .pure _

theorem refineFor {round : α → Reading (Option α)} (rounds : ∀ value, Moves (round value))
    (bound : Nat) (value : α) : Moves (Reading.refineFor round bound value) := by
  induction bound generalizing value with
  | zero => exact fun _ => ⟨List.suffix_refl _, List.prefix_rfl, Nat.le_refl _⟩
  | succ bound ih =>
      refine (rounds value).bind fun next? => ?_
      cases next? with
      | none => exact .pure _
      | some next => exact ih next

end Moves

namespace Runs

variable {clean : Prop}

/-- A run of two readers in a row. -/
theorem of_bind {reader : Reading α} {next : α → Reading β} {before after : Cursor} {final : β}
    (runs : Runs clean (reader >>= next) before final after) (first : Moves reader)
    (second : ∀ result, Moves (next result)) :
    ∃ result middle, Runs clean reader before result middle ∧
      Runs clean (next result) middle final after := by
  obtain ⟨run, kept⟩ := runs
  have front := first before
  have back := second (reader.run before).1 (reader.run before).2
  have whole : (next (reader.run before).1).run (reader.run before).2 = (final, after) := run
  rw [whole] at back
  have between (holds : clean) := front.errors_eq back (kept holds)
  exact ⟨_, _, ⟨rfl, between⟩, ⟨whole, fun holds => (kept holds).trans (between holds).symm⟩⟩

theorem of_pure {result final : α} {before after : Cursor}
    (runs : Runs clean (Pure.pure result) before final after) :
    final = result ∧ after = before := by
  cases runs.run
  exact ⟨rfl, rfl⟩

/-- A look at the cursor before a run. -/
theorem of_look {reader : Reading α} {next : α → Reading β} {before after : Cursor} {final : β}
    {answer : α} (runs : Runs clean (reader >>= next) before final after)
    (look : reader.run before = (answer, before)) :
    Runs clean (next answer) before final after := by
  obtain ⟨run, kept⟩ := runs
  rw [StateT.run_bind, look] at run
  exact ⟨run, kept⟩

/-- A run inside of a nonterminal. -/
theorem of_rule {nonterminal : Nonterminal} {body : Reading α} {before after : Cursor}
    {result : α} (runs : Runs clean (Reading.rule nonterminal body) before result after) :
    ∃ inner, Runs clean body (before.enter nonterminal) result inner ∧
      inner.stance = after.stance := by
  obtain ⟨run, kept⟩ := runs
  have whole : ((body.run (before.enter nonterminal)).1,
      { (body.run (before.enter nonterminal)).2 with depth := before.depth }) = (result, after) :=
    run
  cases whole
  exact ⟨_, ⟨rfl, kept⟩, rfl⟩

theorem advances {reader : Reading α} {before after : Cursor} {result : α}
    (runs : Runs clean reader before result after) (moves : Moves reader) :
    before.Advances after := by
  have moved := moves before
  rwa [runs.run] at moved

/-- A run after which as many complaints have been made as before it. -/
theorem goes_of_size {reader : Reading α} {before after : Cursor} {result : α}
    (runs : Runs clean reader before result after) (moves : Moves reader)
    (same : after.errors.size = before.errors.size) : Goes reader before result after := by
  have errors := (runs.advances moves).errors.eq_of_length_le (Nat.le_of_eq same)
  exact ⟨runs.run, (Array.toList_inj.mp errors).symm⟩

end Runs

namespace Goes

/-- A run of two readers in a row. -/
theorem of_bind {reader : Reading α} {next : α → Reading β} {before after : Cursor} {final : β}
    (goes : Goes (reader >>= next) before final after) (first : Moves reader)
    (second : ∀ result, Moves (next result)) :
    ∃ result middle, Goes reader before result middle ∧ Goes (next result) middle final after := by
  obtain ⟨result, middle, front, back⟩ := (goes.runs True).of_bind first second
  exact ⟨result, middle, front.goes trivial, back.goes trivial⟩

theorem of_pure {result final : α} {before after : Cursor}
    (goes : Goes (Pure.pure result) before final after) : final = result ∧ after = before :=
  (goes.runs True).of_pure

/-- A look at the cursor before a run. -/
theorem of_look {reader : Reading α} {next : α → Reading β} {before after : Cursor} {final : β}
    {answer : α} (goes : Goes (reader >>= next) before final after)
    (look : reader.run before = (answer, before)) : Goes (next answer) before final after :=
  ((goes.runs True).of_look look).goes trivial

/-- A run inside of a nonterminal. -/
theorem of_rule {nonterminal : Nonterminal} {body : Reading α} {before after : Cursor}
    {result : α} (goes : Goes (Reading.rule nonterminal body) before result after) :
    ∃ inner, Goes body (before.enter nonterminal) result inner ∧ inner.place = after.place := by
  obtain ⟨inner, runs, stance⟩ := (goes.runs True).of_rule
  exact ⟨inner, runs.goes trivial, congrArg Stance.toPlace stance⟩

theorem advances {reader : Reading α} {before after : Cursor} {result : α}
    (goes : Goes reader before result after) (moves : Moves reader) : before.Advances after :=
  (goes.runs True).advances moves

/-- What is known of clean runs is known of a run without a complaint. -/
theorem given {reader : Reading α} {before after : Cursor} {result : α} {always : α → Prop}
    {clean : α → Cursor → Prop} (goes : Goes reader before result after)
    (gives : Gives reader before always clean) : clean result after := by
  have given := gives.clean
  rw [goes.run] at given
  exact given goes.clean

end Goes

theorem FailsFrom.bind {start : Place → Prop} {reader : Reading α} {next : α → Reading β}
    (fails : FailsFrom start reader) (first : Moves reader)
    (second : ∀ result, Moves (next result)) : FailsFrom start (reader >>= next) := by
  intro before final after starts goes
  obtain ⟨result, middle, front, _⟩ := goes.of_bind first second
  exact fails _ _ _ starts front

namespace Fails

theorem of_repairs {reader : Reading Unit} (repairs : Repairs reader) : Fails reader := by
  exact fun before _ _ _ goes => goes.given (repairs before)

/-- Giving up after a complaint. -/
theorem giveUp (complaint : Complaint) (stop : Option Token → Bool) (result : α) :
    Fails (do abandon complaint stop; return result) :=
  (of_repairs (abandon_repairs complaint stop)).bind (abandon_moves complaint stop) fun _ =>
    .pure _

end Fails

theorem giveUp_moves (complaint : Complaint) (stop : Option Token → Bool) (result : α) :
    Moves (do abandon complaint stop; return result) :=
  (abandon_moves complaint stop).bind fun _ => .pure _

/-- A run without a complaint reads a token. -/
def Shortens (reader : Reading α) : Prop :=
  ∀ before result after, Goes reader before result after → after.rest.length < before.rest.length

theorem demand_shortens {symbol : String} {repair : Reading Unit} {rest : Reading α}
    (repairs : Repairs repair) (moves : Moves rest) :
    Shortens (do demand symbol repair; rest) := by
  intro before result after goes
  obtain ⟨_, middle, front, back⟩ := goes.of_bind (demand_moves symbol repairs) fun _ => moves
  have reads := front.given (demand_gives repairs symbol before)
  exact Nat.lt_of_le_of_lt (back.advances moves).length_le reads.word_length_lt

/-! ## The judgement -/

/-- The runs that are compared: those that start with fewer than the given numbers of
tokens ahead and of which the first leaves at least `bound` tokens and the second makes no
complaint if it is `silent`. -/
structure Extent where
  bound : Nat
  size : Nat
  otherSize : Nat
  silent : Prop

namespace Extent

/-- Runs that leave one more token. -/
def inside (extent : Extent) : Extent := { extent with bound := extent.bound + 1 }

/-- Runs that start behind a token. -/
def behind (extent : Extent) : Extent :=
  { extent with size := extent.size - 1, otherSize := extent.otherSize - 1 }

/-- Every run within the second extent is one within the first. -/
structure Covers (extent other : Extent) : Prop where
  bound : extent.bound ≤ other.bound
  size : other.size ≤ extent.size
  otherSize : other.otherSize ≤ extent.otherSize
  silent : extent.silent → other.silent

theorem Covers.refl (extent : Extent) : extent.Covers extent :=
  ⟨Nat.le_refl _, Nat.le_refl _, Nat.le_refl _, id⟩

theorem covers_inside (extent : Extent) : extent.Covers extent.inside :=
  ⟨Nat.le_succ _, Nat.le_refl _, Nat.le_refl _, id⟩

theorem covers_behind (extent : Extent) : extent.Covers extent.behind :=
  ⟨Nat.le_refl _, Nat.sub_le _ _, Nat.sub_le _ _, id⟩

theorem Covers.trans {extent middle other : Extent} (front : extent.Covers middle)
    (back : middle.Covers other) : extent.Covers other :=
  ⟨Nat.le_trans front.bound back.bound, Nat.le_trans back.size front.size,
    Nat.le_trans back.otherSize front.otherSize, back.silent ∘ front.silent⟩

/-- Induction on what is ahead of two runs, of which behind a token there is less. -/
theorem induction {motive : Extent → Nat → Nat → Prop} (extent : Extent)
    (nothing : ∀ narrower size otherSize, extent.Covers narrower →
      narrower.size = 0 ∨ narrower.otherSize = 0 → motive narrower size otherSize)
    (more : ∀ narrower size otherSize, extent.Covers narrower → narrower.behind.size ≤ size →
      narrower.behind.otherSize ≤ otherSize → motive narrower.behind size otherSize →
        motive narrower (size + 1) (otherSize + 1))
    (size otherSize : Nat) (enough : extent.size ≤ size) (otherEnough : extent.otherSize ≤ otherSize) :
    motive extent size otherSize := by
  suffices all : ∀ narrower, extent.Covers narrower → narrower.size ≤ size →
      narrower.otherSize ≤ otherSize → motive narrower size otherSize from
    all extent (.refl extent) enough otherEnough
  clear enough otherEnough
  induction size generalizing otherSize with
  | zero =>
      intro narrower covers enough _
      exact nothing _ _ _ covers (.inl (Nat.le_zero.mp enough))
  | succ size ih =>
      intro narrower covers enough otherEnough
      cases otherSize with
      | zero => exact nothing _ _ _ covers (.inr (Nat.le_zero.mp otherEnough))
      | succ otherSize =>
          have less : narrower.behind.size ≤ size := Nat.sub_le_of_le_add enough
          have otherLess : narrower.behind.otherSize ≤ otherSize := Nat.sub_le_of_le_add otherEnough
          refine more narrower size otherSize covers less otherLess ?_
          exact ih otherSize _ (covers.trans narrower.covers_behind) less otherLess

/-- The places behind a token. -/
def Past (extent : Extent) (places : Place → Stance → Prop) (one : Place) (other : Stance) : Prop :=
  places one other ∧ one.rest.length + 1 < extent.size ∧ other.rest.length + 1 < extent.otherSize

end Extent

/-- From places that belong together, runs within the extent get to places and results
that belong together. -/
structure Follows (extent : Extent) (start : Place → Stance → Prop) (one other : Reading α)
    (reached : α → α → Place → Stance → Prop) : Prop where
  moves : Moves one
  otherMoves : Moves other
  reaches : ∀ {before counterpart : Cursor} {result answer : α} {after last : Cursor},
    start before.place counterpart.stance → before.rest.length < extent.size →
      counterpart.rest.length < extent.otherSize → Goes one before result after →
        Runs extent.silent other counterpart answer last → extent.bound ≤ after.rest.length →
          reached result answer after.place last.stance

/-- The same result is reached. -/
def Same (places : α → Place → Stance → Prop) (result answer : α) (one : Place) (other : Stance) : Prop :=
  result = answer ∧ places result one other

namespace Follows

variable {extent : Extent} {start stronger : Place → Stance → Prop} {one other : Reading α}
  {reached weaker : α → α → Place → Stance → Prop} {final : β → β → Place → Stance → Prop}

theorem imp (follows : Follows extent start one other reached)
    (enough : ∀ place counterpart, stronger place counterpart → start place counterpart)
    (gives : ∀ result answer place counterpart, reached result answer place counterpart →
      weaker result answer place counterpart) :
    Follows extent stronger one other weaker :=
  ⟨follows.moves, follows.otherMoves, fun starts small otherSmall goes otherRuns large =>
    gives _ _ _ _ (follows.reaches (enough _ _ starts) small otherSmall goes otherRuns large)⟩

theorem starting (follows : Follows extent start one other reached)
    (enough : ∀ place counterpart, stronger place counterpart → start place counterpart) :
    Follows extent stronger one other reached :=
  follows.imp enough fun _ _ _ _ => id

theorem giving (follows : Follows extent start one other reached)
    (gives : ∀ result answer place counterpart, reached result answer place counterpart →
      weaker result answer place counterpart) :
    Follows extent start one other weaker :=
  follows.imp (fun _ _ => id) gives

theorem mono (follows : Follows extent start one other reached) {narrower : Extent}
    (covers : extent.Covers narrower) : Follows narrower start one other reached :=
  ⟨follows.moves, follows.otherMoves, fun starts small otherSmall goes otherRuns large =>
    follows.reaches starts (Nat.lt_of_lt_of_le small covers.size)
      (Nat.lt_of_lt_of_le otherSmall covers.otherSize) goes
      ⟨otherRuns.run, otherRuns.kept ∘ covers.silent⟩ (Nat.le_trans covers.bound large)⟩

/-- Starting behind a token, and ending there. -/
theorem past (follows : Follows extent.behind start one other reached) :
    Follows extent (extent.Past start) one other fun result answer =>
      extent.Past (reached result answer) := by
  refine ⟨follows.moves, follows.otherMoves, ?_⟩
  rintro before counterpart result answer after last ⟨starts, small, otherSmall⟩ _ _ goes otherRuns
    large
  have reaches := follows.reaches starts (Nat.lt_sub_of_add_lt small)
    (Nat.lt_sub_of_add_lt otherSmall) goes otherRuns large
  exact ⟨reaches, Nat.lt_of_le_of_lt (Nat.succ_le_succ (goes.advances follows.moves).length_le) small,
    Nat.lt_of_le_of_lt (Nat.succ_le_succ (otherRuns.advances follows.otherMoves).length_le)
      otherSmall⟩

/-- Starting behind a token, wherever it ends. -/
theorem onward (follows : Follows extent.behind start one other reached) :
    Follows extent (extent.Past start) one other reached :=
  follows.past.giving fun _ _ _ _ past => past.1

/-- Readers that shorten both inputs end behind a token. -/
theorem shortening (follows : Follows extent start one other reached) (shortens : Shortens one)
    (shrinks : ∀ {place after : Place} {counterpart last : Stance} {result answer : α},
      start place counterpart → reached result answer after last →
        after.rest.length < place.rest.length → last.rest.length < counterpart.rest.length) :
    Follows extent start one other fun result answer => extent.Past (reached result answer) := by
  refine ⟨follows.moves, follows.otherMoves, ?_⟩
  intro before counterpart result answer after last starts small otherSmall goes otherRuns large
  have arrived := follows.reaches starts small otherSmall goes otherRuns large
  have shorter := shortens _ _ _ goes
  have otherShorter := shrinks starts arrived shorter
  exact ⟨arrived, Nat.lt_of_le_of_lt shorter small, Nat.lt_of_le_of_lt otherShorter otherSmall⟩

/-- Starting behind a token, where the number of tokens ahead does not matter. -/
theorem loosely (follows : Follows extent start one other reached) :
    Follows extent (extent.Past start) one other reached :=
  follows.starting fun _ _ past => past.1

theorem or (first : Follows extent start one other reached)
    (second : Follows extent stronger one other reached) :
    Follows extent (fun place counterpart => start place counterpart ∨ stronger place counterpart)
      one other reached := by
  refine ⟨first.moves, first.otherMoves, fun starts small otherSmall goes otherRuns large => ?_⟩
  rcases starts with starts | starts
  · exact first.reaches starts small otherSmall goes otherRuns large
  · exact second.reaches starts small otherSmall goes otherRuns large

theorem pure {result answer : α}
    (arrives : ∀ place counterpart, start place counterpart →
      reached result answer place counterpart) :
    Follows extent start (Pure.pure result) (Pure.pure answer) reached := by
  refine ⟨.pure _, .pure _, ?_⟩
  intro before counterpart result answer after last starts _ _ goes otherRuns _
  obtain ⟨rfl, rfl⟩ := goes.of_pure
  obtain ⟨rfl, rfl⟩ := otherRuns.of_pure
  exact arrives _ _ starts

/-- What is read first has to be known of those runs only that leave enough for what is read
behind it. -/
theorem bindLeaving {bound : Nat} {next following : α → Reading β}
    (first : Follows { extent with bound } start one other reached)
    (second : ∀ result answer,
      Follows extent (reached result answer) (next result) (following answer) final)
    (leaves : ∀ result middle ended after, Goes (next result) middle ended after →
      extent.bound ≤ after.rest.length → bound ≤ middle.rest.length) :
    Follows extent start (one >>= next) (other >>= following) final := by
  have nextMoves : ∀ result, Moves (next result) := fun result => (second result result).moves
  have followingMoves : ∀ answer, Moves (following answer) := fun answer =>
    (second answer answer).otherMoves
  refine ⟨first.moves.bind nextMoves, first.otherMoves.bind followingMoves, ?_⟩
  intro before counterpart ended answered after last starts small otherSmall goes otherRuns large
  obtain ⟨result, middle, front, back⟩ := goes.of_bind first.moves nextMoves
  obtain ⟨answer, between, otherFront, otherBack⟩ :=
    otherRuns.of_bind first.otherMoves followingMoves
  have reaches := first.reaches starts small otherSmall front otherFront
    (leaves result middle ended after back large)
  exact (second result answer).reaches reaches
    (Nat.lt_of_le_of_lt (front.advances first.moves).length_le small)
    (Nat.lt_of_le_of_lt (otherFront.advances first.otherMoves).length_le otherSmall)
    back otherBack large

theorem bind {next following : α → Reading β} (first : Follows extent start one other reached)
    (second : ∀ result answer,
      Follows extent (reached result answer) (next result) (following answer) final) :
    Follows extent start (one >>= next) (other >>= following) final :=
  first.bindLeaving second fun result _ _ _ back large =>
    Nat.le_trans large (back.advances (second result result).moves).length_le

/-- Going on with the same result. -/
theorem andThen {places : α → Place → Stance → Prop} {next following : α → Reading β}
    (first : Follows extent start one other (Same places))
    (second : ∀ result, Follows extent (places result) (next result) (following result) final) :
    Follows extent start (one >>= next) (other >>= following) final := by
  refine first.bind fun result answer => ⟨(second result).moves, (second answer).otherMoves, ?_⟩
  rintro before counterpart ended answered after last ⟨rfl, places⟩
  exact (second result).reaches places

/-- Going on with results that are related. -/
theorem bindRelated {rel : α → α → Prop} {places : Place → Stance → Prop}
    {next following : α → Reading β}
    (first : Follows extent start one other fun result answer place counterpart =>
      rel result answer ∧ places place counterpart)
    (refl : ∀ result, rel result result)
    (second : ∀ result answer, rel result answer →
      Follows extent places (next result) (following answer) final) :
    Follows extent start (one >>= next) (other >>= following) final := by
  refine first.bind fun result answer =>
    ⟨(second result result (refl _)).moves, (second answer answer (refl _)).otherMoves, ?_⟩
  rintro before counterpart ended answered after last ⟨related, places⟩
  exact (second result answer related).reaches places

theorem ite {condition : Prop} [Decidable condition] {two second : Reading α}
    (holds : Follows extent start one other reached)
    (fails : Follows extent start two second reached) :
    Follows extent start (if condition then one else two) (if condition then other else second)
      reached := by
  split
  · exact holds
  · exact fails

/-- The first run complains. -/
theorem fails {lost : Place → Prop} (fails : FailsFrom lost one) (moves : Moves one)
    (otherMoves : Moves other)
    (loses : ∀ place counterpart, start place counterpart → lost place := by
      exact fun _ _ _ => trivial) :
    Follows extent start one other reached :=
  ⟨moves, otherMoves, fun starts _ _ goes => absurd goes (fails _ _ _ (loses _ _ starts))⟩

/-- The first run complains at some of the places. -/
theorem orFails {lost : Place → Prop} (follows : Follows extent start one other reached)
    (fails : FailsFrom lost one)
    (splits : ∀ place counterpart, stronger place counterpart →
      lost place ∨ start place counterpart) :
    Follows extent stronger one other reached := by
  refine ⟨follows.moves, follows.otherMoves, fun starts small otherSmall goes otherRuns large => ?_⟩
  rcases splits _ _ starts with loses | starts
  · exact absurd goes (fails _ _ _ loses)
  · exact follows.reaches starts small otherSmall goes otherRuns large

/-- There is nowhere to start from. -/
theorem nowhere (moves : Moves one) (otherMoves : Moves other)
    (never : ∀ place counterpart, ¬start place counterpart) :
    Follows extent start one other reached :=
  ⟨moves, otherMoves, fun starts => absurd starts (never _ _)⟩

/-- A look at the two cursors. -/
theorem look (answer : Place → α) {next following : α → Reading β} {question : Reading α}
    (run : ∀ cursor, question.run cursor = (answer cursor.place, cursor))
    (second : ∀ result answered, Follows extent
      (fun place counterpart => start place counterpart ∧ result = answer place ∧
        answered = answer counterpart.toPlace)
      (next result) (following answered) final) :
    Follows extent start (question >>= next) (question >>= following) final := by
  have moves : Moves question := fun before => by
    rw [run]
    exact .refl before
  have first : Follows extent start question question fun result answered place counterpart =>
      start place counterpart ∧ result = answer place ∧
        answered = answer counterpart.toPlace := by
    refine ⟨moves, moves, ?_⟩
    intro before counterpart result answer after last starts _ _ goes otherRuns _
    cases (run before).symm.trans goes.run
    cases (run counterpart).symm.trans otherRuns.run
    exact ⟨starts, rfl, rfl⟩
  exact first.bind second

/-- A look at the two cursors, whatever is seen. -/
theorem glance {next following : Cursor → Reading β}
    (second : ∀ cursor counterpart,
      Follows extent start (next cursor) (following counterpart) final) :
    Follows extent start (get >>= next) (get >>= following) final :=
  ⟨fun before => (second before before).moves before,
    fun before => (second before before).otherMoves before,
    fun starts small otherSmall goes otherRuns => (second _ _).reaches starts small otherSmall
      ⟨goes.run, goes.clean⟩ ⟨otherRuns.run, otherRuns.kept⟩⟩

/-- A look at something that is the same in both runs, unless the first is not
considered. -/
theorem lookVia {γ : Type} {question : Reading γ} (view : γ → α) (answer : Place → α)
    (next following : α → Reading β)
    (run : ∀ cursor, ∃ found, question.run cursor = (found, cursor) ∧
      view found = answer cursor.place)
    (agree : ∀ place counterpart, start place counterpart →
      answer place = answer counterpart.toPlace ∨ place.rest.length < extent.bound)
    (second : ∀ result, Follows extent
      (fun place counterpart => start place counterpart ∧ answer place = result)
      (next result) (following result) final) :
    Follows extent start (do next (view (← question))) (do following (view (← question)))
      final := by
  have whole (reader : α → Reading β) (cursor : Cursor) :
      (do reader (view (← question))).run cursor = (reader (answer cursor.place)).run cursor := by
    obtain ⟨found, looked, viewed⟩ := run cursor
    rw [StateT.run_bind, looked, ← viewed]
    rfl
  refine ⟨fun before => ?_, fun before => ?_, ?_⟩
  · rw [whole]
    exact (second _).moves before
  · rw [whole]
    exact (second _).otherMoves before
  · intro before counterpart result reply after last starts small otherSmall goes otherRuns large
    have goes : Goes (next (answer before.place)) before result after :=
      ⟨(whole next before).symm.trans goes.run, goes.clean⟩
    rcases agree _ _ starts with same | short
    · have otherRuns : Runs extent.silent (following (answer before.place)) counterpart reply last :=
        ⟨same ▸ (whole following counterpart).symm.trans otherRuns.run, otherRuns.kept⟩
      exact (second _).reaches ⟨starts, rfl⟩ small otherSmall goes otherRuns large
    · have shorter := (goes.advances (second _).moves).length_le
      exact absurd (Nat.le_trans large shorter) (Nat.not_le.mpr short)

/-- A look at what is the same in both runs, unless the first is not considered. -/
theorem lookAlike (answer : Place → α) {next following : α → Reading β} {question : Reading α}
    (run : ∀ cursor, question.run cursor = (answer cursor.place, cursor))
    (agree : ∀ place counterpart, start place counterpart →
      answer place = answer counterpart.toPlace ∨ place.rest.length < extent.bound)
    (second : ∀ result, Follows extent
      (fun place counterpart => start place counterpart ∧ answer place = result)
      (next result) (following result) final) :
    Follows extent start (question >>= next) (question >>= following) final :=
  lookVia id answer next following (fun cursor => ⟨_, run cursor, rfl⟩) agree second

/-- A question that is answered alike in both runs, unless the first is not considered. -/
theorem ask {question : Reading Bool} (answer : Place → Bool)
    {yes no counterYes counterNo : Reading β}
    (run : ∀ cursor, question.run cursor = (answer cursor.place, cursor))
    (agree : ∀ place counterpart, start place counterpart →
      answer place = answer counterpart.toPlace ∨ place.rest.length < extent.bound)
    (holds : Follows extent
      (fun place counterpart => start place counterpart ∧ answer place = true) yes counterYes final)
    (fails : Follows extent
      (fun place counterpart => start place counterpart ∧ answer place = false) no counterNo
      final) :
    Follows extent start (do if ← question then yes else no)
      (do if ← question then counterYes else counterNo) final := by
  refine lookAlike answer run agree fun result => ?_
  cases result with
  | true => exact holds
  | false => exact fails

/-- A question without whose affirmation the first run complains. -/
theorem require {question : Reading Bool} (answer : Place → Bool)
    {yes no counterYes counterNo : Reading β}
    (run : ∀ cursor, question.run cursor = (answer cursor.place, cursor))
    (agree : ∀ place counterpart, start place counterpart → answer place = true →
      answer counterpart.toPlace = true)
    (holds : Follows extent
      (fun place counterpart => start place counterpart ∧ answer place = true) yes counterYes final)
    (fails : Fails no) (moves : Moves no) (otherMoves : Moves counterNo) :
    Follows extent start (do if ← question then yes else no)
      (do if ← question then counterYes else counterNo) final := by
  refine look answer run fun result answered => ⟨.ite holds.moves moves,
    .ite holds.otherMoves otherMoves, ?_⟩
  rintro before counterpart ended replied after last ⟨starts, rfl, rfl⟩ small otherSmall goes
    otherRuns
  cases known : answer before.place with
  | true =>
      rw [known] at goes
      rw [agree _ _ starts known] at otherRuns
      exact holds.reaches ⟨starts, known⟩ small otherSmall goes otherRuns
  | false =>
      rw [known] at goes
      exact absurd goes (fails _ _ _ trivial)

/-- A step that does not depend on what is ahead. -/
theorem move {reader : Reading Unit} {step : Place → Place} {after : Place → Stance → Prop}
    (moves : Moves reader)
    (run : ∀ cursor, (reader.run cursor).2.stance = ⟨step cursor.place, cursor.errors.size⟩)
    (arrives : ∀ place counterpart, start place counterpart →
      place.rest.length < extent.size → counterpart.rest.length < extent.otherSize →
        after (step place) ⟨step counterpart.toPlace, counterpart.complaints⟩) :
    Follows extent start reader reader (Same fun _ => after) := by
  refine ⟨moves, moves, ?_⟩
  intro before counterpart result answer ended last starts small otherSmall goes otherRuns _
  have place := congrArg Stance.toPlace (run before)
  have stance := run counterpart
  rw [goes.run] at place
  rw [otherRuns.run] at stance
  refine ⟨rfl, ?_⟩
  rw [show ended.place = step before.place from place, stance]
  exact arrives _ _ starts small otherSmall

/-- Reading inside of a nonterminal. -/
theorem rule {nonterminal : Nonterminal} (inside : Follows extent start one other reached) :
    Follows extent start (Reading.rule nonterminal one) (Reading.rule nonterminal other)
      reached := by
  refine ⟨inside.moves.rule, inside.otherMoves.rule, ?_⟩
  intro before counterpart result answer after last starts small otherSmall goes otherRuns large
  obtain ⟨inner, goes, place⟩ := goes.of_rule
  obtain ⟨otherInner, otherRuns, stance⟩ := otherRuns.of_rule
  have rest : inner.rest = after.rest := congrArg Place.rest place
  have entered : start (before.enter nonterminal).place (counterpart.enter nonterminal).stance :=
    starts
  have fits : (before.enter nonterminal).rest.length < extent.size := small
  have otherFits : (counterpart.enter nonterminal).rest.length < extent.otherSize := otherSmall
  rw [← place, ← stance]
  exact inside.reaches entered fits otherFits goes otherRuns (rest ▸ large)

/-- What is read first leaves a token for what is read behind it. -/
theorem bindInside {next following : α → Reading β}
    (first : Follows extent.inside start one other reached)
    (second : ∀ result answer,
      Follows extent (reached result answer) (next result) (following answer) final)
    (shortens : ∀ result, Shortens (next result)) :
    Follows extent start (one >>= next) (other >>= following) final :=
  first.bindLeaving second fun result _ _ _ back large =>
    Nat.lt_of_le_of_lt large (shortens result _ _ _ back)

theorem bindRelatedInside {rel : α → α → Prop} {places : Place → Stance → Prop}
    {next following : α → Reading β}
    (first : Follows extent.inside start one other fun result answer place counterpart =>
      rel result answer ∧ places place counterpart)
    (refl : ∀ result, rel result result)
    (second : ∀ result answer, rel result answer →
      Follows extent places (next result) (following answer) final)
    (shortens : ∀ result, Shortens (next result)) :
    Follows extent start (one >>= next) (other >>= following) final := by
  refine first.bindInside (fun result answer =>
    ⟨(second result result (refl _)).moves, (second answer answer (refl _)).otherMoves, ?_⟩) shortens
  rintro before counterpart ended answered after last ⟨related, places⟩
  exact (second result answer related).reaches places

theorem andThenInside {places : α → Place → Stance → Prop} {next following : α → Reading β}
    (first : Follows extent.inside start one other (Same places))
    (second : ∀ result, Follows extent (places result) (next result) (following result) final)
    (shortens : ∀ result, Shortens (next result)) :
    Follows extent start (one >>= next) (other >>= following) final := by
  refine first.bindInside (fun result answer =>
    ⟨(second result).moves, (second answer).otherMoves, ?_⟩) shortens
  rintro before counterpart ended answered after last ⟨rfl, places⟩
  exact (second result).reaches places

/-! ## Loops -/

/-- No run starts with fewer than no tokens ahead. -/
theorem empty (moves : Moves one) (otherMoves : Moves other)
    (none : extent.size = 0 ∨ extent.otherSize = 0) : Follows extent start one other reached := by
  refine ⟨moves, otherMoves, fun _ small otherSmall => ?_⟩
  rcases none with none | none
  · exact absurd (none ▸ small) (Nat.not_lt_zero _)
  · exact absurd (none ▸ otherSmall) (Nat.not_lt_zero _)

/-- Readers that are nested to any depths follow each other if those of one more depth do where
the nested ones do behind a token. -/
theorem nested {family counterparts : Nat → Reading α} (moves : ∀ depth, Moves (family depth))
    (otherMoves : ∀ depth, Moves (counterparts depth))
    (more : ∀ narrower depth otherDepth, extent.Covers narrower → narrower.behind.size ≤ depth →
      narrower.behind.otherSize ≤ otherDepth →
        Follows narrower.behind start (family depth) (counterparts otherDepth) reached →
          Follows narrower start (family (depth + 1)) (counterparts (otherDepth + 1)) reached)
    (depth otherDepth : Nat) (enough : extent.size ≤ depth)
    (otherEnough : extent.otherSize ≤ otherDepth) :
    Follows extent start (family depth) (counterparts otherDepth) reached := by
  refine extent.induction (motive := fun narrower depth otherDepth =>
    Follows narrower start (family depth) (counterparts otherDepth) reached)
    (fun _ _ _ _ none => ?_) more depth otherDepth enough otherEnough
  exact .empty (moves _) (otherMoves _) none

/-- A bound that counts the tokens ahead. -/
theorem sized {next following : Nat → Reading β} (moves : ∀ size, Moves (next size))
    (otherMoves : ∀ size, Moves (following size))
    (second : ∀ narrower, extent.Covers narrower →
      Follows narrower start (next narrower.size) (following narrower.otherSize) final) :
    Follows extent start (do next ((← get).rest.length + 1))
      (do following ((← get).rest.length + 1)) final := by
  refine ⟨fun before => moves _ before, fun before => otherMoves _ before, ?_⟩
  intro before counterpart result answer after last starts small otherSmall goes otherRuns
  exact (second ⟨extent.bound, before.rest.length + 1, counterpart.rest.length + 1, extent.silent⟩
    ⟨Nat.le_refl _, small, otherSmall, id⟩).reaches starts (Nat.lt_succ_self _)
      (Nat.lt_succ_self _) ⟨goes.run, goes.clean⟩ ⟨otherRuns.run, otherRuns.kept⟩

/-- A round after which reading goes on behind a token, if it goes on at all. -/
abbrev Round (extent : Extent) (start ended onward : Place → Stance → Prop) (rel : α → α → Prop)
    (round otherRound : Reading (Option α)) : Prop :=
  Follows extent start round otherRound fun next? answer? place counterpart =>
    Option.Rel rel next? answer? ∧
      if next?.isSome then extent.Past onward place counterpart else ended place counterpart

/-- Rounds that start where the last one ended. -/
abbrev Rounds (extent : Extent) (start : Place → Stance → Prop) (rel : α → α → Prop)
    (round otherRound : Reading (Option α)) : Prop :=
  Round extent start start start rel round otherRound

/-- A round that is not the last one. -/
theorem Round.goesOn {ended onward : Place → Stance → Prop} {rel : α → α → Prop}
    {round otherRound : Reading (Option α)}
    (rounds : Follows extent start round otherRound fun next? answer? place counterpart =>
      (next?.isSome = true ∧ Option.Rel rel next? answer?) ∧ extent.Past onward place counterpart) :
    Round extent start ended onward rel round otherRound := by
  refine rounds.giving ?_
  rintro next? answer? place counterpart ⟨⟨goesOn, related⟩, past⟩
  refine ⟨related, ?_⟩
  rw [if_pos goesOn]
  exact past

/-- A round that starts behind a token. -/
theorem Round.behind {ended onward : Place → Stance → Prop} {rel : α → α → Prop}
    {round otherRound : Reading (Option α)}
    (rounds : Follows extent.behind start round otherRound fun next? answer? place counterpart =>
      (next?.isSome = true ∧ Option.Rel rel next? answer?) ∧ onward place counterpart) :
    Round extent (extent.Past start) ended onward rel round otherRound :=
  .goesOn (rounds.past.giving fun _ _ _ _ past => ⟨past.1.1, past.1.2, past.2⟩)

/-- Going on behind a round. -/
theorem Round.bind {ended onward : Place → Stance → Prop} {rel : α → α → Prop}
    {round otherRound : Reading (Option α)} {next following : Option α → Reading β}
    (rounds : Round extent start ended onward rel round otherRound)
    (ended : Follows extent ended (next none) (following none) final)
    (goesOn : ∀ value answer, rel value answer →
      Follows extent.behind onward (next (some value)) (following (some answer)) final)
    (moves : ∀ value, Moves (next (some value)))
    (otherMoves : ∀ value, Moves (following (some value))) :
    Follows extent start (round >>= next) (otherRound >>= following) final := by
  refine Follows.bind rounds fun next? answer? => ⟨?_, ?_, ?_⟩
  · cases next? with
    | none => exact ended.moves
    | some value => exact moves value
  · cases answer? with
    | none => exact ended.otherMoves
    | some answer => exact otherMoves answer
  · rintro before counterpart result answer after last ⟨same, places⟩
    cases same with
    | none => exact ended.reaches places
    | some related => exact (goesOn _ _ related).onward.reaches places

theorem refineFor {round otherRound : α → Reading (Option α)} (size otherSize : Nat)
    (rounds : ∀ narrower, extent.Covers narrower → ∀ value,
      Rounds narrower start Eq (round value) (otherRound value))
    (enough : extent.size ≤ size) (otherEnough : extent.otherSize ≤ otherSize) (value : α) :
    Follows extent start (Reading.refineFor round size value)
      (Reading.refineFor otherRound otherSize value) (Same fun _ => start) := by
  have moves : ∀ value, Moves (round value) := fun value => (rounds extent (.refl _) value).moves
  have otherMoves : ∀ value, Moves (otherRound value) := fun value =>
    (rounds extent (.refl _) value).otherMoves
  refine extent.induction (motive := fun narrower size otherSize => ∀ value,
    Follows narrower start (Reading.refineFor round size value)
      (Reading.refineFor otherRound otherSize value) (Same fun _ => start))
    ?nothing ?more size otherSize enough otherEnough value
  case nothing =>
    intro narrower size otherSize _ none value
    exact .empty (.refineFor moves _ _) (.refineFor otherMoves _ _) none
  case more =>
    intro narrower size otherSize covers _ _ later value
    refine Round.bind (rounds narrower covers value) (.pure fun _ _ starts => ⟨rfl, starts⟩) ?_
      (.refineFor moves _) (.refineFor otherMoves _)
    rintro next _ rfl
    exact later next

theorem refine {round otherRound : α → Reading (Option α)}
    (rounds : ∀ narrower, extent.Covers narrower → ∀ value,
      Rounds narrower start Eq (round value) (otherRound value)) (value : α) :
    Follows extent start (Reading.refine round value) (Reading.refine otherRound value)
      (Same fun _ => start) := by
  refine .sized (fun size => .refineFor (fun value => (rounds extent (.refl _) value).moves) size _)
    (fun size => .refineFor (fun value => (rounds extent (.refl _) value).otherMoves) size _)
    fun narrower covers => ?_
  exact refineFor _ _ (fun narrow within => rounds narrow (covers.trans within)) (Nat.le_refl _)
    (Nat.le_refl _) value

theorem collectFor (rel : α → α → Prop) {round otherRound : Reading (Option α)} (size otherSize : Nat)
    (rounds : ∀ narrower, extent.Covers narrower → Rounds narrower start rel round otherRound)
    (enough : extent.size ≤ size) (otherEnough : extent.otherSize ≤ otherSize) :
    Follows extent start (Reading.collectFor round size)
      (Reading.collectFor otherRound otherSize) fun results answers place counterpart =>
        List.Forall₂ rel results answers ∧ start place counterpart := by
  have moves : Moves round := (rounds extent (.refl _)).moves
  have otherMoves : Moves otherRound := (rounds extent (.refl _)).otherMoves
  refine .nested (.collectFor moves) (.collectFor otherMoves) ?_ size otherSize enough otherEnough
  intro narrower size otherSize covers _ _ later
  refine Round.bind (rounds narrower covers) (.pure fun _ _ starts => ⟨.nil, starts⟩) ?_
    (fun _ => (Moves.collectFor moves _).bind fun _ => .pure _)
    (fun _ => (Moves.collectFor otherMoves _).bind fun _ => .pure _)
  intro result answer related
  exact later.bind fun _ _ => .pure fun _ _ reached => ⟨.cons related reached.1, reached.2⟩

theorem collect (rel : α → α → Prop) {round otherRound : Reading (Option α)}
    (rounds : ∀ narrower, extent.Covers narrower → Rounds narrower start rel round otherRound) :
    Follows extent start (Reading.collect round) (Reading.collect otherRound)
      fun results answers place counterpart =>
        List.Forall₂ rel results answers ∧ start place counterpart := by
  refine .sized (.collectFor (rounds extent (.refl _)).moves)
    (.collectFor (rounds extent (.refl _)).otherMoves) fun narrower covers => ?_
  exact collectFor rel _ _ (fun narrow within => rounds narrow (covers.trans within)) (Nat.le_refl _)
    (Nat.le_refl _)

end Follows

end Reading

end StackLang
