import StackLang.Proofs.Fork.Judgement

/-!
# Inputs with a fork

Two inputs are the same up to a fork, and may join again behind it.  Only at the fork
itself can a reader tell them apart.  Nothing that continues a phrase stands there on
either side, so what ends at the fork ends there on both inputs; and what the first input
has there cannot be read, unless it is a loop or a semicolon.
-/

namespace StackLang

open Terminal (Opens allApart)
open Nonterminal (words)

namespace Place

theorem seesAny_word (place : Place) (symbol : String) :
    place.seesAny [.word symbol] = place.sees symbol := by
  rw [seesAny, Terminal.anyAccepts, List.any_cons, List.any_nil, Bool.or_false,
    Terminal.accepts_word]
  rfl

theorem seesAny_identifier (place : Place) : place.seesAny [.identifier] = place.seesIdentifier := by
  rw [seesAny, Terminal.anyAccepts, List.any_cons, List.any_nil, Bool.or_false,
    Terminal.accepts_identifier]
  rfl

end Place

theorem Place.isNone_next? (place : Place) : place.next?.isNone = place.rest.isEmpty := by
  rw [next?]
  cases place.rest <;> rfl

theorem Place.seesAny_endOfInput (place : Place) :
    place.seesAny [.endOfInput] = place.rest.isEmpty := by
  rw [seesAny, next?]
  cases place.rest <;> rfl

/-! ### Places with the same next token -/

section

variable {one other : Place} (same : one.next? = other.next?)

include same

theorem Place.sees_congr (symbol : String) : one.sees symbol = other.sees symbol := by
  rw [sees, sees, same]

theorem Place.seesAny_congr (terminals : List Terminal) :
    one.seesAny terminals = other.seesAny terminals := by
  rw [seesAny, seesAny, same]

theorem Place.seesIdentifier_congr : one.seesIdentifier = other.seesIdentifier := by
  rw [seesIdentifier, seesIdentifier, same]

theorem Place.isEmpty_congr : one.rest.isEmpty = other.rest.isEmpty := by
  rw [← isNone_next?, ← isNone_next?, same]

end

/-- Where a token must be next the input is not used up. -/
theorem Terminal.Opens.isEmpty_eq_false {terminals : List Terminal} {tokens : List Token}
    (opens : Opens terminals tokens) (unended : anyAccepts terminals none = false) :
    tokens.isEmpty = false := by
  cases tokens with
  | nil => exact nomatch unended.symm.trans opens
  | cons token tokens => rfl

/-- Two inputs that are the same up to a fork. -/
structure Fork where
  /-- What is left of the first input at the fork. -/
  one : List Token
  /-- What is left of the second input at the fork. -/
  other : List Token
  /-- The tokens that may be left in front of the fork. -/
  fits : List Token → Prop
  /-- Whether the inputs may join behind the fork. -/
  joins : Prop
  /-- How many switches may have been read on each input. -/
  counts : Nat → Nat → Prop
  /-- How many complaints the second run has made. -/
  complaints : Nat

namespace Fork

/-- What may stand on the first input at a fork. -/
def stops : List Terminal := words [")", ";", "\x7d", "for"]

/-- What clearly starts a statement, or ends a list of statements. -/
def resumers : List Terminal :=
  Reading.openers ++ .endOfInput :: words ["\x7d", "case", "default"]

/-- What may stand on the second input at a fork. -/
def otherStops : List Terminal := words [")", ";"] ++ resumers

/-- What may stand on the second input where the first has a loop. -/
def loopStops : List Terminal := .identifier :: words (Nonterminal.typeWords ++ ["while"])

/-- A fork that a reader of a part of a statement does not get past.  Runs are only considered
if they leave at least `bound` tokens. -/
structure Plain (fork : Fork) (bound : Nat) : Prop where
  tail : ∀ {token : Token} {tokens : List Token}, fork.fits (token :: tokens) → fork.fits tokens
  opens : Opens stops fork.one
  otherOpens : Opens otherStops fork.other
  held : fork.one.length ≤ bound ∨ Opens (words ["for", ";"]) fork.one ∧ Opens resumers fork.other

/-- A fork that a reader does not get past unless there is a loop to read. -/
structure Firm (fork : Fork) (bound : Nat) : Prop where
  tail : ∀ {token : Token} {tokens : List Token}, fork.fits (token :: tokens) → fork.fits tokens
  opens : Opens stops fork.one
  otherOpens : Opens otherStops fork.other
  held : fork.one.length ≤ bound ∨ Opens [.word "for"] fork.one ∧ Opens loopStops fork.other

theorem Plain.mono {fork : Fork} {bound larger : Nat} (plain : fork.Plain bound)
    (le : bound ≤ larger) : fork.Plain larger :=
  ⟨plain.tail, plain.opens, plain.otherOpens, plain.held.imp (Nat.le_trans · le) id⟩

theorem Firm.mono {fork : Fork} {bound larger : Nat} (firm : fork.Firm bound)
    (le : bound ≤ larger) : fork.Firm larger :=
  ⟨firm.tail, firm.opens, firm.otherOpens, firm.held.imp (Nat.le_trans · le) id⟩

theorem Firm.plain {fork : Fork} {bound : Nat} (firm : fork.Firm bound) : fork.Plain bound := by
  refine ⟨firm.tail, firm.opens, firm.otherOpens, firm.held.imp_right fun loops => ⟨?_, ?_⟩⟩
  · exact loops.1.mono (by decide)
  · exact loops.2.mono (by decide)

variable (fork : Fork)

/-- The same token is next, and behind it the same tokens up to the fork or to the end. -/
inductive Together : List Token → List Token → Prop
  | ahead {token : Token} {tokens : List Token} : fork.fits (token :: tokens) →
      Together (token :: (tokens ++ fork.one)) (token :: (tokens ++ fork.other))
  | behind {token : Token} {tokens : List Token} : fork.joins →
      Together (token :: tokens) (token :: tokens)

/-- As much has been counted on the two inputs as may have been. -/
def Counted (one : Place) (other : Stance) : Prop :=
  fork.counts one.switches other.switches ∧ other.complaints = fork.complaints

/-- Places at which the same token is next. -/
def Beside (one : Place) (other : Stance) : Prop :=
  fork.Together one.rest other.rest ∧ fork.Counted one other

/-- Places behind the fork at which the input is used up. -/
def Ended (one : Place) (other : Stance) : Prop :=
  (fork.joins ∧ one.rest = [] ∧ other.rest = []) ∧ fork.Counted one other

/-- The places at the fork. -/
def Parted (one : Place) (other : Stance) : Prop :=
  (one.rest = fork.one ∧ other.rest = fork.other) ∧ fork.fits [] ∧ fork.Counted one other

/-- Places in front of the fork or behind it. -/
def Clear (one : Place) (other : Stance) : Prop := fork.Beside one other ∨ fork.Ended one other

/-- Places that belong together. -/
def Near (one : Place) (other : Stance) : Prop := fork.Clear one other ∨ fork.Parted one other

/-- Places that belong together behind a symbol; the fork is not there if it cannot be
behind the symbol. -/
def Behind (symbol : String) (one : Place) (other : Stance) : Prop :=
  fork.Near one other ∧
    ((∀ token, fork.fits [token] → token.spells symbol = false) → fork.Clear one other)

/-- What may stand in front of a statement of a list. -/
def listMarks : List Terminal := words ["\x7b", "\x7d", ";", ":"]

/-- Switches have the same numbers on both inputs. -/
def Numbered : Prop :=
  ∀ {count otherCount : Nat}, fork.counts count otherCount →
    count = otherCount ∧ fork.counts (count + 1) (otherCount + 1)

/-- The fork stands between the statements of a list, and switches have the same numbers on
both inputs. -/
structure Listed : Prop where
  marks : ∀ token, fork.fits [token] → Opens listMarks [token]
  numbers : fork.Numbered

/-- What stands in front of no statement of a list is not in front of the fork. -/
theorem Listed.unread {fork : Fork} (listed : fork.Listed) {symbol : String}
    (apart : allApart listMarks [.word symbol] = true) :
    ∀ token, fork.fits [token] → token.spells symbol = false := by
  intro token fits
  have unseen := (listed.marks token fits).anyAccepts_eq_false apart
  rwa [Terminal.anyAccepts, List.any_cons, List.any_nil, Bool.or_false,
    Terminal.accepts_word] at unseen

/-- A literal in front of the fork ends an initializer on both inputs or on none. -/
def Settled : Prop :=
  ∀ token, fork.fits [token] → token.isLiteral = true →
    Terminal.anyAccepts [.word ";"] fork.one.head? = Terminal.anyAccepts [.word ";"] fork.other.head?

/-- Between statements no literal is in front of the fork. -/
theorem Listed.settled {fork : Fork} (listed : fork.Listed) : fork.Settled := by
  intro token fits denotes
  have apart : allApart listMarks [.literal] = true := by decide
  have unread := (listed.marks token fits).anyAccepts_eq_false apart
  rw [Terminal.anyAccepts, List.any_cons, List.any_nil, Bool.or_false,
    Terminal.accepts_literal] at unread
  exact absurd (denotes.symm.trans unread) (by decide)

variable {fork} {bound : Nat} {one : Place} {other : Stance} {extent : Reading.Extent}

namespace Beside

theorem clear (beside : fork.Beside one other) : fork.Clear one other := .inl beside

theorem near (beside : fork.Beside one other) : fork.Near one other := .inl (.inl beside)

/-- The same token is next on both inputs. -/
theorem exists_cons (beside : fork.Beside one other) :
    ∃ token ahead otherAhead, one.rest = token :: ahead ∧ other.rest = token :: otherAhead := by
  obtain ⟨rest, count⟩ := one
  obtain ⟨⟨otherRest, otherCount⟩, complaints⟩ := other
  obtain ⟨together, _⟩ := beside
  cases together with
  | ahead => exact ⟨_, _, _, rfl, rfl⟩
  | behind => exact ⟨_, _, _, rfl, rfl⟩

theorem next?_eq (beside : fork.Beside one other) : one.next? = other.next? := by
  obtain ⟨token, ahead, otherAhead, rest, otherRest⟩ := beside.exists_cons
  rw [Place.next?, Place.next?, rest, otherRest]
  rfl

theorem sees_eq (beside : fork.Beside one other) (symbol : String) :
    one.sees symbol = other.sees symbol :=
  Place.sees_congr beside.next?_eq symbol

theorem seesIdentifier_eq (beside : fork.Beside one other) :
    one.seesIdentifier = other.seesIdentifier :=
  Place.seesIdentifier_congr beside.next?_eq

theorem exists_next (beside : fork.Beside one other) : ∃ token, one.next? = some token := by
  obtain ⟨token, ahead, _, rest, _⟩ := beside.exists_cons
  exact ⟨token, by rw [Place.next?, rest, List.head?_cons]⟩

/-- Behind the next token the inputs are clear, unless that token is in front of the fork. -/
theorem step_cases (beside : fork.Beside one other) (plain : fork.Plain bound) :
    fork.Clear one.tail other.tail ∨
      (∃ token, one.next? = some token ∧ fork.fits [token]) ∧
        fork.Parted one.tail other.tail := by
  obtain ⟨rest, count⟩ := one
  obtain ⟨⟨otherRest, otherCount⟩, complaints⟩ := other
  obtain ⟨together, counted⟩ := beside
  cases together with
  | @ahead token tokens fits =>
      cases tokens with
      | nil => exact .inr ⟨⟨token, rfl, fits⟩, ⟨rfl, rfl⟩, plain.tail fits, counted⟩
      | cons next tokens => exact .inl (.inl ⟨.ahead (plain.tail fits), counted⟩)
  | @behind token tokens joins =>
      cases tokens with
      | nil => exact .inl (.inr ⟨⟨joins, rfl, rfl⟩, counted⟩)
      | cons next tokens => exact .inl (.inl ⟨.behind joins, counted⟩)

/-- Behind the next token the inputs still belong together. -/
theorem step (beside : fork.Beside one other) (plain : fork.Plain bound) :
    fork.Near one.tail other.tail :=
  (beside.step_cases plain).imp id And.right

/-- Behind a token in front of which no fork is, nothing is forked either. -/
theorem stepClear (beside : fork.Beside one other) (plain : fork.Plain bound)
    (unfit : ∀ token, one.next? = some token → ¬fork.fits [token]) :
    fork.Clear one.tail other.tail := by
  rcases beside.step_cases plain with clear | ⟨⟨token, next, fits⟩, _⟩
  · exact clear
  · exact absurd fits (unfit token next)

/-- Behind a symbol the inputs still belong together. -/
theorem stepBehind (beside : fork.Beside one other) (plain : fork.Plain bound) {symbol : String}
    (seen : one.sees symbol = true) : fork.Behind symbol one.tail other.tail := by
  refine ⟨beside.step plain, fun unfit => beside.stepClear plain fun token next fits => ?_⟩
  rw [Place.sees, next] at seen
  exact nomatch seen.symm.trans (unfit token fits)

theorem length_tail (beside : fork.Beside one other) :
    one.tail.rest.length + 1 = one.rest.length ∧
      other.tail.rest.length + 1 = other.rest.length := by
  obtain ⟨token, ahead, otherAhead, rest, otherRest⟩ := beside.exists_cons
  have tail : one.tail.rest = ahead := congrArg List.tail rest
  have otherTail : other.tail.rest = otherAhead := congrArg List.tail otherRest
  rw [tail, otherTail, rest, otherRest]
  exact ⟨rfl, rfl⟩

/-- Behind the next token there are fewer tokens ahead. -/
theorem past (beside : fork.Beside one other) (plain : fork.Plain bound)
    (small : one.rest.length < extent.size) (otherSmall : other.rest.length < extent.otherSize) :
    extent.Past fork.Near one.tail other.tail := by
  obtain ⟨size, otherSize⟩ := beside.length_tail
  exact ⟨beside.step plain, size ▸ small, otherSize ▸ otherSmall⟩

theorem pastBehind (beside : fork.Beside one other) (plain : fork.Plain bound) {symbol : String}
    (seen : one.sees symbol = true) (small : one.rest.length < extent.size)
    (otherSmall : other.rest.length < extent.otherSize) :
    extent.Past (fork.Behind symbol) one.tail other.tail :=
  ⟨beside.stepBehind plain seen, (beside.past plain small otherSmall).2⟩

end Beside

namespace Clear

theorem near (clear : fork.Clear one other) : fork.Near one other := .inl clear

theorem next?_eq (clear : fork.Clear one other) : one.next? = other.next? := by
  rcases clear with beside | ⟨⟨_, ended, otherEnded⟩, _⟩
  · exact beside.next?_eq
  · rw [Place.next?, Place.next?, ended, otherEnded]

theorem sees_eq (clear : fork.Clear one other) (symbol : String) :
    one.sees symbol = other.sees symbol :=
  Place.sees_congr clear.next?_eq symbol

theorem seesAny_eq (clear : fork.Clear one other) (terminals : List Terminal) :
    one.seesAny terminals = other.seesAny terminals :=
  Place.seesAny_congr clear.next?_eq terminals

theorem seesIdentifier_eq (clear : fork.Clear one other) :
    one.seesIdentifier = other.seesIdentifier :=
  Place.seesIdentifier_congr clear.next?_eq

theorem isEmpty_eq (clear : fork.Clear one other) : one.rest.isEmpty = other.rest.isEmpty :=
  Place.isEmpty_congr clear.next?_eq

/-- Where the input is not used up the same is next. -/
theorem beside_of_isEmpty (clear : fork.Clear one other) (present : one.rest.isEmpty = false) :
    fork.Beside one other := by
  rcases clear with beside | ⟨⟨_, ended, _⟩, _⟩
  · exact beside
  · rw [ended] at present
    contradiction

/-- Where something is next the same is next. -/
theorem beside (clear : fork.Clear one other) {terminals : List Terminal}
    (unended : Terminal.anyAccepts terminals none = false)
    (seen : one.seesAny terminals = true) : fork.Beside one other := by
  rcases clear with beside | ⟨⟨_, ended, _⟩, _⟩
  · exact beside
  · rw [Place.seesAny, Place.next?, ended, List.head?_nil, unended] at seen
    contradiction

/-- Inputs that do not join stay in front of the fork. -/
theorem length_lt (clear : fork.Clear one other) (apart : ¬fork.joins) :
    fork.one.length < one.rest.length := by
  obtain ⟨rest, count⟩ := one
  obtain ⟨⟨otherRest, otherCount⟩, complaints⟩ := other
  rcases clear with ⟨together, _⟩ | ⟨⟨joins, _⟩, _⟩
  · cases together with
    | behind joins => exact absurd joins apart
    | @ahead token tokens fits =>
        rw [List.length_cons, List.length_append]
        exact Nat.lt_succ_of_le (Nat.le_add_left _ _)
  · exact absurd joins apart

end Clear

namespace Near

/-- What does not stand at a fork is next on both inputs. -/
theorem beside (near : fork.Near one other) (plain : fork.Plain bound) {terminals : List Terminal}
    (apart : allApart stops terminals = true) (unended : Terminal.anyAccepts terminals none = false)
    (seen : one.seesAny terminals = true) : fork.Beside one other := by
  rcases near with clear | ⟨⟨parted, _⟩, _⟩
  · exact clear.beside unended seen
  · rw [Place.seesAny, Place.next?, parted, plain.opens.anyAccepts_eq_false apart] at seen
    contradiction

theorem beside_of_sees (near : fork.Near one other) (plain : fork.Plain bound) {symbol : String}
    (apart : allApart stops [.word symbol] = true) (seen : one.sees symbol = true) :
    fork.Beside one other := by
  refine near.beside plain apart rfl ?_
  rwa [Place.seesAny_word]

theorem beside_of_seesIdentifier (near : fork.Near one other) (plain : fork.Plain bound)
    (seen : one.seesIdentifier = true) : fork.Beside one other := by
  have apart : allApart stops [.identifier] = true := by decide
  exact near.beside plain apart rfl ((Place.seesAny_identifier one).trans seen)

theorem counted (near : fork.Near one other) : fork.Counted one other := by
  rcases near with (beside | ended) | parted
  · exact beside.2
  · exact ended.2
  · exact parted.2.2

/-- Inputs that have joined belong together. -/
theorem of_same (joins : fork.joins) (same : one.rest = other.rest)
    (counted : fork.Counted one other) : fork.Near one other := by
  obtain ⟨rest, count⟩ := one
  obtain ⟨⟨otherRest, otherCount⟩, complaints⟩ := other
  obtain rfl : rest = otherRest := same
  cases rest with
  | nil => exact .inl (.inr ⟨⟨joins, rfl, rfl⟩, counted⟩)
  | cons token tokens => exact .inl (.inl ⟨.behind joins, counted⟩)

/-- Which tokens are ahead does not depend on the switches. -/
theorem recount (near : fork.Near one other) {count otherCount : Nat}
    (counted : fork.counts count otherCount) :
    fork.Near ⟨one.rest, count⟩ ⟨⟨other.rest, otherCount⟩, other.complaints⟩ := by
  have again : fork.Counted ⟨one.rest, count⟩ ⟨⟨other.rest, otherCount⟩, other.complaints⟩ :=
    ⟨counted, near.counted.2⟩
  exact near.imp (Or.imp (fun beside => ⟨beside.1, again⟩) fun ended => ⟨ended.1, again⟩)
    fun parted => ⟨parted.1, parted.2.1, again⟩

/-- What stands at the fork on neither input is seen on both inputs or on none. -/
theorem seesAny_eq {opening otherOpening terminals : List Terminal} (near : fork.Near one other)
    (opens : Opens opening fork.one) (otherOpens : Opens otherOpening fork.other)
    (apart : allApart opening terminals = true)
    (otherApart : allApart otherOpening terminals = true) :
    one.seesAny terminals = other.seesAny terminals := by
  rcases near with clear | ⟨⟨parted, otherParted⟩, _⟩
  · exact clear.seesAny_eq terminals
  · rw [Place.seesAny, Place.seesAny, Place.next?, Place.next?, parted, otherParted,
      opens.anyAccepts_eq_false apart, otherOpens.anyAccepts_eq_false otherApart]

/-- What stands at no fork is seen on both inputs or on none. -/
theorem sees_eq (near : fork.Near one other) (plain : fork.Plain bound) {symbol : String}
    (apart : allApart stops [.word symbol] = true)
    (otherApart : allApart otherStops [.word symbol] = true) :
    one.sees symbol = other.sees symbol := by
  rw [← Place.seesAny_word, ← Place.seesAny_word]
  exact near.seesAny_eq plain.opens plain.otherOpens apart otherApart

/-- What the first input has at the fork cannot be read there, unless it is one of the
terminals. -/
theorem beside_or_held {terminals : List Terminal} (near : fork.Near one other)
    (held : fork.one.length ≤ bound ∨ Opens terminals fork.one) {symbol : String}
    (apart : allApart terminals [.word symbol] = true) (seen : one.sees symbol = true) :
    fork.Beside one other ∨ one.rest.length ≤ bound := by
  rcases near with (beside | ⟨⟨_, ended, _⟩, _⟩) | ⟨⟨parted, _⟩, _⟩
  · exact .inl beside
  · rw [Place.sees, Place.next?, ended] at seen
    contradiction
  · rw [parted]
    refine .inr (held.resolve_right fun opens => ?_)
    rw [← Place.seesAny_word, Place.seesAny, Place.next?, parted,
      opens.anyAccepts_eq_false apart] at seen
    contradiction

/-- Under the fork itself nothing is left to be read, unless it is known what stands there. -/
theorem seesAny_eq_inside {opening otherOpening terminals : List Terminal}
    (near : fork.Near one other)
    (held : fork.one.length ≤ bound ∨ Opens opening fork.one ∧ Opens otherOpening fork.other)
    (apart : allApart opening terminals = true)
    (otherApart : allApart otherOpening terminals = true) :
    one.seesAny terminals = other.seesAny terminals ∨ one.rest.length < bound + 1 := by
  rcases held with held | ⟨opens, otherOpens⟩
  · rcases near with clear | ⟨⟨parted, _⟩, _⟩
    · exact .inl (clear.seesAny_eq terminals)
    · rw [parted]
      exact .inr (Nat.lt_succ_of_le held)
  · exact .inl (near.seesAny_eq opens otherOpens apart otherApart)

theorem sees_eq_inside {opening otherOpening : List Terminal} {symbol : String}
    (near : fork.Near one other)
    (held : fork.one.length ≤ bound ∨ Opens opening fork.one ∧ Opens otherOpening fork.other)
    (apart : allApart opening [.word symbol] = true)
    (otherApart : allApart otherOpening [.word symbol] = true) :
    one.sees symbol = other.sees symbol ∨ one.rest.length < bound + 1 := by
  rw [← Place.seesAny_word, ← Place.seesAny_word]
  exact near.seesAny_eq_inside held apart otherApart

end Near

/-- What stands at no fork is seen behind the next token of both inputs or of none. -/
theorem Beside.seesSecond_eq (beside : fork.Beside one other) (plain : fork.Plain bound)
    {symbol : String} (apart : allApart stops [.word symbol] = true)
    (otherApart : allApart otherStops [.word symbol] = true) :
    one.seesSecond symbol = other.seesSecond symbol :=
  (beside.step plain).sees_eq plain apart otherApart

/-- A literal ends an initializer on both inputs or on none. -/
theorem Beside.seesSecond_settled (beside : fork.Beside one other) (settled : fork.Settled)
    {token : Token} (next : one.next? = some token) (denotes : token.isLiteral = true) :
    one.seesSecond ";" = other.seesSecond ";" := by
  obtain ⟨rest, count⟩ := one
  obtain ⟨⟨otherRest, otherCount⟩, complaints⟩ := other
  obtain ⟨together, _⟩ := beside
  cases together with
  | @ahead head tokens fits =>
      obtain rfl : head = token := Option.some.inj next
      cases tokens with
      | nil =>
          have same := settled head fits denotes
          rwa [Terminal.anyAccepts, Terminal.anyAccepts, List.any_cons, List.any_nil, List.any_cons,
            List.any_nil, Bool.or_false, Bool.or_false, Terminal.accepts_word,
            Terminal.accepts_word] at same
      | cons second tokens => rfl
  | behind => rfl

namespace Behind

variable {symbol : String}

theorem near (behind : fork.Behind symbol one other) : fork.Near one other := behind.1

theorem clear (behind : fork.Behind symbol one other) (listed : fork.Listed)
    (apart : allApart listMarks [.word symbol] = true) :
    fork.Clear one other :=
  behind.2 (listed.unread apart)

end Behind

end Fork

namespace Reading

variable {α β : Type} {fork : Fork} {extent : Extent} {start : Place → Stance → Prop}

theorem skip_moves : Moves skip := .of_gives skip_gives

theorem log_moves (entry : TraceEntry) : Moves (log entry) := .of_gives (log_gives entry)

theorem getStuck_moves : Moves getStuck :=
  fun _ => ⟨List.suffix_refl _, List.prefix_rfl, Nat.le_refl _⟩

theorem complain_moves (complaint : Complaint) : Moves (complain complaint) :=
  .of_repairs (complain_repairs complaint)

/-- A step that leaves everything ahead as it is. -/
theorem stay_follows {reader : Reading Unit} (moves : Moves reader)
    (run : ∀ cursor, (reader.run cursor).2.stance = cursor.stance) :
    Follows extent start reader reader (Same fun _ => start) :=
  .move moves run fun _ _ starts _ _ => starts

theorem log_follows (entry : TraceEntry) :
    Follows extent start (log entry) (log entry) (Same fun _ => start) :=
  stay_follows (log_moves entry) fun _ => rfl

theorem countSwitch_follows (numbered : fork.Numbered) :
    Follows extent fork.Near countSwitch countSwitch (Same fun _ => fork.Near) := by
  have moves : Moves countSwitch := fun before =>
    ⟨List.suffix_refl _, List.prefix_rfl, Nat.le_succ _⟩
  refine ⟨moves, moves, ?_⟩
  intro before counterpart result answer after last near _ _ goes otherRuns _
  cases goes.run
  cases otherRuns.run
  obtain ⟨same, counted⟩ := numbered near.counted.1
  have same : before.switches = counterpart.switches := same
  exact ⟨congrArg (· + 1) same, near.recount counted⟩

/-- Where the first input has the symbol the second one has it too, and `after` holds behind
it, or the run is not considered. -/
def Shares (extent : Extent) (start after : Place → Stance → Prop) (symbol : String) : Prop :=
  ∀ place counterpart, start place counterpart → place.rest.length < extent.size →
    counterpart.rest.length < extent.otherSize → place.sees symbol = true →
      counterpart.sees symbol = true ∧ after place.tail counterpart.tail ∨
        place.rest.length ≤ extent.bound

theorem Shares.mono {after : Place → Stance → Prop} {symbol : String} {narrower : Extent}
    (shares : Shares extent start after symbol) (covers : extent.Covers narrower) :
    Shares narrower start after symbol :=
  fun _ _ starts small otherSmall seen =>
    (shares _ _ starts (Nat.lt_of_lt_of_le small covers.size)
      (Nat.lt_of_lt_of_le otherSmall covers.otherSize) seen).imp_right (Nat.le_trans · covers.bound)

theorem Shares.giving {after weaker : Place → Stance → Prop} {symbol : String}
    (shares : Shares extent start after symbol)
    (gives : ∀ place counterpart, after place counterpart → weaker place counterpart) :
    Shares extent start weaker symbol :=
  fun _ _ starts small otherSmall seen =>
    (shares _ _ starts small otherSmall seen).imp_left (And.imp_right (gives _ _))

/-- Where the first input lacks the symbol the second one lacks it too. -/
def Lacks (start : Place → Stance → Prop) (symbol : String) : Prop :=
  ∀ place counterpart, start place counterpart → place.sees symbol = false →
    counterpart.sees symbol = false

/-- A token is next on both inputs. -/
def Leads (fork : Fork) (start : Place → Stance → Prop) : Prop :=
  ∀ place counterpart, start place counterpart → fork.Beside place counterpart

section

variable (plain : fork.Plain extent.bound)

include plain

/-- A symbol that is read in front of the fork or behind it. -/
theorem held_shares {terminals : List Terminal} {symbol : String}
    (near : ∀ place counterpart, start place counterpart → fork.Near place counterpart)
    (held : fork.one.length ≤ extent.bound ∨ Opens terminals fork.one)
    (apart : allApart terminals [.word symbol] = true) :
    Shares extent start (extent.Past (fork.Behind symbol)) symbol := by
  intro place counterpart starts small otherSmall seen
  refine ((near _ _ starts).beside_or_held held apart seen).imp_left fun beside => ?_
  exact ⟨beside.sees_eq symbol ▸ seen, beside.pastBehind plain seen small otherSmall⟩

theorem near_shares {symbol : String}
    (apart : allApart (words ["for", ";"]) [.word symbol] = true) :
    Shares extent fork.Near (extent.Past (fork.Behind symbol)) symbol :=
  held_shares plain (fun _ _ => id) (plain.held.imp_right And.left) apart

/-- A symbol that may continue a phrase. -/
theorem near_lacks {symbol : String} (apart : allApart Fork.stops [.word symbol] = true)
    (otherApart : allApart Fork.otherStops [.word symbol] = true) : Lacks fork.Near symbol :=
  fun _ _ near unseen => (near.sees_eq plain apart otherApart).symm.trans unseen

theorem skip_follows (leads : Leads fork start) :
    Follows extent start skip skip (Same fun _ => extent.Past fork.Near) :=
  .move skip_moves (fun _ => rfl) fun _ _ starts small otherSmall =>
    (leads _ _ starts).past plain small otherSmall

/-- Reading a keyword that is next. -/
theorem keyword_follows (symbol : String) (leads : Leads fork start)
    (seen : ∀ place counterpart, start place counterpart → place.sees symbol = true) :
    Follows extent start (keyword symbol) (keyword symbol)
      (Same fun _ => extent.Past (fork.Behind symbol)) :=
  .andThen (.move skip_moves (fun _ => rfl) fun _ _ starts small otherSmall =>
    (leads _ _ starts).pastBehind plain (seen _ _ starts) small otherSmall) fun _ => log_follows _

end

/-- A symbol that only stands at the fork where the first input has a loop. -/
theorem firm_shares {symbol : String} (firm : fork.Firm extent.bound)
    (apart : allApart [.word "for"] [.word symbol] = true) :
    Shares extent fork.Near (extent.Past (fork.Behind symbol)) symbol :=
  held_shares firm.plain (fun _ _ => id) (firm.held.imp_right And.left) apart

theorem accept_run (symbol : String) (cursor : Cursor) :
    (accept symbol).run cursor =
      if cursor.place.sees symbol then (do skip; log (.symbol symbol); return true).run cursor
      else (false, cursor) := by
  cases seen : cursor.sees symbol with
  | true =>
      have known : cursor.place.sees symbol = true := seen
      rw [accept_run_of_sees seen, if_pos known]
  | false =>
      have known : cursor.place.sees symbol = false := seen
      rw [accept_run_of_not_sees seen, known]
      rfl

theorem accept_follows {symbol : String} {after : Place → Stance → Prop}
    (shares : Shares extent start after symbol) :
    Follows extent start (accept symbol) (accept symbol) fun read answer place counterpart =>
      (read = true → answer = true ∧ after place counterpart) ∧
        (read = false → Lacks start symbol →
          answer = false ∧ start place counterpart ∧ place.sees symbol = false) := by
  refine ⟨accept_moves symbol, accept_moves symbol, ?_⟩
  intro before counterpart read answer ended last starts small otherSmall goes otherRuns large
  have run := (accept_run symbol before).symm.trans goes.run
  have otherRun := (accept_run symbol counterpart).symm.trans otherRuns.run
  cases seen : before.place.sees symbol with
  | true =>
      rw [seen] at run
      cases run
      refine ⟨fun _ => ?_, nofun⟩
      rcases shares _ _ starts small otherSmall seen with ⟨otherSeen, behind⟩ | short
      · have otherSeen : counterpart.place.sees symbol = true := otherSeen
        rw [otherSeen] at otherRun
        cases otherRun
        exact ⟨rfl, behind⟩
      · obtain ⟨token, next, _⟩ := (Option.any_eq_true ..).mp seen
        obtain ⟨tail, rest⟩ := List.head?_eq_some_iff.mp next
        have rest : before.rest = token :: tail := rest
        have large : extent.bound ≤ before.rest.tail.length := large
        have short : before.rest.length ≤ extent.bound := short
        rw [rest, List.tail_cons] at large
        rw [rest, List.length_cons] at short
        omega
  | false =>
      rw [seen] at run
      cases run
      refine ⟨nofun, fun _ lacks => ?_⟩
      have unseen : counterpart.place.sees symbol = false := lacks _ _ starts seen
      rw [unseen] at otherRun
      cases otherRun
      exact ⟨rfl, starts, seen⟩

namespace Follows

variable {symbol : String} {after : Place → Stance → Prop}
  {yes no counterYes counterNo : Reading α} {final : α → α → Place → Stance → Prop}

/-- A symbol that decides how both runs go on. -/
theorem acceptBranch (shares : Shares extent start after symbol) (lacks : Lacks start symbol)
    (found : Follows extent after yes counterYes final)
    (missing : Follows extent
      (fun place counterpart => start place counterpart ∧ place.sees symbol = false) no counterNo
      final) :
    Follows extent start (do if ← accept symbol then yes else no)
      (do if ← accept symbol then counterYes else counterNo) final := by
  refine (accept_follows shares).bind fun read answer =>
    ⟨.ite found.moves missing.moves, .ite found.otherMoves missing.otherMoves, ?_⟩
  rintro before counterpart result reply ended last ⟨reads, misses⟩
  cases read with
  | true =>
      obtain ⟨rfl, places⟩ := reads rfl
      exact found.reaches places
  | false =>
      obtain ⟨rfl, places⟩ := misses rfl lacks
      exact missing.reaches places

theorem acceptUnless (shares : Shares extent start after symbol) (lacks : Lacks start symbol)
    (found : Follows extent after yes counterYes final)
    (missing : Follows extent
      (fun place counterpart => start place counterpart ∧ place.sees symbol = false) no counterNo
      final) :
    Follows extent start (do if !(← accept symbol) then no else yes)
      (do if !(← accept symbol) then counterNo else counterYes) final := by
  rw [unless_eq, unless_eq]
  exact acceptBranch shares lacks found missing

/-- A symbol without which the first run complains. -/
theorem acceptAble (shares : Shares extent start after symbol)
    (found : Follows extent after yes counterYes final)
    (fails : Fails no) (moves : Moves no) (otherMoves : Moves counterNo) :
    Follows extent start (do if ← accept symbol then yes else no)
      (do if ← accept symbol then counterYes else counterNo) final := by
  refine (accept_follows shares).bind fun read answer =>
    ⟨.ite found.moves moves, .ite found.otherMoves otherMoves, ?_⟩
  rintro before counterpart result reply ended last ⟨reads, _⟩
  cases read with
  | true =>
      obtain ⟨rfl, places⟩ := reads rfl
      exact found.reaches places
  | false => exact fun _ _ goes => absurd goes (fails _ _ _ trivial)

theorem acceptRequire (shares : Shares extent start after symbol)
    (found : Follows extent after yes counterYes final)
    (fails : Fails no) (moves : Moves no) (otherMoves : Moves counterNo) :
    Follows extent start (do if !(← accept symbol) then no else yes)
      (do if !(← accept symbol) then counterNo else counterYes) final := by
  rw [unless_eq, unless_eq]
  exact acceptAble shares found fails moves otherMoves

end Follows

/-- A symbol that must be next. -/
theorem demand_follows {symbol : String} {after : Place → Stance → Prop} {repair : Reading Unit}
    (shares : Shares extent start after symbol) (repairs : Repairs repair) :
    Follows extent start (demand symbol repair) (demand symbol repair) (Same fun _ => after) :=
  .acceptRequire shares (.pure fun _ _ => .intro rfl) (.of_repairs repairs) (.of_repairs repairs)
    (.of_repairs repairs)

theorem opens_of_sees {before : Cursor} {symbol : String} (seen : before.place.sees symbol = true) :
    Opens [.word symbol] before.rest :=
  (Place.seesAny_word before.place symbol).trans seen

/-! ## What is next -/

/-- Where the first input has one of the terminals, the same token is next on both, and
`beside` holds there. -/
def Opening (start beside : Place → Stance → Prop) (terminals : List Terminal) : Prop :=
  ∀ place counterpart, start place counterpart → place.seesAny terminals = true →
    place.next? = counterpart.next? ∧ beside place counterpart

theorem beside_opening {terminals : List Terminal}
    (leads : ∀ place counterpart, start place counterpart → place.seesAny terminals = true →
      fork.Beside place counterpart) :
    Opening start fork.Beside terminals :=
  fun _ _ starts seen => ⟨(leads _ _ starts seen).next?_eq, leads _ _ starts seen⟩

theorem clear_opening {terminals : List Terminal}
    (unended : Terminal.anyAccepts terminals none = false) :
    Opening fork.Clear fork.Beside terminals :=
  beside_opening fun _ _ clear seen => clear.beside unended seen

theorem near_opening {terminals : List Terminal} (plain : fork.Plain extent.bound)
    (apart : allApart Fork.stops terminals = true)
    (unended : Terminal.anyAccepts terminals none = false) :
    Opening fork.Near fork.Beside terminals :=
  beside_opening fun _ _ near seen => near.beside plain apart unended seen

namespace Follows

variable {beside : Place → Stance → Prop} {yes no counterYes counterNo : Reading β}
  {final : β → β → Place → Stance → Prop}

/-- The line of a token that is next on both inputs. -/
theorem line {next following : Nat → Reading β}
    (leads : ∀ place counterpart, start place counterpart → place.next? = counterpart.next?)
    (second : ∀ line, Follows extent start (next line) (following line) final) :
    Follows extent start (Reading.line >>= next) (Reading.line >>= following) final := by
  refine lookAlike (fun place => (place.next?.map Token.line).getD 0) (fun _ => rfl) ?_
    fun line => ?_
  · intro place counterpart starts
    exact .inl (by rw [leads _ _ starts])
  · exact (second line).starting fun _ _ starts => starts.1

/-- What opens on the first input is next on both, or the first run complains. -/
theorem requireAny {terminals : List Terminal} {question : Reading Bool}
    (opening : Opening start beside terminals)
    (run : ∀ cursor, question.run cursor = (cursor.place.seesAny terminals, cursor))
    (holds : Follows extent
      (fun place counterpart => beside place counterpart ∧ place.seesAny terminals = true)
      yes counterYes final)
    (fails : Fails no) (moves : Moves no) (otherMoves : Moves counterNo) :
    Follows extent start (do if ← question then yes else no)
      (do if ← question then counterYes else counterNo) final := by
  refine require (Place.seesAny · terminals) run ?_ (holds.starting fun _ _ starts =>
    ⟨(opening _ _ starts.1 starts.2).2, starts.2⟩) fails moves otherMoves
  intro place counterpart starts seen
  rwa [Place.seesAny, ← (opening _ _ starts seen).1]

theorem requireStart {nonterminal : Nonterminal}
    (opening : Opening start beside nonterminal.first)
    (holds : Follows extent
      (fun place counterpart => beside place counterpart ∧ place.seesStart nonterminal = true)
      yes counterYes final)
    (fails : Fails no) (moves : Moves no) (otherMoves : Moves counterNo) :
    Follows extent start (do if ← seesStart nonterminal then yes else no)
      (do if ← seesStart nonterminal then counterYes else counterNo) final :=
  requireAny opening (fun _ => rfl) holds fails moves otherMoves

end Follows

theorem recover_fails (nonterminal : Nonterminal) (complaint : Complaint) :
    Fails (recover nonterminal complaint) :=
  (Fails.of_repairs (abandon_repairs _ _)).bind (abandon_moves _ _) fun _ => looks fun _ => rfl

theorem recover_moves (nonterminal : Nonterminal) (complaint : Complaint) :
    Moves (recover nonterminal complaint) :=
  (abandon_moves _ _).bind fun _ => looks fun _ => rfl

namespace Follows

variable {beside : Place → Stance → Prop} {yes no counterYes counterNo : Reading β}
  {final : β → β → Place → Stance → Prop}

/-- The nonterminal can start, or the first run complains. -/
theorem expectBranch {nonterminal : Nonterminal} {complaint : Complaint}
    (opening : Opening start beside nonterminal.first)
    (holds : Follows extent
      (fun place counterpart => beside place counterpart ∧ place.seesStart nonterminal = true)
      yes counterYes final)
    (moves : Moves no) (otherMoves : Moves counterNo) :
    Follows extent start (do if ← expect nonterminal complaint then yes else no)
      (do if ← expect nonterminal complaint then counterYes else counterNo) final := by
  have expects : Follows extent start (expect nonterminal complaint)
      (expect nonterminal complaint) fun starts answer place counterpart =>
        (starts = true ∧ answer = true) ∧ beside place counterpart ∧
          place.seesStart nonterminal = true :=
    .requireAny opening (fun _ => rfl) (.pure fun _ _ starts => ⟨⟨rfl, rfl⟩, starts⟩)
      (recover_fails _ _) (recover_moves _ _) (recover_moves _ _)
  refine expects.bind fun starts answer => ⟨.ite holds.moves moves,
    .ite holds.otherMoves otherMoves, ?_⟩
  rintro before counterpart result reply after last ⟨⟨rfl, rfl⟩, places⟩
  exact holds.reaches places

theorem expectUnless {nonterminal : Nonterminal} {complaint : Complaint}
    (opening : Opening start beside nonterminal.first)
    (holds : Follows extent
      (fun place counterpart => beside place counterpart ∧ place.seesStart nonterminal = true)
      yes counterYes final)
    (moves : Moves no) (otherMoves : Moves counterNo) :
    Follows extent start (do if !(← expect nonterminal complaint) then no else yes)
      (do if !(← expect nonterminal complaint) then counterNo else counterYes) final := by
  rw [unless_eq, unless_eq]
  exact expectBranch opening holds moves otherMoves

end Follows

/-- The token that is next on both inputs. -/
theorem take_reaches {after : Place → Stance → Prop} (leads : Leads fork start)
    (arrives : ∀ place counterpart, start place counterpart → place.rest.length < extent.size →
      counterpart.rest.length < extent.otherSize → after place.tail counterpart.tail)
    (entry : Token → TraceEntry) :
    Follows extent start (take entry) (take entry) fun token? other? place counterpart =>
      (∃ token, token? = some token ∧ other? = some token) ∧ after place counterpart := by
  refine .lookAlike Place.next? (fun _ => rfl) (fun _ _ starts => .inl (leads _ _ starts).next?_eq)
    fun next? => ?_
  cases next? with
  | none =>
      refine .nowhere (getStuck_moves.bind fun _ => .pure _) (getStuck_moves.bind fun _ => .pure _) ?_
      rintro place counterpart ⟨starts, none⟩
      obtain ⟨token, next⟩ := (leads _ _ starts).exists_next
      exact nomatch next.symm.trans none
  | some token =>
      have skips : Follows extent
          (fun place counterpart => start place counterpart ∧ place.next? = some token) skip skip
          (Same fun _ => after) :=
        .move skip_moves (fun _ => rfl) fun _ _ starts => arrives _ _ starts.1
      refine skips.andThen fun _ => (log_follows _).andThen fun _ => .pure ?_
      exact fun _ _ arrived => ⟨⟨token, rfl, rfl⟩, arrived⟩

theorem take_follows (plain : fork.Plain extent.bound) (leads : Leads fork start)
    (entry : Token → TraceEntry) :
    Follows extent start (take entry) (take entry) fun token? other? place counterpart =>
      (∃ token, token? = some token ∧ other? = some token) ∧
        extent.Past fork.Near place counterpart :=
  take_reaches leads (fun _ _ starts small otherSmall =>
    (leads _ _ starts).past plain small otherSmall) entry

theorem identifier?_follows (plain : fork.Plain extent.bound) :
    Follows extent
      (fun place counterpart => fork.Near place counterpart ∧ place.seesIdentifier = true)
      identifier? identifier? fun name? other? place counterpart =>
        (∃ name, name? = some name ∧ other? = some name) ∧
          extent.Past fork.Near place counterpart := by
  have leads : Leads fork fun place counterpart =>
      fork.Near place counterpart ∧ place.seesIdentifier = true :=
    fun _ _ starts => starts.1.beside_of_seesIdentifier plain starts.2
  refine .ask Place.seesIdentifier (fun _ => rfl) ?_ ?_ ?_
  · intro place counterpart starts
    exact .inl (leads _ _ starts).seesIdentifier_eq
  · exact take_follows plain (fun _ _ starts => leads _ _ starts.1) _
  · refine .nowhere (.pure _) (.pure _) ?_
    rintro place counterpart ⟨⟨_, seen⟩, unseen⟩
    exact nomatch seen.symm.trans unseen

namespace Follows

variable {next following : Option Token → Reading β} {final : β → β → Place → Stance → Prop}

/-- Going on behind a token that was read. -/
theorem bindSome {one other : Reading (Option α)} {places : Place → Stance → Prop}
    {next following : Option α → Reading β}
    (first : Follows extent start one other fun value? answer? place counterpart =>
      (∃ value, value? = some value ∧ answer? = some value) ∧ places place counterpart)
    (second : ∀ value, Follows extent places (next (some value)) (following (some value)) final)
    (moves : Moves (next none)) (otherMoves : Moves (following none)) :
    Follows extent start (one >>= next) (other >>= following) final := by
  refine first.bind fun value? answer? => ⟨?_, ?_, ?_⟩
  · cases value? with
    | none => exact moves
    | some value => exact (second value).moves
  · cases answer? with
    | none => exact otherMoves
    | some answer => exact (second answer).otherMoves
  · rintro before counterpart result reply after last ⟨⟨value, rfl, rfl⟩, places⟩
    exact (second value).reaches places

/-- A name without which the first run complains. -/
theorem requireName (plain : fork.Plain extent.bound)
    (second : ∀ name, Follows extent (extent.Past fork.Near) (next (some name))
      (following (some name)) final)
    (fails : Fails (next none)) (moves : Moves (next none)) (otherMoves : Moves (following none)) :
    Follows extent fork.Near (identifier? >>= next) (identifier? >>= following) final := by
  have named := bindSome (identifier?_follows plain) second moves otherMoves
  refine ⟨named.moves, named.otherMoves, ?_⟩
  intro before counterpart result answer after last near small otherSmall goes
  cases seen : before.place.seesIdentifier with
  | true => exact named.reaches ⟨near, seen⟩ small otherSmall goes
  | false =>
      have look : identifier?.run before = (none, before) := by
        show StateT.run (if before.place.seesIdentifier = true then _ else _) before = _
        rw [seen]
        rfl
      exact absurd (goes.of_look look) (fails _ _ _ trivial)

end Follows

end Reading

end StackLang
