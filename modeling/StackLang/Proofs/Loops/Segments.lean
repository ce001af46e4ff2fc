import StackLang.Proofs.Loops.Runs

/-!
# Segments

A segment is a part of the input that stands in front of one symbol in one place and in
front of another symbol in another.  Where the symbol is a closing one for the segment, a
run that stops in front of it has read all of the segment, and both runs read the same.
-/

namespace StackLang

open Terminal (Opens)

/-- The fork behind a segment that is not a list of statements. -/
def Fork.behindSegment (one other : List Token) (count otherCount complaints : Nat) : Fork where
  one := one
  other := other
  fits := fun _ => True
  joins := False
  counts := fun found answered => found = count ∧ answered = otherCount
  complaints := complaints

namespace Fork

variable {one other : List Token} {count otherCount complaints : Nat}

theorem behindSegment_plain (opens : Opens stops one) (otherOpens : Opens otherStops other) :
    (behindSegment one other count otherCount complaints).Plain one.length :=
  ⟨fun _ => trivial, opens, otherOpens, .inl (Nat.le_refl _)⟩

/-- Where the first run is at the end of the segment, so is the second one. -/
theorem behindSegment_parted {place : Place} {counterpart : Stance}
    (near : (behindSegment one other count otherCount complaints).Near place counterpart)
    (ended : place.rest = one) :
    place = ⟨one, count⟩ ∧ counterpart.toPlace = ⟨other, otherCount⟩ := by
  rcases near with clear | parted
  · have further := clear.length_lt id
    rw [ended] at further
    exact absurd further (Nat.lt_irrefl _)
  · obtain ⟨rest, found⟩ := place
    obtain ⟨⟨otherRest, answered⟩, made⟩ := counterpart
    obtain ⟨⟨rfl, rfl⟩, _, ⟨rfl, rfl⟩, _⟩ := parted
    exact ⟨rfl, rfl⟩

end Fork

namespace Reading

variable {α : Type} {reader : Reading α} {before after counterpart last : Cursor}
  {result answer : α}

/-- The end of a segment, as far as one run tells. -/
theorem GoesBehind.segment {phrase : Phrase} {brackets : Brackets} {calm : Category → Bool}
    {tokens tail : List Token} {close : Token}
    (goes : GoesBehind reader brackets.closing before result after)
    (reads : ∀ middle, Goes reader before result middle → before.Reads phrase middle)
    (derived : phrase.Derives tokens) (respects : Phrase.Respects brackets calm)
    (told : Phrase.depthBehind brackets calm 0 phrase = some 0)
    (closes : close.spells brackets.closing = true) (rest : before.rest = tokens ++ close :: tail) :
    ∃ middle, Goes reader before result middle ∧ middle.rest = close :: tail ∧
      after.place = middle.place.tail := by
  obtain ⟨middle, goes, seen, place⟩ := goes
  obtain ⟨read, consumed, readDerived⟩ := (reads middle goes).derives
  obtain ⟨other, otherTail, next, spelled⟩ := @exists_of_sees middle _ seen
  have level : brackets.Level tokens := derived.level respects told
  have readLevel : brackets.Level read := readDerived.level respects told
  have same : tokens ++ close :: tail = read ++ other :: otherTail := by
    rw [← rest, ← next, consumed.rest]
  obtain ⟨_, rfl, rfl⟩ := level.eq_of_closing readLevel closes spelled same
  exact ⟨middle, goes, next, place⟩

/-- Two runs that start with the same segment read the same and get behind it. -/
theorem GoesBehind.alike {phrase : Phrase} {brackets : Brackets} {calm : Category → Bool}
    {tokens tail otherTail : List Token} {close otherClose : Token} {symbol : String}
    (goes : GoesBehind reader brackets.closing before result after)
    (otherGoes : GoesBehind reader symbol counterpart answer last)
    (reads : ∀ middle, Goes reader before result middle → before.Reads phrase middle)
    (follows : ∀ fork : Fork, fork = .behindSegment (close :: tail) (otherClose :: otherTail)
        before.switches counterpart.switches counterpart.errors.size →
        ∀ extent : Extent, fork.Plain extent.bound →
      Follows extent (fun place counterpart => fork.Beside place counterpart ∧ place = before.place)
        reader reader (Same fun _ => fork.Near))
    (derived : phrase.Derives tokens) (respects : Phrase.Respects brackets calm)
    (told : Phrase.depthBehind brackets calm 0 phrase = some 0)
    (solid : phrase.isSolid = true)
    (closes : close.spells brackets.closing = true)
    (rest : before.rest = tokens ++ close :: tail)
    (otherRest : counterpart.rest = tokens ++ otherClose :: otherTail)
    (stops : Opens Fork.stops (close :: tail))
    (otherStops : Opens Fork.otherStops (otherClose :: otherTail)) :
    result = answer ∧ after.place = ⟨tail, before.switches⟩ ∧
      last.place = ⟨otherTail, counterpart.switches⟩ := by
  obtain ⟨middle, goes, ended, place⟩ := goes.segment reads derived respects told closes rest
  obtain ⟨otherMiddle, otherGoes, _, otherPlace⟩ := otherGoes
  let fork := Fork.behindSegment (close :: tail) (otherClose :: otherTail) before.switches
    counterpart.switches counterpart.errors.size
  have plain : fork.Plain (close :: tail).length := Fork.behindSegment_plain stops otherStops
  have beside : fork.Beside before.place counterpart.stance := by
    cases tokens with
    | nil => exact absurd rfl (derived.ne_nil solid)
    | cons token tokens =>
        refine ⟨?_, ⟨rfl, rfl⟩, rfl⟩
        have together : fork.Together (token :: (tokens ++ close :: tail))
            (token :: (tokens ++ otherClose :: otherTail)) := .ahead trivial
        change fork.Together before.rest counterpart.rest
        rw [rest, otherRest]
        exact together
  let extent : Extent :=
    ⟨(close :: tail).length, before.rest.length + 1, counterpart.rest.length + 1, True⟩
  obtain ⟨same, near⟩ := (follows fork rfl extent plain).reaches ⟨beside, rfl⟩
    (Nat.lt_succ_self _) (Nat.lt_succ_self _) goes (otherGoes.runs True) (by rw [ended])
  obtain ⟨middlePlace, otherMiddlePlace⟩ := Fork.behindSegment_parted near ended
  have otherMiddlePlace : otherMiddle.place = ⟨otherClose :: otherTail, counterpart.switches⟩ :=
    otherMiddlePlace
  rw [place, otherPlace, middlePlace, otherMiddlePlace]
  exact ⟨same, rfl, rfl⟩

end Reading

end StackLang
