import StackLang.Proofs.Loops.Header

/-!
# Loop bodies

The body of a while loop that ends with the step of a header is the body of the loop with
that header and the step.  The two bodies are inputs with a fork: they are the same up to
the step, where the list of statements ends in the one and has one more statement in the
other.
-/

namespace StackLang

open Terminal (Opens)
open Token (delimiter delimiter_spells)

/-- A statement of a list may stand behind the tokens: they are the empty front of an input,
or they end with a token that stands in front of a statement of a list. -/
def BetweenStatements (front : List Token) : Prop :=
  ∀ token, front.getLast? = some token → Opens Fork.listMarks [token]

namespace BetweenStatements

theorem tail {token : Token} {tokens : List Token} (between : BetweenStatements (token :: tokens)) :
    BetweenStatements tokens := by
  intro last ended
  cases tokens with
  | nil => exact nomatch ended
  | cons next tokens => exact between last (List.getLast?_cons_cons.trans ended)

theorem nil : BetweenStatements [] := nofun

/-- A list of statements starts behind a brace or a colon. -/
theorem mark (outer : List Token) {token : Token} (opens : Opens Fork.listMarks [token]) :
    BetweenStatements (outer ++ [token]) := by
  intro last ended
  rw [List.getLast?_concat] at ended
  exact Option.some.inj ended ▸ opens

/-- Behind the first statements of a list another one may stand. -/
theorem append {front tokens : List Token} (between : BetweenStatements front)
    (derived : (Phrase.category .body).Derives tokens) : BetweenStatements (front ++ tokens) := by
  intro last ended
  rw [List.getLast?_append, Option.or_eq_some_iff] at ended
  rcases ended with inside | ⟨_, outside⟩
  · exact (derived.opens_getLast (by decide) last inside).mono (by decide)
  · exact between last outside

end BetweenStatements

/-- The fork at a place where a statement of a list may stand. -/
def Fork.between (one other : List Token) (joins : Prop) (complaints : Nat) : Fork where
  one := one
  other := other
  fits := BetweenStatements
  joins := joins
  counts := Eq
  complaints := complaints

namespace Fork

variable {one other : List Token} {joins : Prop} {complaints : Nat}

theorem between_listed : (between one other joins complaints).Listed := by
  refine ⟨fun token fits => fits token rfl, ?_⟩
  rintro count _ rfl
  exact ⟨rfl, rfl⟩

/-- Behind the same front the inputs belong together. -/
theorem between_near {front : List Token} (fits : BetweenStatements front) (count : Nat) :
    (between one other joins complaints).Near ⟨front ++ one, count⟩
      ⟨⟨front ++ other, count⟩, complaints⟩ := by
  cases front with
  | nil => exact .inr ⟨⟨rfl, rfl⟩, fits, rfl, rfl⟩
  | cons token tokens => exact .inl (.inl ⟨.ahead fits, rfl, rfl⟩)

/-- The fork in front of the brace behind a body. -/
def behindBody (step back : List Token) (complaints : Nat) : Fork :=
  .between (delimiter "\x7d" :: back) (asStatement step ++ delimiter "\x7d" :: back) False
    complaints

theorem behindBody_firm {step back : List Token} {complaints : Nat}
    (derived : Phrase.loopStep.Derives step) :
    (behindBody step back complaints).Firm (delimiter "\x7d" :: back).length := by
  refine ⟨BetweenStatements.tail, rfl, ?_, .inl (Nat.le_refl _)⟩
  cases derived with
  | absent => rfl
  | present derived =>
      have opens : Opens [.identifier] step := derived.opens (derived.ne_nil rfl)
      have other : (behindBody step back complaints).other =
          step ++ delimiter ";" :: delimiter "\x7d" :: back :=
        asStatement_append (derived.ne_nil rfl) _
      rw [other]
      exact (opens.append rfl _).mono (by decide)

end Fork

namespace Reading

/-- Where two loops over statements start at a fork which the first one leaves no tokens to
get past, they get nowhere. -/
theorem bridges_of_bound {fork : Fork} {extent : Extent}
    {statement otherStatement : Reading Statement}
    {final : List Statement → List Statement → Place → Stance → Prop} (moves : Moves statement)
    (otherMoves : Moves otherStatement)
    (beyond : fork.one.length < extent.bound ∨ extent.size ≤ fork.one.length) :
    Bridges fork extent statement otherStatement final := by
  intro narrower covers size otherSize _ _
  refine ⟨.collectFor (nextStatement_moves moves) _, .collectFor (nextStatement_moves otherMoves) _,
    ?_⟩
  rintro before counterpart found others after last ⟨⟨parted, _⟩, _⟩ small _ goes _ large
  have shorter := (goes.advances (.collectFor (nextStatement_moves moves) _)).length_le
  have parted : before.rest = fork.one := parted
  rw [parted] at small shorter
  have bound := covers.bound
  have size := covers.size
  omega

variable {depth otherDepth : Nat} {before counterpart after last going closed : Cursor}
  {tokens back step stepTail : List Token} {step? : Option Assignment}

/-- Bodies of which the second one ends with a step, up to the brace behind them. -/
def StepBehind (close : List Token) (step? : Option Assignment) (one other : List Statement)
    (place : Place) (counterpart : Stance) : Prop :=
  place.rest = close →
    Statement.desugaredAll other =
      Statement.desugaredAll one ++ step?.toList.map .assign ∧ counterpart.toPlace = place

theorem StepBehind.cons {close : List Token} {next answer : Statement}
    {rest others : List Statement} {place : Place} {counterpart : Stance}
    (same : SameStatement next answer)
    (behind : StepBehind close step? rest others place counterpart) :
    StepBehind close step? (next :: rest) (answer :: others) place counterpart := by
  intro ended
  obtain ⟨body, places⟩ := behind ended
  refine ⟨?_, places⟩
  rw [Statement.desugaredAll, Statement.desugaredAll, ← show _ = _ from same, body,
    List.append_assoc]

/-- Where the first body ends the second one reads the step. -/
theorem bridges_step {fork : Fork} {extent : Extent}
    (stepping : GoesBehind loopStep ")" going step? closed) (derived : Phrase.loopStep.Derives step)
    (stepRest : going.rest = step ++ delimiter ")" :: stepTail)
    (one : fork.one = delimiter "\x7d" :: back)
    (other : fork.other = asStatement step ++ delimiter "\x7d" :: back) (counts : fork.counts = Eq)
    (enough : extent.size ≤ depth) (otherEnough : extent.otherSize ≤ otherDepth)
    (silent : extent.silent) :
    Bridges fork extent (statementFor depth) (statementFor otherDepth)
      (StepBehind (delimiter "\x7d" :: back) step?) := by
  intro narrower covers size otherSize within otherWithin
  refine ⟨.collectFor (nextStatement_moves (statementFor_moves _)) _,
    .collectFor (nextStatement_moves (statementFor_moves _)) _, ?_⟩
  rintro before counterpart found others after last ⟨⟨parted, otherParted⟩, _, counted, _⟩ small
    otherSmall goes otherRuns _ _
  have otherGoes := otherRuns.goes (covers.silent silent)
  have lists : Lists depth before found after :=
    .of_goes goes small within (Nat.le_trans covers.size enough)
  have otherLists : Lists otherDepth counterpart others last :=
    .of_goes otherGoes otherSmall otherWithin (Nat.le_trans covers.otherSize otherEnough)
  have place : before.place = ⟨delimiter "\x7d" :: back, before.switches⟩ := by
    rw [Cursor.place, show before.rest = fork.one from parted, one]
  have counted : before.switches = counterpart.switches := by rwa [counts] at counted
  obtain ⟨rfl, rfl⟩ := lists.closed (by rw [place]; exact delimiter_spells _)
  cases otherDepth with
  | zero => exact absurd otherLists.1 (Nat.not_lt_zero _)
  | succ otherDepth =>
      obtain ⟨rfl, otherPlace⟩ :=
        otherLists.step stepping derived stepRest (Eq.trans otherParted other)
      refine ⟨?_, by rw [Cursor.stance, otherPlace, place, counted]⟩
      cases step? <;> simp [Statement.desugaredAll, Statement.desugared]

section

variable (stepping : GoesBehind loopStep ")" going step? closed)
  (derivedStep : Phrase.loopStep.Derives step)
  (stepRest : going.rest = step ++ delimiter ")" :: stepTail)
  (derived : (Phrase.category .body).Derives tokens)

include stepping derivedStep stepRest derived

/-- Two bodies, of which the first one has been read to its end. -/
theorem bodies_with_step {found others : List Statement} {count : Nat}
    (goes : Goes (bodyOf (statementFor depth)) before found after)
    (otherGoes : Goes (bodyOf (statementFor otherDepth)) counterpart others last)
    (place : before.place = ⟨tokens ++ delimiter "\x7d" :: back, count⟩)
    (otherPlace : counterpart.place =
      ⟨tokens ++ (asStatement step ++ delimiter "\x7d" :: back), count⟩)
    (small : before.rest.length < depth) (otherSmall : counterpart.rest.length < otherDepth) :
    StepBehind (delimiter "\x7d" :: back) step? found others after.place last.stance := by
  let fork := Fork.behindBody step back counterpart.errors.size
  let extent : Extent :=
    ⟨fork.one.length, before.rest.length + 1, counterpart.rest.length + 1, True⟩
  have alike : Alike fork extent (statementFor depth) (statementFor otherDepth) :=
    statementFor_alike (Fork.behindBody_firm derivedStep) Fork.between_listed
      (fun _ _ _ beyond _ _ _ =>
        bridges_of_bound (statementFor_moves _) (statementFor_moves _) (.inl beyond))
      _ _ (Nat.le_refl _) small otherSmall trivial
  have bridges : Bridges fork extent (statementFor depth) (statementFor otherDepth)
      (StepBehind (delimiter "\x7d" :: back) step?) :=
    bridges_step stepping derivedStep stepRest rfl rfl rfl small otherSmall trivial
  have ends (one : Place) (other : Stance) (clear : fork.Clear one other) :
      StepBehind (delimiter "\x7d" :: back) step? [] [] one other := by
    intro ended
    have further := clear.length_lt id
    rw [ended] at further
    exact absurd further (Nat.lt_irrefl _)
  have near : fork.Near before.place counterpart.stance := by
    rw [Cursor.stance, place, otherPlace]
    exact Fork.between_near (BetweenStatements.nil.append derived) _
  intro ended
  have long : extent.bound ≤ after.rest.length := by
    rw [show after.rest = _ from ended]
    exact Nat.le_refl _
  exact (bodyOf_follows alike bridges ends StepBehind.cons).reaches near (Nat.lt_succ_self _)
    (Nat.lt_succ_self _) goes (otherGoes.runs True) long ended

/-- The block behind a header, and the block with the step at its end. -/
theorem blocks_with_step {block otherBlock : Statement}
    (goes : Goes (blockOf (statementFor depth)) before block after)
    (otherGoes : Goes (blockOf (statementFor otherDepth)) counterpart otherBlock last)
    (rest : before.rest = delimiter "\x7b" :: (tokens ++ delimiter "\x7d" :: back))
    (otherRest : counterpart.rest =
      delimiter "\x7b" :: (tokens ++ (asStatement step ++ delimiter "\x7d" :: back)))
    (counted : before.switches = counterpart.switches) (small : before.rest.length ≤ depth)
    (otherSmall : counterpart.rest.length ≤ otherDepth) :
    otherBlock.desugared = block.desugared ++ step?.toList.map .assign ∧
      after.rest = back ∧ last.place = after.place := by
  obtain ⟨entered, body, entering, behind, rfl⟩ := goes.of_blockOf (by
    rw [Cursor.place, rest]
    exact delimiter_spells _)
  obtain ⟨otherEntered, otherBody, otherEntering, otherBehind, rfl⟩ := otherGoes.of_blockOf (by
    rw [Cursor.place, otherRest]
    exact delimiter_spells _)
  obtain ⟨otherMiddle, otherBodyGoes, _, otherLeft⟩ := otherBehind
  have place : entered.place = ⟨tokens ++ delimiter "\x7d" :: back, before.switches⟩ := by
    rw [entering, Place.tail, Cursor.place, rest]
    rfl
  have otherPlace : otherEntered.place =
      ⟨tokens ++ (asStatement step ++ delimiter "\x7d" :: back), before.switches⟩ := by
    rw [otherEntering, Place.tail, Cursor.place, otherRest, counted]
    rfl
  have within : entered.rest.length < depth := by
    refine Nat.lt_of_lt_of_le ?_ small
    rw [show entered.rest = _ from congrArg Place.rest place, rest]
    exact Nat.lt_succ_self _
  have otherWithin : otherEntered.rest.length < otherDepth := by
    refine Nat.lt_of_lt_of_le ?_ otherSmall
    rw [show otherEntered.rest = _ from congrArg Place.rest otherPlace, otherRest]
    exact Nat.lt_succ_self _
  have reads (middle : Cursor) (goes : Goes (bodyOf (statementFor depth)) entered body middle) :
      entered.Reads (.category .body) middle :=
    (goes.given (bodyOf_bodiesBelow (statementFor_statementsBelow entered.rest depth) entered
      (List.Subset.refl _)) within).1
  have behind : GoesBehind _ Phrase.braces.closing entered body after := behind
  obtain ⟨middle, bodyGoes, ended, left⟩ := behind.segment reads derived Phrase.respects_braces
    (by decide) (delimiter_spells _) (congrArg Place.rest place)
  obtain ⟨same, places⟩ := bodies_with_step stepping derivedStep stepRest derived bodyGoes
    otherBodyGoes place otherPlace within otherWithin ended
  have places : otherMiddle.place = middle.place := places
  refine ⟨?_, ?_, ?_⟩
  · rw [Statement.desugared, Statement.desugared, same]
  · rw [show after.rest = _ from congrArg Place.rest left, Place.tail, Cursor.place, ended]
    rfl
  · rw [otherLeft, left, places]

end

end Reading

end StackLang
