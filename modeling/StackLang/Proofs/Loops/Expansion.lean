import StackLang.Proofs.Layout.Compilation
import StackLang.Proofs.Loops.Body

/-!
# Loops with a header and while loops

A loop with a header can be written as a while loop: what the header does first stands in
front of it, and the step at the end of its body.  Wherever a statement of a list may stand,
a program with the one and the program with the other in its place are compiled to the
same, if both are without syntax errors.
-/

namespace StackLang

open Terminal (Opens)
open Token (delimiter)

/-- The tokens of the parts of a loop: what it does first, its condition, its step and its
body. -/
structure LoopParts where
  start : List Token
  condition : List Token
  step : List Token
  body : List Token

namespace LoopParts

variable (parts : LoopParts) (back : List Token)

/-- `for ( start ; condition ; step ) { body }`, in front of other tokens. -/
def headed : List Token :=
  .keyword "for" :: delimiter "(" :: (parts.start ++ delimiter ";" :: (parts.condition ++
    delimiter ";" :: (parts.step ++ delimiter ")" :: delimiter "\x7b" ::
      (parts.body ++ delimiter "\x7d" :: back))))

/-- `start ; while ( condition ) { body step ; }`, in front of other tokens and without the
semicolon of a part that is missing. -/
def expanded : List Token :=
  asStatement parts.start ++ .keyword "while" :: delimiter "(" :: (parts.condition ++
    delimiter ")" :: delimiter "\x7b" ::
      (parts.body ++ (asStatement parts.step ++ delimiter "\x7d" :: back)))

theorem length_headed : back.length < (parts.headed back).length := by
  simp only [headed, List.length_cons, List.length_append]
  omega

theorem length_expanded : back.length < (parts.expanded back).length := by
  simp only [expanded, List.length_cons, List.length_append]
  omega

end LoopParts

/-- A loop with a header and a condition: what it does first is a declaration or an assignment
or nothing, its step an assignment or nothing, and its body a list of statements. -/
structure HeadedLoop extends LoopParts where
  starts : Phrase.loopStart.Derives start
  asks : (Phrase.category .expression).Derives condition
  steps : Phrase.loopStep.Derives step
  repeats : (Phrase.category .body).Derives body

namespace HeadedLoop

variable (loop : HeadedLoop) (back : List Token)

/-- The expansion starts with a type, a name or the keyword of a while loop. -/
theorem opens_expanded : Opens Fork.loopStops (loop.expanded back) := by
  have starts := loop.starts
  rw [LoopParts.expanded]
  generalize loop.start = start at starts ⊢
  cases starts with
  | absent => rfl
  | present derived =>
      rw [asStatement_append (derived.ne_nil rfl)]
      exact ((derived.opens (derived.ne_nil rfl)).append rfl _).mono (by decide)

end HeadedLoop

namespace Reading

variable {loop : HeadedLoop} {depth otherDepth : Nat} {before counterpart after last : Cursor}
  {found others : List Statement} {back : List Token}

/-- A loop and its expansion are read as statements that are written out alike. -/
theorem Lists.headedLoop (lists : Lists (depth + 1) before found after)
    (otherLists : Lists (otherDepth + 1) counterpart others last)
    (rest : before.rest = loop.headed back) (otherRest : counterpart.rest = loop.expanded back)
    (counted : before.switches = counterpart.switches) :
    ∃ front otherFront remaining otherRemaining middle otherMiddle,
      found = front ++ remaining ∧ others = otherFront ++ otherRemaining ∧
        Statement.desugaredAll front = Statement.desugaredAll otherFront ∧
          middle.rest = back ∧ otherMiddle.place = middle.place ∧
            Lists (depth + 1) middle remaining after ∧
              Lists (otherDepth + 1) otherMiddle otherRemaining last := by
  have small := lists.1
  have otherSmall := otherLists.1
  have seen : before.place.sees "for" = true := by
    rw [Cursor.place, rest]
    exact Token.keyword_spells _
  obtain ⟨_, remaining, middle, rfl, goes, onward⟩ :=
    lists.next (opens_of_sees seen) (by decide) rfl
  obtain ⟨opened, start, asked, condition?, going, step?, closed, block, ended, opening, starting,
    asking, stepping, blockGoes, left, rfl⟩ := (goes.of_statementOf_for seen).of_forLoop
  have openedRest : opened.rest = before.rest.tail.tail := congrArg Place.rest opening
  rw [rest] at openedRest
  -- what the header does first
  obtain ⟨askedPlace, front, _, loops, rfl, sameStart, loopsPlace, otherLists⟩ :=
    otherLists.start starting loop.starts openedRest otherRest
  have otherSeen : loops.place.sees "while" = true := by
    rw [loopsPlace]
    exact Token.keyword_spells _
  obtain ⟨_, otherRemaining, otherMiddle, rfl, otherGoes, otherOnward⟩ :=
    otherLists.next (opens_of_sees otherSeen) (by decide) rfl
  obtain ⟨otherAsked, value, otherClosed, otherBlock, otherEnded, otherOpening, otherAsking,
    otherBlockGoes, otherLeft, rfl⟩ := (otherGoes.of_statementOf_while otherSeen).of_whileLoop
  rw [loopsPlace] at otherOpening
  -- the condition
  have askedRest : asked.rest = _ := congrArg Place.rest askedPlace
  have opens : Opens Nonterminal.expression.first asked.rest :=
    askedRest ▸ (loop.asks.opens (loop.asks.ne_nil rfl)).append rfl _
  obtain ⟨condition, testing, rfl⟩ := asking.of_unlessSees opens
  obtain ⟨rfl, goingPlace, otherClosedPlace⟩ :=
    foreseen_alike testing otherAsking loop.asks askedRest (congrArg Place.rest otherOpening) rfl
  -- the block with the step
  have goingRest : going.rest = _ := congrArg Place.rest goingPlace
  have closedPlace := stepping.step_place loop.steps goingRest
  have closedRest : closed.rest = _ := congrArg Place.rest closedPlace
  have otherClosedRest : otherClosed.rest = _ := congrArg Place.rest otherClosedPlace
  have sameCount : closed.switches = otherClosed.switches := by
    calc
      closed.switches = going.switches := congrArg Place.switches closedPlace
      _ = asked.switches := congrArg Place.switches goingPlace
      _ = opened.switches := congrArg Place.switches askedPlace
      _ = before.switches := congrArg Place.switches opening
      _ = counterpart.switches := counted
      _ = otherAsked.switches := (congrArg Place.switches otherOpening).symm
      _ = otherClosed.switches := (congrArg Place.switches otherClosedPlace).symm
  have within : closed.rest.length ≤ depth := by
    rw [rest, LoopParts.headed] at small
    rw [closedRest]
    simp only [List.length_cons, List.length_append] at small ⊢
    omega
  have otherWithin : otherClosed.rest.length ≤ otherDepth := by
    rw [otherRest, LoopParts.expanded] at otherSmall
    rw [otherClosedRest]
    simp only [List.length_cons, List.length_append] at otherSmall ⊢
    omega
  obtain ⟨sameBlock, backRest, sameEnd⟩ := blocks_with_step stepping loop.steps goingRest
    loop.repeats blockGoes otherBlockGoes closedRest otherClosedRest sameCount within otherWithin
  refine ⟨[.forLoop start (some condition) step? block],
    front ++ [.whileLoop condition otherBlock], remaining, otherRemaining, middle, otherMiddle, rfl,
    by rw [List.append_assoc, List.singleton_append], ?_, ?_, ?_, onward, otherOnward⟩
  · rw [Statement.desugaredAll_append, sameStart]
    simp only [Statement.desugaredAll, Statement.desugared, sameBlock, List.append_nil]
  · exact (congrArg Place.rest left).symm.trans backRest
  · rw [← otherLeft, sameEnd, left]

end Reading

/-! ## Programs -/

/-- Programs that are written out alike are compiled to the same. -/
theorem Compilation.assembly_eq_of_desugared {one other : List Token}
    (same : (Program.ofTokens one).program.desugared = (Program.ofTokens other).program.desugared) :
    (Compilation.ofTokens one).assembly = (Compilation.ofTokens other).assembly := by
  have lowered := congrArg Program.lower same
  have declared := congrArg (fun program => program.analyze.symbols) same
  rw [Program.lower_desugared, Program.lower_desugared] at lowered
  rw [Program.analyze_symbols_desugared, Program.analyze_symbols_desugared] at declared
  exact congrArg₂ Draft.assemble lowered declared

/-- Whether there are syntax errors does not depend on the lines of the tokens. -/
theorem Compilation.syntaxErrors_of_same_lexemes {one other : List Token}
    (alike : one.map Token.lexeme = other.map Token.lexeme)
    (clean : (ofTokens one).syntaxErrors = #[]) : (ofTokens other).syntaxErrors = #[] := by
  obtain ⟨_, _, _, errors, _⟩ := ofTokens_of_same_lexemes alike
  rw [clean, Array.map_empty] at errors
  exact Array.map_eq_empty_iff.mp errors.symm

namespace HeadedLoop

variable (loop : HeadedLoop) (back : List Token)

/-- The fork at the loop. -/
def fork : Fork := .between (loop.headed back) (loop.expanded back) True 0

theorem fork_atLoop : (loop.fork back).AtLoop :=
  ⟨Fork.between_listed, BetweenStatements.tail, rfl, loop.opens_expanded back⟩

/-- Behind the loop lists of statements are read alike: too few tokens are left to meet the loop
again. -/
theorem behind_follows {depth otherDepth size otherSize bound : Nat}
    (alike : Reading.Alike (loop.fork back) ⟨bound, back.length + 1, back.length + 1, True⟩
      (Reading.statementFor depth) (Reading.statementFor otherDepth))
    (enough : back.length < size) (otherEnough : back.length < otherSize) :
    Reading.Follows ⟨bound, back.length + 1, back.length + 1, True⟩ (loop.fork back).Near
      (Reading.collectFor (Reading.nextStatement (Reading.statementFor depth)) size)
      (Reading.collectFor (Reading.nextStatement (Reading.statementFor otherDepth)) otherSize)
      (Reading.Related Reading.SameStatements (loop.fork back).Near) := by
  have unmet : back.length + 1 ≤ (loop.fork back).one.length :=
    Nat.succ_le_of_lt (loop.length_headed back)
  exact Reading.statements_follow alike
    (Reading.bridges_of_bound (Reading.statementFor_moves depth)
      (Reading.statementFor_moves otherDepth) (.inr unmet)) (fun _ _ clear => ⟨rfl, clear.near⟩)
    (fun same rest => ⟨Reading.desugared_congruence.cons same rest.1, rest.2⟩) size otherSize
    enough otherEnough

/-- Lists of statements that start with the loop and with its expansion are written out
alike. -/
theorem fork_bridged : Reading.Bridged (loop.fork back) := by
  intro depth otherDepth extent enough otherEnough alike narrower covers size otherSize within
    otherWithin
  have moves (depth size : Nat) : Reading.Moves
      (Reading.collectFor (Reading.nextStatement (Reading.statementFor depth)) size) :=
    .collectFor (Reading.nextStatement_moves (Reading.statementFor_moves depth)) size
  refine ⟨moves _ _, moves _ _, ?_⟩
  rintro before counterpart found others after last ⟨⟨parted, otherParted⟩, _, counted, silent⟩
    small otherSmall goes otherRuns large
  have otherGoes := otherRuns.goes (covers.silent alike.silent)
  have parted : before.rest = loop.headed back := parted
  have otherParted : counterpart.rest = loop.expanded back := otherParted
  have lists : Reading.Lists depth before found after :=
    .of_goes goes small within (Nat.le_trans covers.size enough)
  have otherLists : Reading.Lists otherDepth counterpart others last :=
    .of_goes otherGoes otherSmall otherWithin (Nat.le_trans covers.otherSize otherEnough)
  cases depth with
  | zero => exact absurd lists.1 (Nat.not_lt_zero _)
  | succ depth =>
      cases otherDepth with
      | zero => exact absurd otherLists.1 (Nat.not_lt_zero _)
      | succ otherDepth =>
          obtain ⟨front, otherFront, remaining, otherRemaining, middle, otherMiddle, rfl, rfl, same,
            behind, joined, ⟨_, bound, long, onward⟩, ⟨_, otherBound, otherLong, otherOnward⟩⟩ :=
            lists.headedLoop otherLists parted otherParted counted
          have otherBehind : otherMiddle.rest = back := (congrArg Place.rest joined).trans behind
          have kept : otherMiddle.errors = counterpart.errors :=
            otherOnward.clean.symm.trans otherGoes.clean
          have near : (loop.fork back).Near middle.place otherMiddle.stance :=
            .of_same trivial (congrArg Place.rest joined).symm
              ⟨(congrArg Place.switches joined).symm, (congrArg Array.size kept).trans silent⟩
          rw [behind] at long
          rw [otherBehind] at otherLong
          rw [parted] at small
          rw [otherParted] at otherSmall
          -- behind the loop too few tokens are left to meet it again
          let rest : Reading.Extent := ⟨narrower.bound, back.length + 1, back.length + 1, True⟩
          have length := loop.length_headed back
          have otherLength := loop.length_expanded back
          have covered : extent.Covers rest := by
            refine ⟨covers.bound, Nat.le_trans ?_ covers.size, Nat.le_trans ?_ covers.otherSize,
              fun _ => trivial⟩
            · exact Nat.succ_le_of_lt (Nat.lt_trans length small)
            · exact Nat.succ_le_of_lt (Nat.lt_trans otherLength otherSmall)
          have follows := loop.behind_follows back (alike.mono covered) long otherLong
          obtain ⟨sameRest, near⟩ := follows.reaches near
            (by rw [behind]; exact Nat.lt_succ_self _)
            (by rw [otherBehind]; exact Nat.lt_succ_self _) onward (otherOnward.runs True) large
          refine ⟨?_, near⟩
          change Statement.desugaredAll _ = Statement.desugaredAll _
          rw [Statement.desugaredAll_append, Statement.desugaredAll_append, same, sameRest]

variable {back} {front : List Token}

/-- Without complaints the two programs are written out alike. -/
theorem desugared_eq (between : BetweenStatements front)
    (clean : (Program.ofTokens (front ++ loop.headed back)).errors = #[])
    (otherClean : (Program.ofTokens (front ++ loop.expanded back)).errors = #[]) :
    (Program.ofTokens (front ++ loop.headed back)).program.desugared =
      (Program.ofTokens (front ++ loop.expanded back)).program.desugared := by
  let before := Cursor.initial (front ++ loop.headed back)
  let counterpart := Cursor.initial (front ++ loop.expanded back)
  have goes : Reading.Goes Reading.wholeProgram before _ _ := ⟨rfl, clean⟩
  have otherGoes : Reading.Goes Reading.wholeProgram counterpart _ _ := ⟨rfl, otherClean⟩
  let extent : Reading.Extent := ⟨0, before.rest.length + 1, counterpart.rest.length + 1, True⟩
  have follows := @Reading.wholeProgram_desugared _ extent (loop.fork_atLoop back)
    (loop.fork_bridged back) trivial
  have near : (loop.fork back).Near before.place counterpart.stance := Fork.between_near between 0
  exact follows.reaches near (Nat.lt_succ_self _) (Nat.lt_succ_self _) goes (otherGoes.runs True)
    (Nat.zero_le _)

/-- A program with a loop that has a header and the program with the while loop in its place
have the same instructions, labels and declarations, whatever stands in front of the loop and
behind it. -/
theorem assembly_eq_expanded {one other : List Token} (between : BetweenStatements front)
    (headed : one.map Token.lexeme = (front ++ loop.headed back).map Token.lexeme)
    (expanded : other.map Token.lexeme = (front ++ loop.expanded back).map Token.lexeme)
    (clean : (Compilation.ofTokens one).syntaxErrors = #[])
    (otherClean : (Compilation.ofTokens other).syntaxErrors = #[]) :
    (Compilation.ofTokens one).assembly = (Compilation.ofTokens other).assembly := by
  have same := loop.desugared_eq between (Compilation.syntaxErrors_of_same_lexemes headed clean)
    (Compilation.syntaxErrors_of_same_lexemes expanded otherClean)
  calc
    (Compilation.ofTokens one).assembly
      = (Compilation.ofTokens (front ++ loop.headed back)).assembly :=
        (Compilation.ofTokens_of_same_lexemes headed).2.1
    _ = (Compilation.ofTokens (front ++ loop.expanded back)).assembly :=
        Compilation.assembly_eq_of_desugared same
    _ = (Compilation.ofTokens other).assembly :=
        (Compilation.ofTokens_of_same_lexemes expanded).2.1.symm

/-- A loop in a block, with a switch that is left by a break in its body. -/
theorem assembly_eq_expanded_switch :
    let parts : LoopParts :=
      ⟨tokenize "int i = 0", tokenize "i < 3", tokenize "i++",
        tokenize "switch (i) \x7b case 1: break; \x7d"⟩
    let front := tokenize "\x7b"
    let back := tokenize "\x7d"
    let one := tokenize
      "\x7b for (int i = 0; i < 3; i++) \x7b switch (i) \x7b case 1: break; \x7d \x7d \x7d"
    let other := tokenize
      "\x7b int i = 0; while (i < 3) \x7b switch (i) \x7b case 1: break; \x7d i++; \x7d \x7d"
    (∃ loop : HeadedLoop, loop.toLoopParts = parts) ∧ BetweenStatements front ∧
      one.map Token.lexeme = (front ++ parts.headed back).map Token.lexeme ∧
      other.map Token.lexeme = (front ++ parts.expanded back).map Token.lexeme ∧
      (Compilation.ofTokens one).syntaxErrors = #[] ∧
      (Compilation.ofTokens other).syntaxErrors = #[] ∧
      (Compilation.ofTokens one).assembly = (Compilation.ofTokens other).assembly := by
  intro parts front back one other
  have starts : Phrase.loopStart.Derives parts.start :=
    (Reading.loopStart_obeys _ (List.Subset.refl _)).derives trivial (by decide +kernel)
      (by decide +kernel)
  have asks : (Phrase.category .expression).Derives parts.condition :=
    (Reading.expression_obeys _ (List.Subset.refl _)).derives trivial (by decide +kernel)
      (by decide +kernel)
  have steps : Phrase.loopStep.Derives parts.step :=
    (Reading.loopStep_obeys _ (List.Subset.refl _)).derives trivial (by decide +kernel)
      (by decide +kernel)
  have repeats : (Phrase.category .body).Derives parts.body :=
    (Reading.body_obeys _ (List.Subset.refl _)).derives trivial (by decide +kernel)
      (by decide +kernel)
  have between : BetweenStatements front := by
    have ends : front = [] ++ [⟨"\x7b", .delimiter, 1⟩] := by decide +kernel
    rw [ends]
    exact .mark _ rfl
  have headed : one.map Token.lexeme = (front ++ parts.headed back).map Token.lexeme := by
    decide +kernel
  have expanded : other.map Token.lexeme = (front ++ parts.expanded back).map Token.lexeme := by
    decide +kernel
  have clean : (Compilation.ofTokens one).syntaxErrors = #[] := by decide +kernel
  have otherClean : (Compilation.ofTokens other).syntaxErrors = #[] := by decide +kernel
  clear_value parts front back one other
  let loop : HeadedLoop := ⟨parts, starts, asks, steps, repeats⟩
  exact ⟨⟨loop, rfl⟩, between, headed, expanded, clean, otherClean,
    assembly_eq_expanded loop between headed expanded clean otherClean⟩

end HeadedLoop

end StackLang
