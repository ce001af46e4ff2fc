import StackLang.Proofs.Recovery.Constants
import StackLang.Proofs.Recovery.Gap

/-!
# Statements around a missing semicolon

The semicolon that is missing stands neither in parentheses nor behind a `return`.  So loop
headers and return statements are read in front of it or behind it, and every other
statement is read in step by the two runs.
-/

namespace StackLang

open Terminal (Opens allApart)
open Phrase (parentheses semicolons)

/-- What stands between symbols of which none is open in front of the missing semicolon stands
in front of it. -/
theorem Gap.enclosed_length {gap : Gap} {before after : Cursor} {counterpart : Stance}
    {brackets : Brackets} {calm : Category → Bool} {opening : String} {parts : List Phrase}
    (beside : gap.fork.Beside before.place counterpart)
    (closes : ∀ tokens, gap.fork.fits tokens → brackets.Closes opening tokens)
    (reads : before.Reads (.sequence (.word opening :: (parts ++ [.word brackets.closing]))) after)
    (respects : Phrase.Respects brackets calm)
    (told : Phrase.depthBehind brackets calm 0 (.sequence parts) = some 0) :
    gap.fork.one.length ≤ after.rest.length := by
  obtain ⟨read, consumed, derived⟩ := reads.derives
  obtain ⟨opener, inner, closer, rfl, opens, derived⟩ := derived.of_enclosed
  have level := derived.behindAll respects told 0
  have rest : before.rest = opener :: (inner ++ closer :: after.rest) := by
    simpa using consumed.rest
  obtain ⟨⟨otherRest, otherCount⟩, complaints⟩ := counterpart
  obtain ⟨together, _⟩ := beside
  rw [Cursor.place, rest] at together
  generalize whole : opener :: (inner ++ closer :: after.rest) = tokens at together
  cases together with
  | behind joins => exact joins.elim
  | ahead fits =>
      obtain ⟨rfl, same⟩ := List.cons_eq_cons.mp whole
      exact (closes _ fits).length_le opens level same.symm

namespace Reading

variable {α : Type} {gap : Gap} {extent : Extent}

/-- A run without a complaint that leaves at least `bound` tokens is one within a narrower
extent. -/
theorem Follows.within {start : Place → Stance → Prop} {one other : Reading α}
    {reached : α → α → Place → Stance → Prop} (bound : Nat)
    (leaves : ∀ {before counterpart : Cursor} {result : α} {after : Cursor},
      start before.place counterpart.stance → Goes one before result after →
        bound ≤ after.rest.length)
    (follows : Follows { extent with bound := max extent.bound bound } start one other reached) :
    Follows extent start one other reached :=
  ⟨follows.moves, follows.otherMoves, fun starts small otherSmall goes otherRuns large =>
    follows.reaches starts small otherSmall goes otherRuns (max_le large (leaves starts goes))⟩

/-- A return statement stands in front of the semicolon or behind it. -/
theorem giveBack_ahead :
    Follows extent
      (fun place counterpart => gap.fork.Beside place counterpart ∧ place.sees "return" = true)
      giveBack giveBack (Same fun _ => gap.fork.Near) := by
  refine .within gap.fork.one.length ?_
    (giveBack_follows (gap.fork_firm (Nat.le_max_right _ _)) fun _ fits => fits.2.unopened)
  intro before counterpart result after ⟨beside, seen⟩ goes
  obtain ⟨⟨tokens, consumed, derived⟩, _⟩ :=
    goes.given (giveBack_obeys before (List.Subset.refl _)) seen
  cases derived with
  | category derived =>
      have reads : before.Reads (.sequence (.word "return" ::
          ([.optional (.category .expression)] ++ [.word ";"]))) after :=
        ⟨tokens, consumed, derived⟩
      exact Gap.enclosed_length beside (fun _ => And.right) reads Phrase.respects_semicolons
        (by decide)

/-- A loop header stands in front of the semicolon or behind it. -/
theorem loopHeader_ahead :
    Follows extent gap.fork.Near loopHeader loopHeader (Related SameHeader gap.fork.Near) := by
  refine .within gap.fork.one.length ?_ ((loopHeader_follows (gap.fork_firm (Nat.le_max_right _ _))
    fun _ fits => fits.1.unopened).giving fun _ _ _ _ reached =>
      ⟨⟨reached.1.start, reached.1.rest⟩, reached.2.near⟩)
  intro before counterpart result after near goes
  obtain ⟨reads, _⟩ := goes.given (loopHeader_obeys before (List.Subset.refl _)) trivial
  have seen : before.place.sees "(" = true := by
    obtain ⟨tokens, consumed, derived⟩ := reads.derives
    obtain ⟨opener, inner, closer, rfl, opens, _⟩ := derived.of_enclosed
    rw [Place.sees, Place.next?, Cursor.place, consumed.rest]
    exact opens
  have beside := near.beside_of_sees (gap.fork_atStatement.plain 0) (by decide) seen
  exact Gap.enclosed_length beside (fun _ => And.left) reads Phrase.respects_parentheses (by decide)

/-! ## Statements -/

theorem gap_beside_steps : Steps gap.Beside gap.Near :=
  gap_steps fun _ atStatement _ _ beside =>
    ⟨beside.step (atStatement.plain 0), beside.length_tail⟩

theorem gap_near_shares {symbol : String}
    (apart : allApart (Nonterminal.words ["for", ";"]) [.word symbol] = true) :
    Shares extent gap.Near gap.Near symbol :=
  gap_shares fun _ atStatement =>
    (near_shares (atStatement.plain extent.bound) apart).giving fun _ _ past => past.1.near

theorem gap_giveBack :
    Follows extent
      (fun place counterpart => gap.Beside place counterpart ∧ place.sees "return" = true)
      giveBack giveBack (Same fun _ => gap.Near) := by
  have behind : Follows extent
      (fun place counterpart =>
        Fork.joined.Beside place counterpart ∧ place.sees "return" = true)
      giveBack giveBack (Related Eq Fork.joined.Near) :=
    giveBack_follows (Fork.joined_firm _) nofun
  have sides : Follows extent
      (gap.On fun fork place counterpart =>
        fork.Beside place counterpart ∧ place.sees "return" = true)
      giveBack giveBack (Related Eq gap.Near) :=
    gap_sides (giveBack_ahead.giving fun _ _ _ _ reached => ⟨reached.1, .inl reached.2⟩) behind
  exact sides.starting fun _ _ starts => starts.1.and starts.2

theorem gap_loopHeader :
    Follows extent gap.Near loopHeader loopHeader (Related SameHeader gap.Near) :=
  gap_sides (loopHeader_ahead.giving fun _ _ _ _ reached => ⟨reached.1, .inl reached.2⟩)
    ((loopHeader_follows (Fork.joined_firm _) nofun).giving fun _ _ _ _ reached =>
      ⟨⟨reached.1.start, reached.1.rest⟩, reached.2.near⟩)

/-- Statements of which it is known what is next. -/
theorem gap_ended {rel : α → α → Prop} {one other : Reading α} {known : Place → Prop}
    (follows : ∀ (fork : Fork) (near : Place → Stance → Prop), fork.AtStatement →
      (∀ complaint, Follows extent fork.Near (terminate complaint) (terminate complaint)
        (Same fun _ => near)) →
      Follows extent (fun place counterpart => fork.Beside place counterpart ∧ known place) one other
        (Related rel near)) :
    Follows extent (fun place counterpart => gap.Beside place counterpart ∧ known place) one other
      (Related rel gap.Near) :=
  (gap_ending follows).starting fun _ _ starts => starts.1.and starts.2

/-- Around a missing semicolon the two runs stay in lockstep. -/
theorem gap_lockstep : Lockstep extent gap.Beside gap.Near gap.Near Statement.Alike SameHeader := by
  have selectsApart : ∀ symbol ∈ ["case", "default"], allApart [.word ";"] [.word symbol] = true := by
    decide
  have readsApart : ∀ symbol ∈ ["\x7b", "\x7d", ":"],
      allApart (Nonterminal.words ["for", ";"]) [.word symbol] = true := by decide
  have declared {fork : Fork} (plain : fork.Plain extent.bound) : Follows extent
      (fun place counterpart => fork.Beside place counterpart ∧ place.seesStart .type = true)
      (do return ((← declaration).map Statement.declare).getD .skipped)
      (do return ((← declaration).map Statement.declare).getD .skipped)
      (Related Statement.Alike fork.Near) := by
    refine ((declaration_agrees plain).starting fun _ _ starts => starts.1).bindRelated
      (fun one => ⟨Declaration.Alike.rel_refl one, fun _ => rfl⟩) fun one other same =>
        .pure fun _ _ near => ⟨?_, near⟩
    cases same.1 with
    | none => exact .refl _
    | some alike => exact .declare alike
  exact {
    leads _ _ := Gap.Beside.next?_eq
    within _ _ := id
    opens _ _ near seen :=
      have beside := near.beside (by decide) rfl seen
      ⟨beside.next?_eq, beside⟩
    enters _ _ _ _ starts := gap_beside_steps _ _ starts.1
    braces _ _ starts := gap_beside_steps _ _ starts.1
    selects symbol listed place _ starts :=
      gap_beside_steps _ _ (starts.1.beside (selectsApart _ listed) rfl
        ((place.seesAny_word symbol).trans starts.2))
    agrees _ _ near := near.sees_or_clear.imp_right fun clear =>
      .inr fun terminals _ => clear.elim fun _ _ clear => clear.seesAny_eq terminals
    elses := gap_near_shares (by decide)
    unelse _ _ near unseen := near.elim fun _ atStatement near =>
      near_lacks (atStatement.plain extent.bound) (by decide) (by decide) _ _ near unseen
    reads symbol listed := gap_near_shares (readsApart _ listed)
    conditions form := gap_same fun _ atStatement _ =>
      (condition_follows (atStatement.plain _) form).giving fun _ _ _ _ reached =>
        ⟨reached.1, reached.2.near⟩
    repeats := gap_same fun _ atStatement _ => repeatKeyword_follows (atStatement.plain _)
    ends := gap_terminate
    headers := gap_loopHeader
    selectors := gap_same fun _ atStatement _ => selector_follows (atStatement.plain _)
    counts := gap_same fun _ _ numbered => countSwitch_follows numbered
    values := gap_same fun _ atStatement _ => caseValue_follows (atStatement.plain _)
    declares := gap_ended fun _ _ atStatement ends =>
      terminated_follows ends Statement.Alike _ (declared (atStatement.plain _)) .refl
    names := gap_ended fun _ _ atStatement ends => named_follows ends (atStatement.plain _)
    prints := gap_ending fun _ _ atStatement ends =>
      terminated_follows ends Eq _ (print_follows (atStatement.plain _)) fun _ => rfl
    asks := gap_ended fun _ _ atStatement ends =>
      terminated_follows ends Eq _ (read_follows (atStatement.plain _)) fun _ => rfl
    leaves := gap_ended fun _ _ atStatement ends => leave_follows ends (atStatement.plain _)
    returns := gap_giveBack
    evaluates := (gap_ending fun _ _ atStatement ends =>
      evaluation_follows ends (atStatement.plain _)).starting fun _ _ beside => beside.near }

/-! ## Lists of statements -/

/-- A run without a complaint on fewer than `size` tokens reads a statement. -/
def ReadsBelow (size : Nat) (statement : Reading Statement) : Prop :=
  ∀ before result after, before.rest.length < size → Goes statement before result after →
    before.Reads (.category .statement) after

namespace ReadsBelow

variable {size smaller : Nat} {statement : Reading Statement}

theorem mono (reads : ReadsBelow size statement) (le : smaller ≤ size) :
    ReadsBelow smaller statement :=
  fun _ _ _ small => reads _ _ _ (Nat.lt_of_lt_of_le small le)

theorem shortens (reads : ReadsBelow size statement) : ShortensBelow size statement :=
  fun _ _ _ small goes => (reads _ _ _ small goes).length_lt (by simp [Phrase.isSolid])

/-- No statement starts with a semicolon. -/
theorem unended (reads : ReadsBelow size statement) {before after : Cursor} {result : Statement}
    (small : before.rest.length < size) (goes : Goes statement before result after) :
    before.place.sees ";" = false := by
  obtain ⟨tokens, consumed, derived⟩ := (reads _ _ _ small goes).derives
  obtain ⟨token, others, rfl⟩ := List.exists_cons_of_ne_nil (derived.ne_nil (by decide))
  rw [← Place.seesAny_word, Place.seesAny, Place.next?, Cursor.place, consumed.rest]
  exact (derived.opens (List.cons_ne_nil _ _)).anyAccepts_eq_false (by decide)

end ReadsBelow

theorem statementFor_reads (depth : Nat) : ReadsBelow depth (statementFor depth) := by
  intro before result after small goes
  have given :=
    goes.given (statementFor_statementsBelow before.rest depth before (List.Subset.refl _))
  exact (given small).1

section

variable {statement otherStatement : Reading Statement}
  (follows : Follows extent gap.Beside statement otherStatement
    (Related Statement.Alike gap.Near))
  (reads : ReadsBelow extent.size statement)

include follows reads

theorem gap_nextStatement :
    Follows.Rounds extent gap.Near Statement.Alike (nextStatement statement)
      (nextStatement otherStatement) := by
  have clear : Follows.Round extent (gap.On Fork.Clear) (gap.On Fork.Clear) gap.Near
      Statement.Alike (nextStatement statement) (nextStatement otherStatement) :=
    nextStatement_round (fun _ _ clear => clear.elim fun _ _ clear => clear.next?_eq)
      (fun _ _ clear present => clear.imp fun _ _ clear => clear.beside_of_isEmpty present)
      (forced_follows follows reads.shortens fun beside _ _ => Gap.Near.shrinks beside)
  refine ⟨clear.moves, clear.otherMoves, ?_⟩
  intro before counterpart next? answer? after last near small otherSmall goes otherRuns large
  rcases near.sees_or_clear with seen | starts
  · have opens := opens_of_sees seen
    have goes := goes.of_look (asks_atEnd.run_of_apart opens (by decide))
    have goes := goes.of_look ((asks_seesAny _).run_of_apart opens (by decide))
    obtain ⟨_, _, goes, _⟩ := goes.of_forced follows.moves reads.shortens small
    exact nomatch seen.symm.trans (reads.unended small goes)
  · obtain ⟨related, places⟩ := clear.reaches starts small otherSmall goes otherRuns large
    refine ⟨related, ?_⟩
    cases next? with
    | none => exact places.imp fun _ _ clear => clear.near
    | some next => exact places

theorem gap_bodyOf :
    Follows extent gap.Near (bodyOf statement) (bodyOf otherStatement)
      (Related Statement.AllAlike gap.Near) := by
  refine .rule ((Follows.collect _ fun narrower covers =>
    gap_nextStatement (follows.mono covers) (reads.mono covers.size)).giving ?_)
  exact fun _ _ _ _ reached => ⟨Statement.alike_congruence.of_forall₂ reached.1, reached.2⟩

end

/-- Statements nested to any depths are read alike. -/
theorem gap_statementFor (depth otherDepth : Nat) (enough : extent.size ≤ depth)
    (otherEnough : extent.otherSize ≤ otherDepth) :
    Follows extent gap.Beside (statementFor depth) (statementFor otherDepth)
      (Related Statement.Alike gap.Near) := by
  refine .nested statementFor_moves statementFor_moves ?_ depth otherDepth enough otherEnough
  intro narrower depth otherDepth _ enough _ nested
  have bodies := gap_bodyOf (nested.mono narrower.behind.covers_inside)
    ((statementFor_reads depth).mono enough)
  exact gap_lockstep.statementOf Statement.alike_congruence bodies nested

theorem gap_body :
    Follows extent gap.Near body body (Related Statement.AllAlike gap.Near) := by
  have moves (size : Nat) : Moves (bodyOf (statementFor size)) :=
    bodyOf_moves (statementFor_moves size)
  refine Follows.sized moves moves fun narrower _ => ?_
  exact gap_bodyOf (gap_statementFor _ _ (Nat.le_refl _) (Nat.le_refl _)) (statementFor_reads _)

end Reading

end StackLang
