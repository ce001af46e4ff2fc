import StackLang.Proofs.Fork.Statement

/-!
# Lists of statements at a fork

Two lists of statements are read in step until one of them meets the fork.  What happens
there is left open: `Bridges` says where the two loops over statements get to from the
fork, and from that follows where they get to from anywhere.
-/

namespace StackLang.Reading

open Terminal (allApart)

variable {α : Type} {fork : Fork} {extent : Extent} {statement otherStatement : Reading Statement}

/-- A run without a complaint on fewer than `size` tokens reads a token. -/
def ShortensBelow (size : Nat) (reader : Reading α) : Prop :=
  ∀ before result after, before.rest.length < size → Goes reader before result after →
    after.rest.length < before.rest.length

theorem ShortensBelow.mono {size smaller : Nat} {reader : Reading α}
    (shortens : ShortensBelow size reader) (le : smaller ≤ size) : ShortensBelow smaller reader :=
  fun _ _ _ small => shortens _ _ _ (Nat.lt_of_lt_of_le small le)

theorem statementFor_shortens (depth : Nat) : ShortensBelow depth (statementFor depth) := by
  intro before result after small goes
  have given :=
    goes.given (statementFor_statementsBelow before.rest depth before (List.Subset.refl _))
  exact (given small).1.length_lt (by simp [Phrase.isSolid])

/-! ## One more statement -/

/-- Read a statement, and step over a token if nothing was read. -/
def forced (statement : Reading Statement) : Reading (Option Statement) := do
  let before := (← get).rest.length
  let result ← statement
  skipUnlessBelow before
  return some result

theorem skipUnlessBelow_moves (size : Nat) : Moves (skipUnlessBelow size) :=
  .of_gives (skipUnlessBelow_gives size)

theorem forced_moves (moves : Moves statement) : Moves (forced statement) :=
  fun before => (moves.bind fun _ => (skipUnlessBelow_moves before.rest.length).bind fun _ =>
    .pure _) before

/-- Where a statement reads a token nothing is stepped over. -/
theorem Runs.of_forced {clean : Prop} {before after : Cursor} {result? : Option Statement}
    (runs : Runs clean (forced statement) before result? after) (moves : Moves statement) :
    ∃ result middle, Runs clean statement before result middle ∧
      (middle.rest.length < before.rest.length → result? = some result ∧ after = middle) := by
  have runs : Runs clean (do
      let result ← statement
      skipUnlessBelow before.rest.length
      return some result) before result? after := ⟨runs.run, runs.kept⟩
  obtain ⟨result, middle, front, back⟩ := runs.of_bind moves fun _ =>
    (skipUnlessBelow_moves _).bind fun _ => .pure _
  refine ⟨result, middle, front, fun shorter => ?_⟩
  have kept : (skipUnlessBelow before.rest.length).run middle = ((), middle) := by
    change StateT.run (if middle.rest.length = before.rest.length then skip else pure ()) middle = _
    rw [if_neg (Nat.ne_of_lt shorter)]
    rfl
  exact (back.of_look kept).of_pure

theorem Goes.of_forced {size : Nat} {before after : Cursor} {result? : Option Statement}
    (goes : Goes (forced statement) before result? after) (moves : Moves statement)
    (shortens : ShortensBelow size statement) (small : before.rest.length < size) :
    ∃ result, result? = some result ∧ Goes statement before result after ∧
      after.rest.length < before.rest.length := by
  obtain ⟨result, middle, front, kept⟩ := (goes.runs True).of_forced moves
  have shorter := shortens _ _ _ small (front.goes trivial)
  obtain ⟨rfl, rfl⟩ := kept shorter
  exact ⟨result, rfl, front.goes trivial, shorter⟩

/-- Statements that are read in step are read in step by a loop over statements, if the second
run reads a token where the first one does. -/
theorem forced_follows {beside near : Place → Stance → Prop}
    {rel : Statement → Statement → Prop}
    (follows : Follows extent beside statement otherStatement (Related rel near))
    (shortens : ShortensBelow extent.size statement)
    (shrinks : ∀ {before counterpart : Cursor} {answer : Statement} {after last : Cursor},
      beside before.place counterpart.stance → counterpart.rest.length < extent.otherSize →
        Runs extent.silent otherStatement counterpart answer last →
          near after.place last.stance → after.rest.length < before.rest.length →
            last.rest.length < counterpart.rest.length) :
    Follows extent beside (forced statement) (forced otherStatement)
      fun next? answer? place counterpart =>
        (next?.isSome = true ∧ Option.Rel rel next? answer?) ∧
          extent.Past near place counterpart := by
  refine ⟨forced_moves follows.moves, forced_moves follows.otherMoves, ?_⟩
  intro before counterpart next? answer? after last starts small otherSmall goes otherRuns large
  obtain ⟨next, rfl, goes, shorter⟩ := goes.of_forced follows.moves shortens small
  obtain ⟨answer, ended, otherRuns, kept⟩ := otherRuns.of_forced follows.otherMoves
  obtain ⟨related, arrived⟩ := follows.reaches starts small otherSmall goes otherRuns large
  have otherShorter := shrinks starts otherSmall otherRuns arrived shorter
  obtain ⟨rfl, rfl⟩ := kept otherShorter
  exact ⟨⟨rfl, .some related⟩, arrived, Nat.lt_of_le_of_lt shorter small,
    Nat.lt_of_le_of_lt otherShorter otherSmall⟩

/-- Two readers of statements that read the same in front of the fork, and read
something. -/
structure Alike (fork : Fork) (extent : Extent) (statement otherStatement : Reading Statement) :
    Prop where
  follows : Follows extent fork.Beside statement otherStatement (Related SameStatement fork.Near)
  shortens : ShortensBelow extent.size statement
  otherShortens : ShortensBelow extent.otherSize otherStatement
  silent : extent.silent

theorem Alike.mono (alike : Alike fork extent statement otherStatement) {narrower : Extent}
    (covers : extent.Covers narrower) : Alike fork narrower statement otherStatement :=
  ⟨alike.follows.mono covers, alike.shortens.mono covers.size,
    alike.otherShortens.mono covers.otherSize, covers.silent alike.silent⟩

/-- Two lists of statements go on, or end, where the same is next on both inputs. -/
theorem nextStatement_round {clear beside near : Place → Stance → Prop}
    {rel : Statement → Statement → Prop}
    (leads : ∀ place counterpart, clear place counterpart → place.next? = counterpart.next?)
    (present : ∀ place counterpart, clear place counterpart → place.rest.isEmpty = false →
      beside place counterpart)
    (follows : Follows extent beside (forced statement) (forced otherStatement)
      fun next? answer? place counterpart =>
        (next?.isSome = true ∧ Option.Rel rel next? answer?) ∧
          extent.Past near place counterpart) :
    Follows.Round extent clear clear near rel (nextStatement statement)
      (nextStatement otherStatement) := by
  refine .lookAlike (fun place => place.rest.isEmpty) (fun _ => rfl)
    (fun _ _ starts => .inl (Place.isEmpty_congr (leads _ _ starts))) fun ended => ?_
  refine .lookAlike (Place.seesAny · [.word "\x7d", .word "case", .word "default"]) (fun _ => rfl)
    (fun _ _ starts => .inl (Place.seesAny_congr (leads _ _ starts.1) _)) fun ends => ?_
  cases ended with
  | true => exact .pure fun _ _ starts => ⟨.none, starts.1.1⟩
  | false =>
      refine .ite (.pure fun _ _ starts => ⟨.none, starts.1.1⟩) ?_
      exact Follows.Round.goesOn (follows.starting fun _ _ starts => present _ _ starts.1.1 starts.1.2)

theorem nextStatement_follows (alike : Alike fork extent statement otherStatement) :
    Follows.Round extent fork.Clear fork.Clear fork.Near SameStatement (nextStatement statement)
      (nextStatement otherStatement) :=
  nextStatement_round (fun _ _ clear => clear.next?_eq) (fun _ _ clear => clear.beside_of_isEmpty)
    (forced_follows alike.follows alike.shortens fun _ small runs _ _ =>
      alike.otherShortens _ _ _ small (runs.goes alike.silent))

/-! ## Lists of statements -/

/-- Where two loops over statements get to from the fork. -/
def Bridges (fork : Fork) (extent : Extent) (statement otherStatement : Reading Statement)
    (final : List Statement → List Statement → Place → Stance → Prop) : Prop :=
  ∀ narrower, extent.Covers narrower → ∀ size otherSize, narrower.size ≤ size →
    narrower.otherSize ≤ otherSize → Follows narrower fork.Parted
      (collectFor (nextStatement statement) size) (collectFor (nextStatement otherStatement) otherSize)
      final

theorem Bridges.mono {final : List Statement → List Statement → Place → Stance → Prop}
    (bridges : Bridges fork extent statement otherStatement final) {narrower : Extent}
    (covers : extent.Covers narrower) : Bridges fork narrower statement otherStatement final :=
  fun narrow within => bridges narrow (covers.trans within)

theorem nextStatement_moves (moves : Moves statement) : Moves (nextStatement statement) := by
  refine (looks fun _ => rfl).bind fun ended => (looks fun _ => rfl).bind fun ends => ?_
  exact .ite (.pure _) (forced_moves moves)

theorem bodyOf_moves (moves : Moves statement) : Moves (bodyOf statement) :=
  .rule fun before =>
    Moves.collectFor (nextStatement_moves moves) (before.rest.length + 1) before

/-- Where two loops over statements get to: they end in front of the fork or behind it, or
one of them meets the fork. -/
theorem statements_follow {final : List Statement → List Statement → Place → Stance → Prop}
    (alike : Alike fork extent statement otherStatement)
    (bridges : Bridges fork extent statement otherStatement final)
    (ends : ∀ place counterpart, fork.Clear place counterpart → final [] [] place counterpart)
    (goesOn : ∀ {next answer rest others place counterpart}, SameStatement next answer →
      final rest others place counterpart →
        final (next :: rest) (answer :: others) place counterpart)
    (size otherSize : Nat) (enough : extent.size ≤ size) (otherEnough : extent.otherSize ≤ otherSize) :
    Follows extent fork.Near (collectFor (nextStatement statement) size)
      (collectFor (nextStatement otherStatement) otherSize) final := by
  have moves : Moves (nextStatement statement) := nextStatement_moves alike.follows.moves
  have otherMoves : Moves (nextStatement otherStatement) :=
    nextStatement_moves alike.follows.otherMoves
  refine .nested (.collectFor moves) (.collectFor otherMoves) ?_ size otherSize enough otherEnough
  intro narrower size otherSize covers enough otherEnough later
  have alike := alike.mono covers
  refine .or ?_ (bridges narrower covers _ _ (Nat.le_add_of_sub_le enough)
    (Nat.le_add_of_sub_le otherEnough))
  refine Follows.Round.bind (nextStatement_follows alike) (.pure ends) ?_
    (fun _ => (Moves.collectFor moves _).bind fun _ => .pure _)
    (fun _ => (Moves.collectFor otherMoves _).bind fun _ => .pure _)
  intro next answer same
  exact later.bind fun _ _ => .pure fun _ _ => goesOn same

/-- Where two lists of statements get to, from what is known of the loops over them. -/
theorem bodyOf_follows {final : List Statement → List Statement → Place → Stance → Prop}
    (alike : Alike fork extent statement otherStatement)
    (bridges : Bridges fork extent statement otherStatement final)
    (ends : ∀ place counterpart, fork.Clear place counterpart → final [] [] place counterpart)
    (goesOn : ∀ {next answer rest others place counterpart}, SameStatement next answer →
      final rest others place counterpart →
        final (next :: rest) (answer :: others) place counterpart) :
    Follows extent fork.Near (bodyOf statement) (bodyOf otherStatement) final := by
  have moves : Moves (nextStatement statement) := nextStatement_moves alike.follows.moves
  have otherMoves : Moves (nextStatement otherStatement) :=
    nextStatement_moves alike.follows.otherMoves
  refine .rule (.sized (fun _ => .collectFor moves _) (fun _ => .collectFor otherMoves _)
    fun narrower covers => ?_)
  exact statements_follow (alike.mono covers) (bridges.mono covers) ends goesOn _ _
    (Nat.le_refl _) (Nat.le_refl _)

/-- Two lists of statements are written out alike if they are where one meets the fork. -/
theorem bodyOf_desugared (alike : Alike fork extent statement otherStatement)
    (bridges : Bridges fork extent statement otherStatement (Related SameStatements fork.Near)) :
    Follows extent fork.Near (bodyOf statement) (bodyOf otherStatement)
      (Related SameStatements fork.Near) :=
  bodyOf_follows alike bridges (fun _ _ clear => ⟨rfl, clear.near⟩)
    fun same rest => ⟨desugared_congruence.cons same rest.1, rest.2⟩

/-- One more statement around the nested ones. -/
theorem statementOf_desugared (firm : fork.Firm extent.bound) (listed : fork.Listed)
    (alike : Alike fork extent.behind statement otherStatement)
    (bridges : Bridges fork extent.behind.inside statement otherStatement
      (Related SameStatements fork.Near)) :
    Follows extent fork.Beside (statementOf statement) (statementOf otherStatement)
      (Related SameStatement fork.Near) :=
  (firm_lockstep firm listed).statementOf desugared_congruence
    (bodyOf_desugared (alike.mono extent.behind.covers_inside) bridges) alike.follows

theorem statementFor_moves (depth : Nat) : Moves (statementFor depth) := fun before =>
  (statementFor_statementsBelow before.rest depth before (List.Subset.refl _)).advances

/-- Statements nested to any depths are read alike. -/
theorem statementFor_alike {bound : Nat} (firm : fork.Firm bound) (listed : fork.Listed)
    (bridges : ∀ depth otherDepth (extent : Extent), bound + 1 ≤ extent.bound →
      extent.size ≤ depth → extent.otherSize ≤ otherDepth →
        Alike fork extent (statementFor depth) (statementFor otherDepth) →
          Bridges fork extent (statementFor depth) (statementFor otherDepth)
            (Related SameStatements fork.Near))
    (depth otherDepth : Nat) (within : bound ≤ extent.bound) (enough : extent.size ≤ depth)
    (otherEnough : extent.otherSize ≤ otherDepth) (silent : extent.silent) :
    Alike fork extent (statementFor depth) (statementFor otherDepth) := by
  have alike {extent : Extent} {depth otherDepth : Nat} (silent : extent.silent)
      (enough : extent.size ≤ depth) (otherEnough : extent.otherSize ≤ otherDepth)
      (follows : Follows extent fork.Beside (statementFor depth) (statementFor otherDepth)
        (Related SameStatement fork.Near)) :
      Alike fork extent (statementFor depth) (statementFor otherDepth) :=
    ⟨follows, (statementFor_shortens depth).mono enough,
      (statementFor_shortens otherDepth).mono otherEnough, silent⟩
  refine alike silent enough otherEnough ?_
  refine .nested statementFor_moves statementFor_moves ?_ depth otherDepth enough otherEnough
  intro narrower depth otherDepth covers enough otherEnough follows
  have within : bound ≤ narrower.bound := Nat.le_trans within covers.bound
  have nested : Alike fork narrower.behind (statementFor depth) (statementFor otherDepth) :=
    alike (covers.silent silent) enough otherEnough follows
  refine statementOf_desugared (firm.mono within) listed nested ?_
  exact bridges _ _ _ (Nat.succ_le_succ within) enough otherEnough
    (nested.mono narrower.behind.covers_inside)

end StackLang.Reading
