import StackLang.Proofs.Fork.Lockstep
import StackLang.Proofs.Loops.Desugaring

/-!
# Statements at a fork

Two runs of the reader of statements read what is the same with its loops written out,
provided that they do so where a list of statements meets the fork.  The fork stands
between the statements of a list, so every other reader of statements starts in front of
it or behind it.
-/

namespace StackLang.Reading

open Terminal (allApart)

variable {α β : Type} {fork : Fork} {extent : Extent}

/-! ## Conditions and loop headers -/

/-- A symbol cannot be read where another one is next. -/
theorem demand_fails {symbol other : String} {repair : Reading Unit} (repairs : Repairs repair)
    (distinct : symbol ≠ other) :
    FailsFrom (fun place => place.sees other = true) (demand symbol repair) := by
  intro before result after seen goes
  have reads := goes.given (demand_gives repairs symbol before)
  obtain ⟨token, rest, spelled⟩ := reads.terminal_rest
  obtain ⟨next, found, named⟩ := (Option.any_eq_true ..).mp seen
  have same : some token = some next := by
    rw [← found]
    exact (congrArg List.head? rest).symm
  cases same
  exact distinct ((value_of_spells spelled).symm.trans (value_of_spells named))

/-- Where the first input has a loop, no header closes. -/
theorem closeHeader_fails (complaint : Complaint) :
    FailsFrom (fun place => place.sees "for" = true) (closeHeader complaint) :=
  demand_fails (abandon_accept_repairs _ _ _) (by decide)

section

variable (plain : fork.Plain extent.bound)

include plain

theorem demandForeseen_tracks {repair : Reading Unit} (repairs : Repairs repair) :
    Tracks fork extent (demandForeseen repair) (demandForeseen repair) := by
  have fails : Fails (do repair; return Foreseen.missing) :=
    (Fails.of_repairs repairs).bind (.of_repairs repairs) fun _ => .pure _
  have moves : Moves (do repair; return Foreseen.missing) :=
    (Moves.of_repairs repairs).bind fun _ => .pure _
  refine .requireStart (near_opening plain (by decide) rfl) ?_ fails moves moves
  exact (foreseen_tracks plain).starting fun _ _ starts => starts.1.near

theorem closeHeader_follows (complaint : Complaint) :
    Follows extent fork.Near (closeHeader complaint) (closeHeader complaint)
      (Same fun _ => extent.Past (fork.Behind ")")) :=
  demand_follows (near_shares plain (by decide)) (abandon_accept_repairs _ _ _)

theorem condition_follows (form : ConditionForm) :
    Follows extent fork.Near (condition form) (condition form) (Same fun _ => fork.Behind ")") := by
  refine (demand_follows (near_shares plain (by decide)) (complain_repairs _)).andThen
    fun _ => ?_
  refine ((demandForeseen_tracks plain (abandon_repairs _ _)).starting fun _ _ past =>
    past.1.near).andThen fun value => ?_
  refine (demand_follows (near_shares plain (by decide))
    (abandon_accept_repairs _ _ _)).andThen fun _ => .pure ?_
  exact fun _ _ past => ⟨rfl, past.1⟩

theorem repeatKeyword_follows :
    Follows extent fork.Near repeatKeyword repeatKeyword (Same fun _ => fork.Near) := by
  have fails : Fails (do
      abandon .doWhileKeyword fun next =>
        (Terminal.word "(").accepts next || Nonterminal.doWhile.endsBefore next
      sees "(") :=
    (Fails.of_repairs (abandon_repairs _ _)).bind (abandon_moves _ _) fun _ => looks fun _ => rfl
  have moves := (abandon_moves .doWhileKeyword fun next =>
    (Terminal.word "(").accepts next || Nonterminal.doWhile.endsBefore next).bind fun _ =>
      (looks fun _ => rfl : Moves (sees "("))
  exact .acceptAble (near_shares plain (by decide))
    (.pure fun _ _ past => ⟨rfl, past.1.near⟩) fails moves moves

end

/-- Headers that differ at most in the constant of a declaration. -/
structure LoopHeader.Alike (fork : Fork) (one other : LoopHeader) : Prop where
  start : one.1.Alike other.1
  settled : fork.Settled → one.1 = other.1
  rest : one.2 = other.2

section

variable (firm : fork.Firm extent.bound)

include firm

theorem headerSeparator_follows (complaint : Complaint) :
    Follows extent fork.Near (headerSeparator complaint) (headerSeparator complaint)
      (Same fun _ => fork.Near) :=
  (demand_follows (firm_shares firm (by decide)) (abandon_accept_repairs _ _ _)).giving
    fun _ _ _ _ reached => ⟨reached.1, reached.2.1.near⟩

theorem loopStart_follows :
    Follows extent fork.Clear loopStart loopStart fun one other place counterpart =>
      (one.Alike other ∧ (fork.Settled → one = other)) ∧ fork.Near place counterpart := by
  refine .ask (Place.seesStart · .type) (fun _ => rfl)
    (fun _ _ clear => .inl (clear.seesAny_eq _)) ?_ ?_
  · have declared := (declaration_agrees firm.plain).starting fun place counterpart
      (starts : fork.Clear place counterpart ∧ place.seesStart .type = true) =>
        starts.1.beside rfl starts.2
    refine declared.bindRelated (fun one => ⟨Declaration.Alike.rel_refl one, fun _ => rfl⟩)
      fun one other same => .pure fun _ _ near => ⟨⟨?_, fun settled => ?_⟩, near⟩
    · cases same.1 with
      | none => exact .same _
      | some alike => exact .declare alike
    · rw [same.2 settled]
  refine .ask Place.seesIdentifier (fun _ => rfl)
    (fun _ _ starts => .inl starts.1.seesIdentifier_eq) ?_ ?_
  · refine ((assignment_follows firm.plain).starting fun _ _ starts =>
      ⟨starts.1.1.near, starts.2⟩).andThen fun assignment => .pure ?_
    exact fun _ _ near => ⟨⟨.same _, fun _ => rfl⟩, near⟩
  · exact .pure fun _ _ starts => ⟨⟨.same _, fun _ => rfl⟩, starts.1.1.near⟩

/-- The step of a loop is not told apart from what is behind the fork, but then the header
does not close. -/
theorem loopStep_follows :
    Follows extent.inside fork.Near loopStep loopStep fun step answer place counterpart =>
      (step = answer ∧ fork.Near place counterpart) ∨ place.sees "for" = true := by
  have read : Follows extent.inside
      (fun place counterpart => fork.Near place counterpart ∧ place.seesIdentifier = true)
      assignment assignment (Same fun _ => fork.Near) :=
    assignment_follows (firm.plain.mono (Nat.le_succ _))
  refine Follows.starting (.or (?_ : Follows extent.inside fork.Clear _ _ _)
    (?_ : Follows extent.inside fork.Parted _ _ _)) fun _ _ => id
  · refine .ask Place.seesIdentifier (fun _ => rfl)
      (fun _ _ clear => .inl clear.seesIdentifier_eq) ?_ ?_
    · exact read.imp (fun _ _ starts => ⟨starts.1.near, starts.2⟩) fun _ _ _ _ => .inl
    · exact .pure fun _ _ starts => .inl ⟨rfl, starts.1.near⟩
  · have moves : Moves loopStep := (looks fun _ => rfl).bind fun _ => .ite read.moves (.pure _)
    refine ⟨moves, moves, ?_⟩
    rintro before counterpart step answer after last ⟨⟨parted, _⟩, _⟩ _ _ goes _ large
    have unseen : before.place.seesIdentifier = false := by
      rw [← Place.seesAny_identifier, Place.seesAny, Place.next?, parted]
      exact firm.opens.anyAccepts_eq_false (by decide)
    have run : loopStep.run before = (none, before) := by
      change StateT.run (if before.place.seesIdentifier = true then _ else _) before = _
      rw [unseen]
      rfl
    cases run.symm.trans goes.run
    rcases firm.held with held | ⟨loops, _⟩
    · have large : extent.bound + 1 ≤ before.place.rest.length := large
      rw [parted] at large
      exact absurd (Nat.le_trans large held) (Nat.not_succ_le_self _)
    · refine .inr ?_
      rw [← Place.seesAny_word, Place.seesAny, Place.next?, parted]
      exact loops

variable {start otherStart : LoopStart} (same : start.Alike otherStart)
  (settled : fork.Settled → start = otherStart)

include same settled

theorem closedHeader_follows (condition? : Option Foreseen) (step? : Option Assignment) :
    Follows extent fork.Near (closedHeader start condition? step?)
      (closedHeader otherStart condition? step?) fun one other place counterpart =>
        LoopHeader.Alike fork one other ∧ fork.Behind ")" place counterpart :=
  (closeHeader_follows firm.plain _).andThen fun _ =>
    .pure fun _ _ past => ⟨⟨same, settled, rfl⟩, past.1⟩

theorem steppedHeader_follows (condition? : Option Foreseen) :
    Follows extent fork.Near (steppedHeader start condition?) (steppedHeader otherStart condition?)
      fun one other place counterpart =>
        LoopHeader.Alike fork one other ∧ fork.Behind ")" place counterpart := by
  have closing := closedHeader_follows firm same settled condition?
  refine (headerSeparator_follows firm _).andThen fun _ => ?_
  refine (loopStep_follows firm).bindInside (fun step? answer? => ?_) fun _ =>
    demand_shortens (abandon_accept_repairs _ _ _) (.pure _)
  refine ⟨(closing step?).moves, (closing answer?).otherMoves, ?_⟩
  rintro before counterpart result answer after last (⟨rfl, near⟩ | seen)
  · exact (closing step?).reaches near
  · refine fun _ _ goes => absurd goes ((closeHeader_fails _).bind ?_ ?_ _ _ _ seen)
    · exact (closeHeader_follows firm.plain _).moves
    · exact fun _ => .pure _

omit same settled in
theorem loopHeader_follows (unfit : ∀ token, fork.fits [token] → token.spells "(" = false) :
    Follows extent fork.Near loopHeader loopHeader fun one other place counterpart =>
      LoopHeader.Alike fork one other ∧ fork.Behind ")" place counterpart := by
  refine (demand_follows (near_shares firm.plain (by decide)) (complain_repairs _)).andThen
    fun _ => ?_
  refine ((loopStart_follows firm).starting fun _ _ past => past.1.2 unfit).bindRelated
    (fun start => ⟨.same _, fun _ => rfl⟩) fun start otherStart same => ?_
  refine (headerSeparator_follows firm _).andThen fun _ => ?_
  refine (unlessSees_tracks firm.held ((foreseen_tracks firm.plain).mono extent.covers_inside)
    (by decide) (by decide)).andThenInside (steppedHeader_follows firm same.1 same.2)
      fun condition? => ?_
  exact demand_shortens (abandon_accept_repairs _ _ _) ((loopStep_follows firm).moves.bind
    fun step? => (closedHeader_follows firm same.1 same.2 condition? step?).moves)

end

/-! ## Switches -/

theorem caseValue_follows (plain : fork.Plain extent.bound) :
    Follows extent fork.Near caseValue caseValue (Same fun _ => fork.Near) := by
  refine .requireStart (near_opening plain (by decide) rfl) ?_ (.giveUp _ _ _) (giveUp_moves _ _ _)
    (giveUp_moves _ _ _)
  refine ((foreseen_tracks plain).starting fun _ _ starts => starts.1.near).andThen fun value => ?_
  exact .pure fun _ _ near => ⟨rfl, near⟩

theorem selector_follows (plain : fork.Plain extent.bound) :
    Follows extent fork.Near selector selector (Same fun _ => fork.Near) := by
  refine (demand_follows (near_shares plain (by decide)) (complain_repairs _)).andThen fun _ => ?_
  refine ((demandForeseen_tracks plain (complain_repairs _)).starting
    fun _ _ past => past.1.near).andThen fun value => ?_
  refine (closeHeader_follows plain _).andThen fun _ => .pure ?_
  exact fun _ _ past => ⟨rfl, past.1.near⟩

/-! ## Statements that are written out alike -/

/-- Loops with equal headers and bodies are written out alike. -/
theorem desugared_forLoop (start : LoopStart) (condition? : Option Foreseen)
    (step? : Option Assignment) {body otherBody : Statement}
    (same : body.desugared = otherBody.desugared) :
    (Statement.forLoop start condition? step? body).desugared =
      (Statement.forLoop start condition? step? otherBody).desugared := by
  cases condition? with
  | none => rw [Statement.desugared, Statement.desugared, same]
  | some condition => rw [Statement.desugared, Statement.desugared, same]

/-- Statements that are written out alike. -/
abbrev SameStatement (one other : Statement) : Prop := one.desugared = other.desugared

/-- Lists of statements that are written out alike. -/
abbrev SameStatements (some others : List Statement) : Prop :=
  Statement.desugaredAll some = Statement.desugaredAll others

/-- Clauses that are written out alike. -/
abbrev SameClause (one other : Clause) : Prop := one.desugared = other.desugared

theorem desugaredAll_eq {clauses others : List Clause}
    (same : List.Forall₂ SameClause clauses others) :
    Clause.desugaredAll clauses = Clause.desugaredAll others := by
  induction same with
  | nil => rfl
  | cons first _ ih => rw [Clause.desugaredAll, Clause.desugaredAll, first, ih]

/-- Writing out loops respects how statements are put together. -/
theorem desugared_congruence : Congruence SameStatement SameStatements SameClause Eq where
  refl _ := rfl
  clauseRefl _ := rfl
  headerRefl _ := rfl
  nil := rfl
  cons same rest := by simp only [SameStatements, Statement.desugaredAll, same, rest]
  block same := by simp only [SameStatement, Statement.desugared, same]
  whileLoop _ _ _ same := by simp only [SameStatement, Statement.desugared, same]
  ifThen _ _ _ same := by simp only [SameStatement, Statement.desugared, same]
  ifElse _ _ _ _ _ same sameNo := by simp only [SameStatement, Statement.desugared, same, sameNo]
  doWhile _ _ _ same := by simp only [SameStatement, Statement.desugared, same]
  forLoop header same := header ▸ desugared_forLoop _ _ _ same
  clauseOf _ _ _ same := by simp only [SameClause, Clause.desugared, same]
  switch _ _ _ _ _ same := by
    simp only [SameStatement, Statement.desugared, desugaredAll_eq same]

theorem LoopHeader.Alike.eq {one other : LoopHeader} (alike : LoopHeader.Alike fork one other)
    (listed : fork.Listed) : one = other :=
  Prod.ext (alike.settled listed.settled) alike.rest

/-- Between statements the two runs stay in lockstep. -/
theorem firm_lockstep (firm : fork.Firm extent.bound) (listed : fork.Listed) :
    Lockstep extent fork.Beside fork.Clear fork.Near SameStatement Eq := by
  have plain := firm.plain
  have ends (complaint : Complaint) := terminate_follows firm complaint
  have controlsApart : ∀ symbol ∈ controls, allApart Fork.listMarks [.word symbol] = true := by decide
  have selectsApart : ∀ symbol ∈ ["case", "default"], allApart Fork.stops [.word symbol] = true := by
    decide
  have endsApart : ∀ terminals ∈ listEnds, allApart [.word "for"] terminals = true ∧
      allApart Fork.loopStops terminals = true := by decide
  have readsApart : ∀ symbol ∈ ["\x7b", "\x7d", ":"],
      allApart (Nonterminal.words ["for", ";"]) [.word symbol] = true := by decide
  have declared : Follows extent
      (fun place counterpart => fork.Beside place counterpart ∧ place.seesStart .type = true)
      (do return ((← declaration).map Statement.declare).getD .skipped)
      (do return ((← declaration).map Statement.declare).getD .skipped)
      (Related SameStatement fork.Near) :=
    ((declaration_follows plain listed.settled).starting fun _ _ starts => starts.1).andThen
      fun _ => .pure fun _ _ near => ⟨rfl, near⟩
  exact {
    leads _ _ beside := beside.next?_eq
    within _ _ clear := clear.near
    opens := clear_opening rfl
    enters symbol listedSymbol _ _ starts :=
      ⟨(starts.1.stepBehind plain starts.2).clear listed (controlsApart _ listedSymbol),
        starts.1.length_tail⟩
    braces _ _ starts := ⟨starts.1.step plain, starts.1.length_tail⟩
    selects symbol listedSymbol _ _ starts := by
      have beside := starts.1.beside_of_sees plain (selectsApart _ listedSymbol) starts.2
      exact ⟨beside.step plain, beside.length_tail⟩
    agrees place counterpart near := by
      rcases firm.held with held | ⟨opens, otherOpens⟩
      · rcases near with clear | ⟨⟨parted, _⟩, _⟩
        · exact .inr (.inr fun terminals _ => clear.seesAny_eq terminals)
        · exact .inr (.inl (parted ▸ held))
      · exact .inr (.inr fun terminals listedTerminals => near.seesAny_eq opens otherOpens
          (endsApart _ listedTerminals).1 (endsApart _ listedTerminals).2)
    elses := (near_shares plain (by decide)).giving fun _ _ past => past.1.clear listed (by decide)
    unelse := near_lacks plain (by decide) (by decide)
    reads symbol listedSymbol :=
      (near_shares plain (readsApart _ listedSymbol)).giving fun _ _ past => past.1.near
    conditions form := (condition_follows plain form).giving fun _ _ _ _ reached =>
      ⟨reached.1, reached.2.clear listed (by decide)⟩
    repeats := repeatKeyword_follows plain
    ends := ends
    headers := (loopHeader_follows firm (listed.unread (by decide))).imp
      (fun _ _ clear => clear.near) fun _ _ _ _ reached =>
        ⟨reached.1.eq listed, reached.2.clear listed (by decide)⟩
    selectors := selector_follows plain
    counts := countSwitch_follows listed.numbers
    values := caseValue_follows plain
    declares := terminated_follows ends SameStatement _ declared fun _ => rfl
    names := named_follows ends plain
    prints := terminated_follows ends Eq _ (print_follows plain) fun _ => rfl
    asks := terminated_follows ends Eq _ (read_follows plain) fun _ => rfl
    leaves := leave_follows ends plain
    returns := giveBack_follows firm (listed.unread (by decide))
    evaluates := (evaluation_follows ends plain).starting fun _ _ beside => beside.near }

end StackLang.Reading
