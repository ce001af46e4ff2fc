import StackLang.Proofs.Fork.Primitives

/-!
# Expressions at a fork

Two runs of the reader of expressions read the same expression, wherever the fork is: at
the fork no operand starts, so the first run complains, and no operator is next, so an
expression ends there on both inputs.
-/

namespace StackLang.Reading

open Terminal (allApart)

variable {α : Type} {fork : Fork} {extent : Extent}

/-- Two readers that read the same. -/
abbrev Tracks (fork : Fork) (extent : Extent) (one other : Reading α) : Prop :=
  Follows extent fork.Near one other (Same fun _ => fork.Near)

theorem beside_shares {start : Place → Stance → Prop} {symbol : String}
    (plain : fork.Plain extent.bound) (leads : Leads fork start) :
    Shares extent start (extent.Past (fork.Behind symbol)) symbol := by
  intro place counterpart starts small otherSmall seen
  have beside := leads _ _ starts
  exact .inl ⟨beside.sees_eq symbol ▸ seen, beside.pastBehind plain seen small otherSmall⟩

theorem beside_lacks {start : Place → Stance → Prop} {symbol : String}
    (leads : Leads fork start) : Lacks start symbol :=
  fun _ _ starts unseen => ((leads _ _ starts).sees_eq symbol).symm.trans unseen

section

variable (plain : fork.Plain extent.bound) {nested otherNested : Reading Expr}

include plain

theorem level_tracks {nonterminal : Nonterminal} {complaint : Complaint}
    {body otherBody : Reading Expr}
    (apart : allApart Fork.stops nonterminal.first = true)
    (unended : Terminal.anyAccepts nonterminal.first none = false)
    (inside : Follows extent
      (fun place counterpart => fork.Beside place counterpart ∧ place.seesStart nonterminal = true)
      body otherBody (Same fun _ => fork.Near)) :
    Tracks fork extent (level nonterminal complaint body)
      (level nonterminal complaint otherBody) := by
  exact .rule (.expectBranch (near_opening plain apart unended) inside (.pure _) (.pure _))

theorem find?_operator_eq (operators : List BinaryOperator) {one : Place} {other : Stance}
    (near : fork.Near one other) :
    (operators.find? fun operator => one.sees operator.symbol) =
      operators.find? fun operator => other.sees operator.symbol := by
  have same : (fun operator : BinaryOperator => one.sees operator.symbol) =
      fun operator => other.sees operator.symbol := by
    funext operator
    exact near.sees_eq plain (by cases operator <;> decide) (by cases operator <;> decide)
  rw [same]

theorem extend?_follows {operand otherOperand : Reading Expr}
    (tracks : Tracks fork extent.behind operand otherOperand) (operators : List BinaryOperator)
    (left : Expr) :
    Follows.Rounds extent fork.Near Eq (extend? operators operand left)
      (extend? operators otherOperand left) := by
  refine .lookAlike (fun place => operators.find? fun operator => place.sees operator.symbol)
    (fun _ => rfl) (fun _ _ near => .inl (find?_operator_eq plain operators near))
    fun operator? => ?_
  cases operator? with
  | none => exact .pure fun _ _ starts => ⟨.none, starts.1⟩
  | some operator =>
      have leads : Leads fork fun place counterpart => fork.Near place counterpart ∧
          (operators.find? fun operator => place.sees operator.symbol) = some operator := by
        rintro place counterpart ⟨near, found⟩
        have seen := List.find?_some found
        exact near.beside_of_sees plain (by cases operator <;> decide) seen
      refine .line (fun _ _ starts => (leads _ _ starts).next?_eq) fun line => (skip_follows plain leads).andThen fun _ => ?_
      refine (log_follows _).andThen fun _ => ?_
      refine tracks.past.bind fun right answer => .pure ?_
      rintro place counterpart ⟨⟨rfl, near⟩, past⟩
      exact ⟨.some rfl, near, past⟩

theorem chain_tracks {operand otherOperand : Reading Expr}
    (tracks : Tracks fork extent operand otherOperand) (operators : List BinaryOperator) :
    Tracks fork extent (chain operators operand) (chain operators otherOperand) := by
  refine tracks.andThen fun first => .refine (fun narrower covers value => ?_) first
  exact extend?_follows (plain.mono covers.bound)
    (tracks.mono (covers.trans narrower.covers_behind)) operators value

theorem group_tracks (tracks : Tracks fork extent nested otherNested) :
    Tracks fork extent (group nested) (group otherNested) := by
  refine (tracks.mono extent.covers_inside).andThenInside (fun inner => ?_) fun inner =>
    demand_shortens (complain_repairs _) (.pure _)
  refine (demand_follows (near_shares plain (by decide)) (complain_repairs _)).andThen
    fun _ => .pure ?_
  exact fun _ _ past => ⟨rfl, past.1.near⟩

theorem nextArgument?_follows (tracks : Tracks fork extent.behind nested otherNested) :
    Follows.Rounds extent fork.Near Eq (nextArgument? nested) (nextArgument? otherNested) := by
  have missing {found : Option Expr} : Moves (do
      abandon .argument fun next => Terminal.anyAccepts [.word ",", .word ";"] next ||
        Nonterminal.arguments.endsBefore next
      return found) := giveUp_moves _ _ _
  have argument : Follows extent.behind fork.Near
      (do
        if ← seesStart .expression then return some (← nested)
        abandon .argument fun next => Terminal.anyAccepts [.word ",", .word ";"] next ||
          Nonterminal.arguments.endsBefore next
        return some .missing)
      (do
        if ← seesStart .expression then return some (← otherNested)
        abandon .argument fun next => Terminal.anyAccepts [.word ",", .word ";"] next ||
          Nonterminal.arguments.endsBefore next
        return some .missing)
      fun next? answer? place counterpart =>
        (Option.Rel Eq next? answer? ∧ next?.isSome = true) ∧ fork.Near place counterpart := by
    refine .requireStart (near_opening plain (by decide) rfl) ?_ (.giveUp _ _ _) missing missing
    refine (tracks.starting fun _ _ starts => starts.1.near).andThen fun value => .pure ?_
    exact fun _ _ near => ⟨⟨.some rfl, rfl⟩, near⟩
  refine .acceptUnless (near_shares plain (by decide))
    (near_lacks plain (by decide) (by decide)) ?_ ?_
  · refine argument.past.imp (fun _ _ past => ⟨past.1.near, past.2⟩) ?_
    rintro next? answer? place counterpart ⟨⟨⟨same, present⟩, near⟩, past⟩
    rw [present]
    exact ⟨same, near, past⟩
  · exact .pure fun _ _ starts => ⟨.none, starts.1⟩

/-- Arguments end at a closing parenthesis, which is not read as one of them. -/
theorem arguments_tracks (tracks : Tracks fork extent nested otherNested) :
    Tracks fork extent.inside (arguments nested) (arguments otherNested) := by
  have inner := tracks.mono extent.covers_inside
  refine .rule (.ask (Place.sees · ")") (fun _ => rfl)
    (fun _ _ near => near.sees_eq_inside plain.held (by decide) (by decide))
    (.pure fun _ _ starts => ⟨rfl, starts.1⟩) ?_)
  refine Follows.starting ?_ fun _ _ starts => starts.1
  refine .expectUnless (near_opening plain (by decide) rfl) ?_ (.pure _) (.pure _)
  refine (inner.starting fun _ _ starts => starts.1.near).andThen fun first => ?_
  refine (Follows.collect Eq fun narrower covers => ?_).bind fun others answers => .pure ?_
  · exact nextArgument?_follows (plain.mono (Nat.le_trans (Nat.le_succ _) covers.bound))
      (inner.mono (covers.trans narrower.covers_behind))
  · rintro place counterpart ⟨same, near⟩
    rw [List.forall₂_eq_eq_eq] at same
    exact ⟨congrArg (first :: ·) same, near⟩

/-- A symbol that may be next, wherever that leads. -/
theorem accept_tracks {symbol : String}
    (unread : allApart (Nonterminal.words ["for", ";"]) [.word symbol] = true)
    (apart : allApart Fork.stops [.word symbol] = true)
    (otherApart : allApart Fork.otherStops [.word symbol] = true) :
    Tracks fork extent (accept symbol) (accept symbol) := by
  refine (accept_follows (near_shares plain unread)).giving ?_
  rintro read answer place counterpart ⟨reads, misses⟩
  cases read with
  | true => exact ⟨(reads rfl).1.symm, (reads rfl).2.1.near⟩
  | false =>
      obtain ⟨same, near, _⟩ := misses rfl (near_lacks plain apart otherApart)
      exact ⟨same.symm, near⟩

theorem call_tracks (tracks : Tracks fork extent.behind nested otherNested) :
    Follows extent
      (fun place counterpart => fork.Near place counterpart ∧ place.seesIdentifier = true)
      (call nested) (call otherNested) (Same fun _ => fork.Near) := by
  have behind : fork.Plain extent.behind.bound := plain
  have closing (callee : Token) : Tracks fork extent.behind
      (do
        let arguments ← arguments nested
        demand ")" (abandon .callClose Nonterminal.call.endsBefore)
        return some (callee, arguments))
      (do
        let arguments ← arguments otherNested
        demand ")" (abandon .callClose Nonterminal.call.endsBefore)
        return some (callee, arguments)) := by
    refine (arguments_tracks behind tracks).andThenInside (fun arguments => ?_) fun arguments =>
      demand_shortens (abandon_repairs _ _) (.pure _)
    refine (demand_follows (near_shares behind (by decide)) (abandon_repairs _ _)).andThen
      fun _ => .pure ?_
    exact fun _ _ past => ⟨rfl, past.1.near⟩
  refine .rule (.bindSome (identifier?_follows plain) (fun callee => ?_) (.pure _) (.pure _))
  exact ((accept_tracks behind (by decide) (by decide) (by decide)).andThen
    fun _ => closing callee).onward

theorem literal_tracks {start : Place → Stance → Prop} (leads : Leads fork start) :
    Follows extent start
      (do
        match ← take fun token => .literal token.value with
        | some token =>
            cutMark token
            return Expr.literal token
        | none => return .missing)
      (do
        match ← take fun token => .literal token.value with
        | some token =>
            cutMark token
            return Expr.literal token
        | none => return .missing)
      (Same fun _ => fork.Near) := by
  have cut (token : Token) : Moves (cutMark token) :=
    fun _ => ⟨List.suffix_refl _, List.prefix_rfl, Nat.le_refl _⟩
  refine .bindSome (take_follows plain leads _) (fun token => ?_) (.pure _) (.pure _)
  refine (stay_follows (cut token) fun _ => rfl).andThen fun _ => .pure ?_
  exact fun _ _ past => ⟨rfl, past.1⟩

theorem primary_tracks (tracks : Tracks fork extent.behind nested otherNested) :
    Tracks fork extent (primary nested) (primary otherNested) := by
  have behind : fork.Plain extent.behind.bound := plain
  refine level_tracks plain (by decide) rfl ?_
  refine .acceptBranch (beside_shares plain fun _ _ starts => starts.1)
    (beside_lacks fun _ _ starts => starts.1) ?_ ?_
  · exact (group_tracks behind tracks).onward.starting fun _ _ past => ⟨past.1.near, past.2⟩
  refine .ask Place.seesIdentifier (fun _ => rfl)
    (fun _ _ starts => .inl starts.1.1.seesIdentifier_eq) ?_ ?_
  · refine .ask (Place.seesSecond · "(") (fun _ => rfl) (fun _ _ starts =>
      .inl (starts.1.1.1.seesSecond_eq plain (by decide) (by decide))) ?_ ?_
    · refine ((call_tracks plain tracks).starting fun _ _ starts =>
        ⟨starts.1.1.1.1.near, starts.1.2⟩).andThen fun called => ?_
      cases called with
      | none => exact .pure fun _ _ near => ⟨rfl, near⟩
      | some called => exact .pure fun _ _ near => ⟨rfl, near⟩
    · refine .bindSome ((identifier?_follows plain).starting fun _ _ starts =>
        ⟨starts.1.1.1.1.near, starts.1.2⟩) (fun name => .pure ?_) (.pure _) (.pure _)
      exact fun _ _ past => ⟨rfl, past.1⟩
  · exact literal_tracks plain fun _ _ starts => starts.1.1.1

theorem negation_tracks (tracks : Tracks fork extent.behind nested otherNested) :
    Tracks fork extent (negation nested) (negation otherNested) := by
  have operand := primary_tracks plain tracks
  refine level_tracks plain (by decide) rfl (.line (fun _ _ starts => starts.1.next?_eq) fun line => ?_)
  refine .acceptBranch (beside_shares plain fun _ _ starts => starts.1)
    (beside_lacks fun _ _ starts => starts.1) ?_ ?_
  · refine (operand.starting fun _ _ past => past.1.near).andThen fun value => .pure ?_
    exact fun _ _ near => ⟨rfl, near⟩
  · exact operand.starting fun _ _ starts => starts.1.1.near

theorem sum_tracks (tracks : Tracks fork extent.behind nested otherNested) :
    Tracks fork extent (sum nested) (sum otherNested) := by
  have product : Tracks fork extent (product nested) (product otherNested) :=
    level_tracks plain (by decide) rfl
      ((chain_tracks plain (negation_tracks plain tracks) _).starting fun _ _ starts => starts.1.near)
  exact level_tracks plain (by decide) rfl
    ((chain_tracks plain product _).starting fun _ _ starts => starts.1.near)

theorem relation_tracks (tracks : Tracks fork extent.behind nested otherNested) :
    Tracks fork extent (relation nested) (relation otherNested) := by
  have operand := sum_tracks plain tracks
  refine level_tracks plain (by decide) rfl ?_
  refine (operand.starting fun _ _ starts => starts.1.near).andThen fun left => ?_
  refine Follows.Round.bind
    (extend?_follows plain (operand.mono extent.covers_behind) comparisons left)
    (.pure fun _ _ near => ⟨rfl, near⟩) ?_ (fun _ => .pure _) fun _ => .pure _
  rintro value _ rfl
  exact .pure fun _ _ near => ⟨rfl, near⟩

end

theorem level_moves {nonterminal : Nonterminal} {complaint : Complaint} {body : Reading Expr}
    (moves : Moves body) : Moves (level nonterminal complaint body) :=
  .rule ((expect_moves _ _).bind fun _ => .ite moves (.pure _))

theorem inversionFor_moves {nested : Reading Expr} (moves : Moves (relation nested)) (size : Nat) :
    Moves (inversionFor nested size) := by
  induction size with
  | zero => exact getStuck_moves.bind fun _ => .pure _
  | succ size ih =>
      refine level_moves ((looks fun _ => rfl).bind fun line => (accept_moves _).bind fun _ => ?_)
      exact .ite (ih.bind fun _ => .pure _) moves

theorem inversionFor_tracks {nested otherNested : Reading Expr} (size otherSize : Nat)
    (plain : fork.Plain extent.bound) (tracks : Tracks fork extent.behind nested otherNested)
    (enough : extent.size ≤ size) (otherEnough : extent.otherSize ≤ otherSize) :
    Tracks fork extent (inversionFor nested size) (inversionFor otherNested otherSize) := by
  have operand := relation_tracks plain tracks
  refine .nested (inversionFor_moves operand.moves) (inversionFor_moves operand.otherMoves) ?_
    size otherSize enough otherEnough
  intro narrower size otherSize covers _ _ inner
  have plain := plain.mono covers.bound
  refine level_tracks plain (by decide) rfl (.line (fun _ _ starts => starts.1.next?_eq) fun line => ?_)
  refine .acceptBranch (beside_shares plain fun _ _ starts => starts.1)
    (beside_lacks fun _ _ starts => starts.1) ?_ ?_
  · refine (inner.onward.starting fun _ _ past => ⟨past.1.near, past.2⟩).andThen
      fun value => .pure ?_
    exact fun _ _ near => ⟨rfl, near⟩
  · exact (operand.mono covers).starting fun _ _ starts => starts.1.1.near

theorem conjunction_tracks {nested otherNested : Reading Expr} (plain : fork.Plain extent.bound)
    (tracks : Tracks fork extent.behind nested otherNested) :
    Tracks fork extent (conjunction nested) (conjunction otherNested) := by
  have moves := relation_tracks plain tracks
  have inversion : Tracks fork extent (inversion nested) (inversion otherNested) := by
    refine .sized (inversionFor_moves moves.moves) (inversionFor_moves moves.otherMoves)
      fun narrower covers => ?_
    refine inversionFor_tracks _ _ (plain.mono covers.bound) (tracks.mono ?_) (Nat.le_refl _)
      (Nat.le_refl _)
    exact ⟨covers.bound, Nat.sub_le_sub_right covers.size 1,
      Nat.sub_le_sub_right covers.otherSize 1, covers.silent⟩
  exact level_tracks plain (by decide) rfl
    ((chain_tracks plain inversion _).starting fun _ _ starts => starts.1.near)

theorem expressionFor_moves (depth : Nat) : Moves (expressionFor depth) :=
  .of_gives fun before => expressionFor_right depth before (List.Subset.refl before.rest)

/-- At any depth of parentheses the same expression is read. -/
theorem expressionFor_tracks (depth otherDepth : Nat) (plain : fork.Plain extent.bound)
    (enough : extent.size ≤ depth) (otherEnough : extent.otherSize ≤ otherDepth) :
    Tracks fork extent (expressionFor depth) (expressionFor otherDepth) := by
  refine .nested expressionFor_moves expressionFor_moves ?_ depth otherDepth enough otherEnough
  intro narrower depth otherDepth covers _ _ nested
  have plain := plain.mono covers.bound
  exact level_tracks plain (by decide) rfl
    ((chain_tracks plain (conjunction_tracks plain nested) _).starting
      fun _ _ starts => starts.1.near)

/-- The same expression is read. -/
theorem expression_tracks (plain : fork.Plain extent.bound) :
    Tracks fork extent expression expression :=
  .sized expressionFor_moves expressionFor_moves fun _ covers =>
    expressionFor_tracks _ _ (plain.mono covers.bound) (Nat.le_refl _) (Nat.le_refl _)

/-! ## Previews -/

/-- A foreseen expression stands where it is read, and its preview shows it. -/
theorem foreseen_found {before after : Cursor} {value : Foreseen}
    (goes : Goes foreseen before value after) :
    before.place.seesStart .expression = true ∧ value.preview = some value.value.skeleton := by
  obtain ⟨reads, shows, _⟩ :=
    goes.given (foreseen_gives before (List.Subset.refl before.rest))
  obtain ⟨tokens, consumed, derived⟩ := reads.derives
  refine ⟨?_, shows⟩
  have opens := derived.opens (derived.ne_nil rfl)
  have front : before.rest.head? = tokens.head? := by
    rw [consumed.rest, List.head?_append_of_ne_nil _ (derived.ne_nil rfl)]
  show Terminal.anyAccepts Nonterminal.expression.first before.rest.head? = true
  rw [front]
  exact opens

/-- The same expression is read, with the same preview. -/
theorem foreseen_tracks (plain : fork.Plain extent.bound) :
    Tracks fork extent foreseen foreseen := by
  have body : Follows extent fork.Beside foreseen foreseen fun value answer place counterpart =>
      (value.line = answer.line ∧ value.value = answer.value) ∧ fork.Near place counterpart := by
    refine .line (fun _ _ beside => beside.next?_eq) fun line => .glance fun cursor counterpart => ?_
    have check (preview : Except Preview.Stop Expr) : Moves (checkPreview preview) :=
      fun _ => ⟨List.suffix_refl _, List.prefix_rfl, Nat.le_refl _⟩
    have stays : Follows extent fork.Beside (checkPreview (Expr.previewed cursor.rest))
        (checkPreview (Expr.previewed counterpart.rest)) fun _ _ => fork.Near := by
      refine ⟨check _, check _, fun beside _ _ goes otherRuns _ => ?_⟩
      cases goes.run
      cases otherRuns.run
      exact beside.near
    refine stays.bind fun _ _ => (expression_tracks plain).bind fun value answer => .pure ?_
    rintro place counterpart ⟨rfl, near⟩
    exact ⟨⟨rfl, rfl⟩, near⟩
  refine ⟨foreseen_moves, foreseen_moves, ?_⟩
  intro before counterpart value answer after last near small otherSmall goes otherRuns large
  obtain ⟨starts, shows⟩ := foreseen_found goes
  obtain ⟨⟨lines, values⟩, places⟩ :=
    body.reaches (near.beside plain (by decide) rfl starts) small otherSmall goes otherRuns large
  -- a complaint of the second run would have been counted
  have otherGoes := otherRuns.goes_of_size foreseen_moves
    (places.counted.2.trans near.counted.2.symm)
  obtain ⟨_, otherShows⟩ := foreseen_found otherGoes
  rw [← values, ← shows] at otherShows
  refine ⟨?_, places⟩
  obtain ⟨line, preview, value⟩ := value
  cases lines
  cases values
  cases otherShows
  rfl

end StackLang.Reading
