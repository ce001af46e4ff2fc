import StackLang.Proofs.Fork.Expression

/-!
# Declarations, assignments and simple statements at a fork

The parts of statements that hold no statements themselves are read alike on both inputs.
Where one of them ends at the fork nothing continues it, and where the first input lacks
what must come next the first run complains.
-/

namespace StackLang

namespace Place

/-- The operator of an assignment that is next. -/
def operator? (place : Place) : Option AssignmentOperator :=
  place.next?.bind AssignmentOperator.ofToken?

theorem operator?_eq (place : Place) :
    place.operator? = AssignmentOperator.all.find? fun operator => place.sees operator.symbol := by
  rw [operator?]
  cases next : place.next? with
  | none =>
      have unseen : (fun operator : AssignmentOperator => place.sees operator.symbol) =
          fun _ => false := by
        funext operator
        rw [sees, next]
        rfl
      rw [unseen]
      rfl
  | some token =>
      have seen : (fun operator : AssignmentOperator => place.sees operator.symbol) =
          fun operator => token.spells operator.symbol := by
        funext operator
        rw [sees, next]
        rfl
      rw [seen]
      rfl

end Place

/-- The declarations differ at most in their constants. -/
structure Declaration.Alike (one other : Declaration) : Prop where
  type : one.type = other.type
  name : one.name = other.name
  value : one.initializer.map Initializer.value = other.initializer.map Initializer.value

theorem Declaration.Alike.refl (declaration : Declaration) : declaration.Alike declaration :=
  ⟨rfl, rfl, rfl⟩

theorem Declaration.Alike.rel_refl :
    ∀ declaration? : Option Declaration, Option.Rel Alike declaration? declaration?
  | none => .none
  | some declaration => .some (.refl declaration)

/-- What loop headers do first differs at most in the constant of a declaration. -/
inductive LoopStart.Alike : LoopStart → LoopStart → Prop
  | same (start : LoopStart) : Alike start start
  | declare {one other : Declaration} : one.Alike other → Alike (.declare one) (.declare other)

namespace Reading

open Terminal (allApart)

variable {α : Type} {fork : Fork} {extent : Extent}

theorem typeName_reaches {start after : Place → Stance → Prop} (leads : Leads fork start)
    (arrives : ∀ place counterpart, start place counterpart → place.rest.length < extent.size →
      counterpart.rest.length < extent.otherSize → after place.tail counterpart.tail) :
    Follows extent start typeName typeName (Same fun _ => after) := by
  refine .rule (.lookAlike Place.next? (fun _ => rfl)
    (fun _ _ starts => .inl (leads _ _ starts).next?_eq) fun next? => ?_)
  cases next? with
  | none =>
      refine .nowhere (.pure _) (.pure _) ?_
      rintro place counterpart ⟨starts, none⟩
      obtain ⟨token, next⟩ := (leads _ _ starts).exists_next
      exact nomatch next.symm.trans none
  | some token =>
      refine (take_reaches (fun _ _ starts => leads _ _ starts.1)
        (fun _ _ starts => arrives _ _ starts.1) _).bind fun _ _ => .pure ?_
      exact fun _ _ taken => ⟨rfl, taken.2⟩

theorem typeName_follows (plain : fork.Plain extent.bound) :
    Follows extent fork.Beside typeName typeName (Same fun _ => fork.Near) :=
  typeName_reaches (fun _ _ => id) fun _ _ beside _ _ => beside.step plain

theorem constant?_follows :
    Follows extent fork.Beside constant? constant? fun one other place counterpart =>
      (fork.Settled → one = other) ∧ fork.Beside place counterpart := by
  refine .lookAlike Place.next? (fun _ => rfl) (fun _ _ beside => .inl beside.next?_eq)
    fun next? => ?_
  cases next? with
  | none => exact .pure fun _ _ starts => ⟨fun _ => rfl, starts.1⟩
  | some token =>
      refine .look (Place.seesSecond · ";") (fun _ => rfl) fun second answer => .pure ?_
      rintro place counterpart ⟨⟨beside, next⟩, rfl, rfl⟩
      refine ⟨fun settled => ?_, beside⟩
      cases denotes : token.isLiteral with
      | false => rfl
      | true => rw [beside.seesSecond_settled settled next denotes]

/-- The same is declared, with the same constant if a literal in front of the fork is settled
to be one or not. -/
theorem declaration_agrees (plain : fork.Plain extent.bound) :
    Follows extent fork.Beside declaration declaration fun one other place counterpart =>
      (Option.Rel Declaration.Alike one other ∧ (fork.Settled → one = other)) ∧
        fork.Near place counterpart := by
  refine .rule ((typeName_follows plain).andThen fun type? => ?_)
  cases type? with
  | none => exact .pure fun _ _ near => ⟨⟨.none, fun _ => rfl⟩, near⟩
  | some type =>
      refine .requireName plain (fun name => .loosely ?_) (.giveUp _ _ _) (giveUp_moves _ _ _)
        (giveUp_moves _ _ _)
      refine .acceptUnless (near_shares plain (by decide))
        (near_lacks plain (by decide) (by decide)) ?_
        (.pure fun _ _ starts => ⟨⟨.some (.refl _), fun _ => rfl⟩, starts.1⟩)
      refine Follows.starting ?_ fun _ _ past => past.1.near
      refine .requireStart (near_opening plain (by decide) rfl) ?_ (.giveUp _ _ _)
        (giveUp_moves _ _ _) (giveUp_moves _ _ _)
      refine (constant?_follows.starting fun _ _ starts => starts.1).bindRelated
        (fun _ _ => rfl) fun constant answer same => ?_
      refine ((foreseen_tracks plain).starting fun _ _ beside => beside.near).andThen fun value => ?_
      refine .pure fun _ _ near => ⟨⟨.some ⟨rfl, rfl, rfl⟩, fun settled => ?_⟩, near⟩
      rw [same settled]

theorem declaration_follows (plain : fork.Plain extent.bound) (settled : fork.Settled) :
    Follows extent fork.Beside declaration declaration (Same fun _ => fork.Near) :=
  (declaration_agrees plain).giving fun _ _ _ _ reached => ⟨reached.1.2 settled, reached.2⟩

/-- Read an assignment from its operator on, if an operator is next. -/
def assignmentFrom (target : Token) : Option AssignmentOperator → Reading (Option Assignment)
  | none => abandonAssignment target .assignmentOperator
  | some operator => do
      skip
      log (.symbol operator.symbol)
      match operator.step? with
      | some step => return some ⟨target, .step step⟩
      | none =>
          if ← seesStart .expression then
            return some ⟨target, .store operator.arithmetic? (← foreseen)⟩
          abandonAssignment target .assignedValue

theorem operator?_agrees (plain : fork.Plain extent.bound) {one : Place} {other : Stance}
    (near : fork.Near one other) : one.operator? = other.operator? := by
  have same : (fun operator : AssignmentOperator => one.sees operator.symbol) =
      fun operator => other.sees operator.symbol := by
    funext operator
    exact near.sees_eq plain (by cases operator <;> decide) (by cases operator <;> decide)
  rw [Place.operator?_eq, Place.operator?_eq, same]

theorem assignmentFrom_follows (plain : fork.Plain extent.bound) (target : Token)
    (operator? : Option AssignmentOperator) :
    Follows extent
      (fun place counterpart => fork.Near place counterpart ∧ place.operator? = operator?)
      (assignmentFrom target operator?) (assignmentFrom target operator?)
      (Same fun _ => fork.Near) := by
  have givesUp (complaint : Complaint) : Fails (abandonAssignment target complaint) := .giveUp _ _ _
  have moves (complaint : Complaint) : Moves (abandonAssignment target complaint) :=
    giveUp_moves _ _ _
  cases operator? with
  | none => exact .fails (givesUp _) (moves _) (moves _)
  | some operator =>
      have leads : Leads fork fun place counterpart =>
          fork.Near place counterpart ∧ place.operator? = some operator := by
        rintro place counterpart ⟨near, found⟩
        rw [Place.operator?_eq] at found
        have seen := List.find?_some found
        exact near.beside_of_sees plain (by cases operator <;> decide) seen
      refine (skip_follows plain leads).andThen fun _ => (log_follows _).andThen fun _ => ?_
      cases operator.step? with
      | some step => exact .pure fun _ _ past => ⟨rfl, past.1⟩
      | none =>
          refine (Follows.requireStart (near_opening plain (by decide) rfl) ?_ (givesUp _) (moves _)
            (moves _)).loosely
          refine ((foreseen_tracks plain).starting fun _ _ starts => starts.1.near).andThen
            fun value => .pure ?_
          exact fun _ _ near => ⟨rfl, near⟩

theorem assignment_follows (plain : fork.Plain extent.bound) :
    Follows extent
      (fun place counterpart => fork.Near place counterpart ∧ place.seesIdentifier = true)
      assignment assignment (Same fun _ => fork.Near) := by
  refine .rule (.bindSome (identifier?_follows plain) (fun target => .loosely ?_) (.pure _) (.pure _))
  refine .lookVia (Option.bind · AssignmentOperator.ofToken?) Place.operator? (assignmentFrom target)
    (assignmentFrom target) (fun cursor => ⟨_, rfl, rfl⟩) ?_ (assignmentFrom_follows plain target)
  exact fun _ _ near => .inl (operator?_agrees plain near)

/-! ## Simple statements -/

theorem resume_repairs (complaint : Complaint) (stop : Option Token → Bool) :
    Repairs (do complain complaint; resume stop) :=
  (complain_repairs complaint).bind (resume_gives stop)

theorem terminate_follows (firm : fork.Firm extent.bound) (complaint : Complaint) :
    Follows extent fork.Near (terminate complaint) (terminate complaint)
      (Same fun _ => fork.Near) :=
  (demand_follows (firm_shares firm (by decide)) (resume_repairs _ _)).giving
    fun _ _ _ _ reached => ⟨reached.1, reached.2.1.near⟩

/-- What is read unless a symbol comes that ends it. -/
theorem unlessSees_tracks {opening otherOpening : List Terminal} {symbol : String}
    {reader otherReader : Reading α}
    (held : fork.one.length ≤ extent.bound ∨
      Terminal.Opens opening fork.one ∧ Terminal.Opens otherOpening fork.other)
    (tracks : Tracks fork extent.inside reader otherReader)
    (apart : allApart opening [.word symbol] = true)
    (otherApart : allApart otherOpening [.word symbol] = true) :
    Tracks fork extent.inside (unlessSees symbol reader) (unlessSees symbol otherReader) := by
  refine .ask (Place.sees · symbol) (fun _ => rfl)
    (fun _ _ near => near.sees_eq_inside held apart otherApart)
    (.pure fun _ _ starts => ⟨rfl, starts.1⟩) ?_
  refine (tracks.starting fun _ _ starts => starts.1).andThen fun value => .pure ?_
  exact fun _ _ near => ⟨rfl, near⟩

theorem print_follows (plain : fork.Plain extent.bound) :
    Follows extent fork.Beside print print (Same fun _ => fork.Near) := by
  refine .rule (.bindSome (take_follows plain (fun _ _ => id) _) (fun keyword => .loosely ?_)
    (.pure _) (.pure _))
  refine .acceptRequire (near_shares plain (by decide)) ?_ (.giveUp _ _ _)
    (giveUp_moves _ _ _) (giveUp_moves _ _ _)
  refine Follows.starting ?_ fun _ _ past => past.1.near
  refine (unlessSees_tracks plain.held ((expression_tracks plain).mono extent.covers_inside)
    (by decide) (by decide)).andThenInside (fun value => ?_) fun value =>
      demand_shortens (abandon_repairs _ _) (.pure _)
  refine (demand_follows (near_shares plain (by decide)) (abandon_repairs _ _)).andThen
    fun _ => .pure ?_
  exact fun _ _ past => ⟨rfl, past.1.near⟩

theorem read_follows (plain : fork.Plain extent.bound) :
    Follows extent
      (fun place counterpart => fork.Beside place counterpart ∧ place.sees "inputln" = true)
      read read (Same fun _ => fork.Near) := by
  refine .rule ((keyword_follows plain "inputln" (fun _ _ starts => starts.1)
    fun _ _ starts => starts.2).andThen fun _ => ?_)
  refine Follows.starting ?_ fun _ _ past => past.1.near
  refine .acceptRequire (near_shares plain (by decide)) ?_ (.giveUp _ _ _)
    (giveUp_moves _ _ _) (giveUp_moves _ _ _)
  refine Follows.starting ?_ fun _ _ past => past.1.near
  refine .requireName plain (fun target => .loosely ?_) (.giveUp _ _ _) (giveUp_moves _ _ _)
    (giveUp_moves _ _ _)
  refine (demand_follows (near_shares plain (by decide)) (abandon_repairs _ _)).andThen
    fun _ => .pure ?_
  exact fun _ _ past => ⟨rfl, past.1.near⟩

theorem returned_follows (plain : fork.Plain extent.bound) :
    Follows extent fork.Clear returned returned (Same fun _ => fork.Near) := by
  refine .ask (Place.sees · ";") (fun _ => rfl) (fun _ _ clear => .inl (clear.sees_eq _))
    (.pure fun _ _ starts => ⟨rfl, starts.1.near⟩) ?_
  refine Follows.starting ?_ fun _ _ starts => starts.1
  refine .requireStart (clear_opening rfl) ?_ (.giveUp _ _ _) (giveUp_moves _ _ _) (giveUp_moves _ _ _)
  refine ((expression_tracks plain).starting fun _ _ starts => starts.1.near).andThen
    fun value => .pure ?_
  exact fun _ _ near => ⟨rfl, near⟩

theorem giveBack_follows (firm : fork.Firm extent.bound)
    (unfit : ∀ token, fork.fits [token] → token.spells "return" = false) :
    Follows extent
      (fun place counterpart => fork.Beside place counterpart ∧ place.sees "return" = true)
      giveBack giveBack (Same fun _ => fork.Near) := by
  refine .rule (.line (fun _ _ starts => starts.1.next?_eq) fun line => ?_)
  refine (keyword_follows firm.plain "return" (fun _ _ starts => starts.1)
    fun _ _ starts => starts.2).andThen fun _ => ?_
  refine ((returned_follows firm.plain).starting fun _ _ past => past.1.2 unfit).andThen
    fun value => ?_
  refine (terminate_follows firm _).andThen fun _ => .pure ?_
  exact fun _ _ near => ⟨rfl, near⟩

/-- Read an assignment or an expression in the place of a statement. -/
def assignedOrEvaluated (assigned : Bool) : Reading Statement :=
  if assigned then
    terminated .assignmentEnd do
      return ((← assignment).map Statement.assign).getD .skipped
  else evaluation

section

variable {near : Place → Stance → Prop} (ends : ∀ complaint, Follows extent fork.Near
  (terminate complaint) (terminate complaint) (Same fun _ => near))

include ends

theorem terminated_follows {start : Place → Stance → Prop} (rel : Statement → Statement → Prop)
    (complaint : Complaint) {statement otherStatement : Reading Statement}
    (follows : Follows extent start statement otherStatement fun one other place counterpart =>
      rel one other ∧ fork.Near place counterpart)
    (refl : ∀ statement, rel statement statement) :
    Follows extent start (terminated complaint statement) (terminated complaint otherStatement)
      fun one other place counterpart => rel one other ∧ near place counterpart :=
  follows.bindRelated refl fun _ _ same => (ends complaint).andThen fun _ =>
    .pure fun _ _ near => ⟨same, near⟩

variable (plain : fork.Plain extent.bound)

include plain

theorem leave_follows :
    Follows extent
      (fun place counterpart => fork.Beside place counterpart ∧ place.sees "break" = true)
      leave leave (Same fun _ => near) := by
  refine .line (fun _ _ starts => starts.1.next?_eq) fun line => ?_
  refine (keyword_follows plain "break" (fun _ _ starts => starts.1)
    fun _ _ starts => starts.2).andThen fun _ => ?_
  refine ((ends _).starting fun _ _ past => past.1.near).andThen fun _ => .pure ?_
  exact fun _ _ near => ⟨rfl, near⟩

theorem evaluation_follows :
    Follows extent fork.Near evaluation evaluation (Same fun _ => near) :=
  terminated_follows ends Eq _ ((expression_tracks plain).andThen fun _ =>
    .pure fun _ _ near => ⟨rfl, near⟩) fun _ => rfl

theorem assignedOrEvaluated_follows (assigned : Bool) :
    Follows extent
      (fun place counterpart => fork.Near place counterpart ∧ place.seesIdentifier = true)
      (assignedOrEvaluated assigned) (assignedOrEvaluated assigned) (Same fun _ => near) := by
  cases assigned with
  | true =>
      refine terminated_follows ends Eq _ ((assignment_follows plain).andThen fun assignment =>
        .pure ?_) fun _ => rfl
      exact fun _ _ near => ⟨rfl, near⟩
  | false => exact (evaluation_follows ends plain).starting fun _ _ starts => starts.1

theorem named_follows :
    Follows extent
      (fun place counterpart => fork.Beside place counterpart ∧ place.seesIdentifier = true)
      named named (Same fun _ => near) := by
  refine .ask (Place.seesSecond · "(") (fun _ => rfl)
    (fun _ _ starts => .inl (starts.1.seesSecond_eq plain (by decide) (by decide))) ?_ ?_
  · refine terminated_follows ends Eq _ ?_ fun _ => rfl
    refine ((call_tracks plain (expression_tracks plain)).starting fun _ _ starts =>
      ⟨starts.1.1.near, starts.1.2⟩).andThen fun called => ?_
    cases called with
    | none => exact .pure fun _ _ near => ⟨rfl, near⟩
    | some called => exact .pure fun _ _ near => ⟨rfl, near⟩
  · refine .lookVia (fun cursor : Cursor =>
      (cursor.rest.tail.head?.bind AssignmentOperator.ofToken?).isSome)
      (fun place => place.tail.operator?.isSome) assignedOrEvaluated assignedOrEvaluated
      (fun cursor => ⟨cursor, rfl, rfl⟩) ?_ fun assigned => ?_
    · exact fun _ _ starts => .inl (congrArg Option.isSome
        (operator?_agrees plain (starts.1.1.step plain)))
    · exact (assignedOrEvaluated_follows ends plain assigned).starting fun _ _ starts =>
        ⟨starts.1.1.1.near, starts.1.1.2⟩

end

end Reading

end StackLang
