import StackLang.Proofs.Recovery.Statement

/-!
# Programs around a missing semicolon

A semicolon that is missing behind a field of a class costs a complaint too, and members
are read on from the next type or from the end of the class.  If something else stands
there no member can be read, and the input with the semicolon is no program either.
-/

namespace StackLang

open Terminal (Opens allApart)

/-- What stands where a member of a class starts, or where the members end. -/
def memberMarks : List Terminal :=
  .endOfInput :: .word "\x7d" :: Nonterminal.type.first

/-- Whether no member starts and the members do not end. -/
def Place.memberless (place : Place) : Bool :=
  !place.seesAny memberMarks || place.seesStart .type && place.tail.sees ";"

theorem Place.memberless_of_unmarked {place : Place} (unmarked : place.seesAny memberMarks = false) :
    place.memberless = true := by
  rw [memberless, unmarked]
  rfl

/-- The members end at a closing brace. -/
theorem Place.memberless_of_closed {place : Place} (seen : place.sees "\x7d" = true) :
    place.memberless = false := by
  have closes : Opens [.word "\x7d"] place.rest := (place.seesAny_word "\x7d").trans seen
  have marked : place.seesAny memberMarks = true := closes.mono (by decide)
  have untyped : place.seesStart .type = false := closes.anyAccepts_eq_false (by decide)
  rw [memberless, marked, untyped]
  rfl

/-- Places behind a member: they belong together, or the first run cannot go on. -/
def Gap.Onward (gap : Gap) (one : Place) (other : Stance) : Prop :=
  gap.Near one other ∨
    one.rest = gap.back ∧ one.memberless = true ∧ other.rest.length ≤ gap.back.length

/-- Where the first run has read something the second one has. -/
theorem Gap.Onward.shrinks {gap : Gap} {one after : Place} {other last : Stance}
    (beside : gap.Beside one other) (onward : gap.Onward after last)
    (shorter : after.rest.length < one.rest.length) :
    last.rest.length < other.rest.length := by
  rcases onward with near | ⟨rest, _, short⟩
  · exact near.shrinks beside shorter
  rcases beside with beside | ⟨_, behind⟩
  · obtain ⟨length, _⟩ := fork_length beside.near
    have further : gap.back.length + 1 < one.rest.length := beside.clear.length_lt id
    omega
  · rw [rest] at shorter
    omega

namespace Reading

variable {gap : Gap} {extent : Extent}

/-! ## Fields -/

/-- Where a member starts or the members end nothing is skipped. -/
theorem skipMember_run {cursor : Cursor} (complaint : Complaint)
    (marked : cursor.place.seesAny memberMarks = true) :
    (skipMember complaint).run cursor =
      ((), { cursor with errors := cursor.errors.push ⟨complaint, cursor.next?⟩ }) := by
  let complained : Cursor :=
    { cursor with errors := cursor.errors.push ⟨complaint, cursor.next?⟩ }
  change (skipTo fun next => Nonterminal.type.startsWith next ||
    (Terminal.word "\x7d").accepts next).run complained = ((), complained)
  refine skipTo_run_of_stop fun token next => ?_
  have next : cursor.place.next? = some token := next
  rw [Place.seesAny, next, memberMarks, Terminal.anyAccepts, List.any_cons, List.any_cons,
    Bool.or_eq_true, Bool.or_eq_true] at marked
  rcases marked with ended | closes | types
  · contradiction
  · rw [closes, Bool.or_true]
  · exact Bool.or_eq_true_iff.mpr (.inl types)

theorem gap_fieldEnd :
    Follows extent gap.Near (demand ";" (skipMember .variableEnd))
      (demand ";" (skipMember .variableEnd)) (Same fun _ => gap.Onward) := by
  refine gap_demand (skipMember_repairs _) (fun _ _ => .inl) fun cursor rest silent => ?_
  cases marked : Terminal.anyAccepts memberMarks gap.back.head? with
  | true =>
      have marked : cursor.place.seesAny memberMarks = true := by
        rwa [Place.seesAny, Place.next?, Cursor.place, rest]
      rw [skipMember_run _ marked]
      exact .inl (gap_joins _ rest silent)
  | false =>
      have unmarked : Place.seesAny ⟨gap.back, cursor.switches⟩ memberMarks = false := marked
      have moved := (Moves.of_repairs (skipMember_repairs .variableEnd)) cursor
      exact .inr ⟨rfl, Place.memberless_of_unmarked unmarked, rest ▸ moved.length_le⟩

theorem field_shortens : Shortens field := by
  intro before result after goes
  obtain ⟨_, middle, front, back⟩ := goes.of_bind declaration_moves fun _ =>
    (demand_moves ";" (skipMember_repairs _)).bind fun _ => .pure _
  have shorter := demand_shortens (skipMember_repairs _) (.pure _) _ _ _ back
  exact Nat.lt_of_lt_of_le shorter (front.advances declaration_moves).length_le

theorem gap_field :
    Follows extent gap.Beside field field fun one other =>
      extent.Past (Related Member.Alike gap.Onward one other) := by
  have declared : Follows extent gap.Beside declaration declaration
      (Related (Option.Rel Declaration.Alike) gap.Near) :=
    gap_both fun _ atStatement _ => (declaration_agrees (atStatement.plain _)).giving
      fun _ _ _ _ reached => ⟨reached.1.1, reached.2⟩
  have fields : Follows extent gap.Beside field field (Related Member.Alike gap.Onward) := by
    refine declared.bindRelated Declaration.Alike.rel_refl fun one other same => ?_
    refine gap_fieldEnd.andThen fun _ => .pure fun _ _ onward => ⟨?_, onward⟩
    cases same with
    | none => exact .skipped
    | some alike => exact .field alike
  exact fields.shortening field_shortens fun beside reached => reached.2.shrinks beside

/-! ## Members -/

/-- What neither starts a member nor ends the members is no member. -/
theorem unmarked_fails : FailsFrom (fun place => place.seesAny memberMarks = false) member? := by
  intro before next? after unmarked goes
  have unseen {terminals : List Terminal} (within : terminals ⊆ memberMarks) :
      before.place.seesAny terminals = false :=
    Bool.eq_false_iff.mpr fun seen => nomatch unmarked.symm.trans (Opens.mono seen within)
  have ends : atEnd.run before = (false, before) :=
    congrArg (·, before) (before.place.seesAny_endOfInput.symm.trans (unseen (by decide)))
  have closes : (sees "\x7d").run before = (false, before) :=
    congrArg (·, before) ((before.place.seesAny_word _).symm.trans (unseen (by decide)))
  have types : seesType.run before = (false, before) := congrArg (·, before) (unseen (by decide))
  have goes := ((goes.of_look ends).of_look closes).of_look types
  exact Fails.giveUp _ _ _ _ _ _ trivial goes

/-- Behind the type of a declaration stands its name. -/
theorem named_of_declaration {before after : Cursor} {result : Option Declaration}
    (goes : Goes declaration before result after) (types : before.place.seesStart .type = true) :
    before.place.tail.seesIdentifier = true := by
  obtain ⟨⟨tokens, consumed, predicted⟩, _⟩ :=
    goes.given (declaration_obeys before (List.Subset.refl _)) types
  obtain ⟨_, _, rfl, typed, others⟩ := predicted.of_category.of_next
  obtain ⟨_, _, rfl, named, _⟩ := others.of_next
  obtain ⟨type, _, rfl, _, _⟩ := typed.of_category.of_oneOf
  obtain ⟨name, rfl, accepted⟩ := named.of_terminal
  rw [Place.seesIdentifier, Place.next?, Place.tail, Cursor.place, consumed.rest]
  exact accepted

/-- A type without a name is no member. -/
theorem unnamed_fails :
    FailsFrom (fun place => place.seesStart .type = true ∧ place.tail.sees ";" = true) member? := by
  rintro before next? after ⟨typed, ended⟩ goes
  have unnamed : before.place.tail.seesIdentifier = false := by
    have opens : Opens [.word ";"] before.place.tail.rest := (Place.seesAny_word _ _).trans ended
    rw [← Place.seesAny_identifier]
    exact opens.anyAccepts_eq_false (by decide)
  have opens : Opens Nonterminal.type.first before.rest := typed
  have called : seesMethod.run before = (false, before) := by
    rw [seesMethod_run, Bool.eq_false_iff.mpr fun seen =>
      nomatch unnamed.symm.trans (Place.seesIdentifier_of_seesMethod seen)]
  have goes := goes.of_look (asks_atEnd.run_of_apart opens (by decide))
  have goes := goes.of_look ((asks_sees _).run_of_apart opens (by decide))
  have goes := goes.of_look ((asks_seesAny _).run_of_within opens (List.Subset.refl _))
  have goes := goes.of_look called
  obtain ⟨_, _, front, _⟩ := Goes.of_bind goes declaration_moves fun _ =>
    (demand_moves ";" (skipMember_repairs _)).bind fun _ => .pure _
  exact nomatch unnamed.symm.trans (named_of_declaration front typed)

theorem member?_fails : FailsFrom (fun place => place.memberless = true) member? := by
  intro before next? after memberless goes
  rcases Bool.or_eq_true_iff.mp memberless with unmarked | unnamed
  · exact unmarked_fails _ _ _ (by simpa using unmarked) goes
  · exact unnamed_fails _ _ _ (Bool.and_eq_true_iff.mp unnamed) goes

theorem gap_member? : Follows.Rounds extent gap.Onward Member.Alike member? member? := by
  have congruence := Program.alike_congruence
  have closing : Follows extent.behind gap.Near closeParameters closeParameters
      (Same fun _ => gap.Near) :=
    gap_same fun _ atStatement _ => closeParameters_follows (atStatement.plain _)
  have heads : Follows extent
      (fun place counterpart => gap.Beside place counterpart ∧ place.seesMethod = true)
      methodHead methodHead fun one other place counterpart =>
        one = other ∧ extent.Past gap.Near place counterpart := by
    have sides : Follows extent
        (gap.On fun fork place counterpart =>
          fork.Beside place counterpart ∧ place.seesMethod = true)
        methodHead methodHead (Related Eq (gap.On fun fork => extent.Past fork.Near)) :=
      gap_both fun _ atStatement _ => methodHead_follows atStatement
    refine sides.imp (fun _ _ starts => starts.1.and starts.2) fun _ _ _ _ reached => ?_
    exact ⟨reached.1, reached.2.imp fun _ _ past => past.1, reached.2.elim fun _ _ past => past.2⟩
  have methods := method_follows congruence heads (methodBody_follows congruence gap_body
    (gap_near_shares (by decide)) (gap_near_shares (by decide)) closing)
  let starts (place : Place) (counterpart : Stance) : Prop :=
    gap.On Fork.Clear place counterpart ∧ place.memberless = false
  have opening : Opening starts
      (fun place counterpart => gap.Beside place counterpart ∧ place.tail.sees ";" = false)
      Nonterminal.type.first := by
    rintro place counterpart ⟨clear, member⟩ seen
    have beside : gap.Beside place counterpart := clear.imp fun _ _ clear => clear.beside rfl seen
    have named := (Bool.or_eq_false_iff.mp member).2
    have types : place.seesStart .type = true := seen
    rw [types, Bool.true_and] at named
    exact ⟨beside.next?_eq, beside, named⟩
  have asks (place : Place) (counterpart : Stance)
      (starts : gap.Beside place counterpart ∧ place.tail.sees ";" = false) :
      place.seesMethod = counterpart.seesMethod := by
    obtain ⟨ahead | ⟨behind, _⟩, unended⟩ := starts
    · refine (ahead.seesMethod_eq (gap.fork_atStatement.plain 0)).resolve_left fun apart => ?_
      exact nomatch unended.symm.trans (Gap.sees_of_parted apart.2)
    · exact (behind.seesMethod_eq (Fork.joined_atStatement.plain 0)).resolve_left fun apart =>
        apart.2.2.1
  have rounds : Follows.Round extent starts gap.Onward gap.Onward Member.Alike member? member? :=
    member?_follows congruence (fun _ _ starts => starts.1.elim fun _ _ clear => clear.isEmpty_eq)
      (fun _ _ starts => starts.1.elim fun _ _ clear => clear.sees_eq _)
      (fun _ _ starts => .inl (starts.1.imp fun _ _ clear => clear.near)) (fun _ _ => .inl) opening
      asks (methods.starting fun _ _ starts => ⟨starts.1.1, starts.2⟩)
      (gap_field.starting fun _ _ starts => starts.1.1)
  refine rounds.orFails member?_fails fun place counterpart onward => ?_
  rcases onward with near | ⟨_, memberless, _⟩
  · rcases near.parted_or_clear with parted | clear
    · have unmarked : place.seesAny memberMarks = false :=
        (gap.parted_opens parted).anyAccepts_eq_false (by decide)
      exact .inl (Place.memberless_of_unmarked unmarked)
    · cases member : place.memberless with
      | true => exact .inl rfl
      | false => exact .inr ⟨clear, member⟩
  · exact .inl memberless

/-! ## Programs -/

theorem gap_classOf :
    Follows extent gap.Near classOf classOf (Related (List.Forall₂ Member.Alike) gap.Near) := by
  have names : Follows extent gap.Near className className (Same fun _ => gap.Near) :=
    gap_same fun _ atStatement _ => className_tracks (atStatement.plain _)
  have members : Follows extent gap.Onward (collect member?) (collect member?)
      (Related (List.Forall₂ Member.Alike) gap.Onward) :=
    Follows.collect _ fun _ _ => gap_member?
  refine classOf_follows Program.alike_congruence names (gap_near_shares (by decide))
    (members.starting fun _ _ => .inl) ?_
  rintro place counterpart (near | ⟨_, memberless, _⟩) small otherSmall seen
  · exact gap_near_shares (by decide) _ _ near small otherSmall seen
  · exact nomatch memberless.symm.trans (Place.memberless_of_closed seen)

theorem gap_seesProgram :
    Follows extent gap.Beside seesProgram seesProgram
      (Same fun able place counterpart => able = true ∧ gap.Beside place counterpart) := by
  have able : Follows extent gap.Beside (pure true) (pure true)
      (Same fun able place counterpart => able = true ∧ gap.Beside place counterpart) :=
    .pure fun _ _ beside => ⟨rfl, rfl, beside⟩
  refine .ask (fun place => place.rest.isEmpty) (fun _ => rfl)
    (fun _ _ beside => .inl (Place.isEmpty_congr beside.next?_eq))
    (able.starting fun _ _ => And.left) ?_
  refine .ask (Place.seesAny · (.word "class" :: openers)) (fun _ => rfl)
    (fun _ _ starts => .inl (Place.seesAny_congr starts.1.next?_eq _))
    (able.starting fun _ _ starts => starts.1.1) ?_
  refine .requireAny (fun _ _ starts _ => ⟨starts.1.1.next?_eq, starts.1.1⟩) (fun _ => rfl)
    (able.starting fun _ _ => And.left) (recover_fails _ _) (recover_moves _ _) (recover_moves _ _)

theorem gap_program :
    Follows extent gap.Beside program program (Related Program.Alike gap.Near) := by
  have shares {symbol : String}
      (apart : allApart (Nonterminal.words ["for", ";"]) [.word symbol] = true) :
      Shares extent gap.Beside gap.Near symbol :=
    fun _ _ beside => gap_near_shares apart _ _ beside.near
  have lacks (symbol : String) : Lacks gap.Beside symbol := fun _ _ beside unseen => by
    rwa [Place.sees, ← beside.next?_eq]
  exact program_follows Program.alike_congruence gap_seesProgram (shares (by decide)) (lacks _)
    (shares (by decide)) (lacks _) (fun _ _ => Gap.Beside.near) gap_body
    (gap_near_shares (by decide)) gap_classOf

/-- Where the input with the semicolon is used up so is the other one, and there has been one
complaint about it. -/
theorem gap_ends {place : Place} {counterpart : Stance} (near : gap.Near place counterpart)
    (ended : place.rest.isEmpty = true) :
    counterpart.rest.isEmpty = true ∧ counterpart.complaints = 1 := by
  rcases near with ahead | ⟨behind, _⟩
  · have further := (Gap.fork_length ahead).2
    rw [List.isEmpty_iff.mp ended] at further
    exact absurd further (Nat.not_lt_zero _)
  · have length := Gap.joined_length behind
    rw [List.isEmpty_iff.mp ended] at length
    exact ⟨List.isEmpty_iff_length_eq_zero.mpr length.symm, behind.counted.2⟩

/-- Both inputs are used up and read alike, with one complaint about the second one. -/
theorem gap_wholeProgram :
    Follows extent gap.Beside wholeProgram wholeProgram fun one other _ counterpart =>
      one.Alike other ∧ counterpart.complaints = 1 :=
  (wholeProgram_follows Program.alike_congruence gap_program fun _ _ near ended =>
    (gap_ends near ended).1).giving fun _ _ _ _ ⟨alike, near, ended⟩ =>
      ⟨alike, (gap_ends near ended).2⟩

end Reading

end StackLang
