import StackLang.Proofs.Course.Statement
import StackLang.Proofs.Termination.Program

/-!
# Courses of programs

Reading a list of tokens as a program is a course inside of the nonterminal of programs.
-/

namespace StackLang.Reading

variable {before : Cursor}

/-! ## Classes and methods -/

theorem skipParameter_courses (before : Cursor) : Courses skipParameter before :=
  (skipTo_courses _ before).bind fun _ _ _ => .look _ rfl (.pure _)

theorem parameter_courses (complaint : Complaint) (typed : before.seesStart .type = true) :
    Courses (parameter complaint) before := by
  refine (typeName_courses typed).bind fun type? named _ => ?_
  refine (identifier?_courses named).bind fun name? middle _ => ?_
  cases name? with
  | none =>
      refine (complain_courses complaint middle).bind fun _ after _ => ?_
      exact (skipParameter_courses after).bind fun _ _ _ => .pure _
  | some name => exact .pure _

theorem nextParameter_courses (goOn : Bool) (before : Cursor) :
    Courses (nextParameter goOn) before := by
  refine .ite (fun _ => .pure none) fun _ => ?_
  refine (accept_courses (by decide) before).bind fun _ middle _ => .ite (fun _ => .pure none) ?_
  refine fun _ => .branch (middle.seesStart .type) rfl (fun typed => ?_) fun _ => ?_
  · exact (parameter_courses _ typed).bind fun _ _ _ => .pure _
  · refine (complain_courses _ middle).bind fun _ after _ => ?_
    exact (skipParameter_courses after).bind fun _ _ _ => .pure _

theorem extendParameters?_courses (found : List (Option (TypeName × Token)) × Bool)
    (before : Cursor) : Courses (extendParameters? found) before := by
  refine (nextParameter_courses found.2 before).bind fun next? _ _ => ?_
  cases next? <;> exact .pure _

theorem moreParameters_courses (first : Option (TypeName × Token) × Bool) (before : Cursor) :
    Courses (moreParameters first) before :=
  (refine_courses extendParameters?_courses _ before).bind fun _ _ _ => .pure _

theorem parameters_courses (before : Cursor) : Courses parameters before := by
  refine .rule (.branch _ rfl (fun _ => .pure []) fun _ => ?_)
  refine .expectUnless (fun middle typed => ?_) fun _ => .pure []
  refine (parameter_courses _ typed).bind fun first behind _ => ?_
  exact (moreParameters_courses first behind).bind fun _ _ _ => .pure _

theorem abandonMethod_courses (complaint : Complaint) (before : Cursor) :
    Courses (abandonMethod complaint) before :=
  abandon_courses complaint _ before

theorem closeParameters_courses (before : Cursor) : Courses closeParameters before := by
  refine (accept_courses (by decide) before).bind fun _ middle _ => .ite (fun _ => .pure true) ?_
  exact fun _ => (abandon_courses _ _ middle).bind fun _ _ _ => .look _ rfl (.pure _)

theorem methodBody_courses (before : Cursor) : Courses methodBody before := by
  refine (closeParameters_courses before).bind fun _ middle _ => .ite (fun _ => .pure []) fun _ => ?_
  refine (accept_courses (by decide) middle).bind fun _ inside _ => .ite (fun _ => ?_) fun _ => ?_
  · refine (body_courses inside).bind fun _ closing _ => ?_
    exact (demand_courses (by decide) (abandonMethod_courses _) closing).bind fun _ _ _ => .pure _
  · exact (abandonMethod_courses _ inside).bind fun _ _ _ => .pure []

theorem method_courses (typed : before.seesStart .type = true) : Courses method before := by
  have type : Courses typeName (before.enter .method) := typeName_courses typed
  refine .rule (type.bind fun type? named _ => ?_)
  cases type? with
  | none => exact .pure none
  | some type =>
      refine (identifier?_courses named).bind fun name? middle _ => ?_
      cases name? with
      | none => exact .pure none
      | some name =>
          refine (accept_courses (by decide) middle).bind fun _ opened _ => ?_
          refine (parameters_courses opened).bind fun _ behind _ => ?_
          exact (methodBody_courses behind).bind fun _ _ _ => .pure _

theorem skipMember_courses (complaint : Complaint) (before : Cursor) :
    Courses (skipMember complaint) before :=
  abandon_courses complaint _ before

theorem member?_courses (before : Cursor) : Courses member? before := by
  refine .look before.rest.isEmpty rfl (.look (before.sees "\x7d") rfl ?_)
  refine .ite (fun _ => .pure none) fun _ => .look (before.seesStart .type) rfl ?_
  refine .ite (fun _ => ?_) fun typed => ?_
  · exact (skipMember_courses _ before).bind fun _ _ _ => .pure _
  have typed : before.seesStart .type = true := by simpa using typed
  obtain ⟨isMethod, looked⟩ : ∃ isMethod, seesMethod.run before = (isMethod, before) := by
    have unmoved := (seesMethod_proceeds before).reached
    exact ⟨_, Prod.ext rfl unmoved⟩
  refine .branch isMethod looked (fun _ => ?_) fun _ => ?_
  · exact (method_courses typed).bind fun _ _ _ => .pure _
  · refine (declaration_courses typed).bind fun _ middle _ => ?_
    exact (demand_courses (by decide) (skipMember_courses _) middle).bind fun _ _ _ => .pure _

theorem className_courses (before : Cursor) : Courses className before :=
  (identifier?_courses before).bind fun _ middle _ =>
    .ite (fun _ => .pure true) fun _ => recover_courses _ _ middle

theorem classOf_courses (before : Cursor) : Courses classOf before := by
  refine (className_courses before).bind fun _ middle _ => .ite (fun _ => .pure []) fun _ => ?_
  refine (accept_courses (by decide) middle).bind fun _ inside _ => .ite (fun _ => ?_) fun _ => ?_
  · exact (complain_courses _ inside).bind fun _ _ _ => .pure []
  · refine (collect_courses member?_courses inside).bind fun _ closing _ => ?_
    exact (demand_courses (by decide) (complain_courses _) closing).bind fun _ _ _ => .pure _

/-! ## Programs -/

theorem seesProgram_courses (before : Cursor) : Courses seesProgram before :=
  .branch _ rfl (fun _ => .pure true) fun _ => .branch _ rfl (fun _ => .pure true) fun _ =>
    expect_courses _ _ before

/-- A program stands inside of its nonterminal. -/
theorem program_enters (before : Cursor) :
    ∃ inside, (before.enter .program).Course inside ∧
      (program.run before).2 = { inside with depth := before.depth } := by
  refine Courses.enters ((seesProgram_courses _).bind fun _ middle _ => .ite (fun _ => .pure _) ?_)
  intro _
  refine (accept_courses (by decide) middle).bind fun _ inside _ => .ite (fun _ => ?_) fun _ => ?_
  · refine (body_courses inside).bind fun _ closing _ => ?_
    exact (demand_courses (by decide) (abandon_courses _ _) closing).bind fun _ _ _ => .pure _
  refine (accept_courses (by decide) inside).bind fun _ start _ => .ite (fun _ => ?_) fun _ => ?_
  · exact (classOf_courses start).bind fun _ _ _ => .pure _
  · exact (body_courses start).bind fun _ _ _ => .pure _

theorem checkEnd_trace (before : Cursor) : (checkEnd.run before).2.trace = before.trace := by
  have run : checkEnd.run before =
      (if !before.rest.isEmpty then complain .trailingTokens else pure ()).run before := rfl
  rw [run]
  split <;> rfl

/-- Whatever the tokens are, all that reading them logs stands inside of a program. -/
theorem wholeProgram_enters (before : Cursor) :
    ∃ inside, (before.enter .program).Course inside ∧
      (wholeProgram.run before).2.trace = inside.trace := by
  obtain ⟨inside, course, left⟩ := program_enters before
  refine ⟨inside, course, ?_⟩
  calc (wholeProgram.run before).2.trace
      = (checkEnd.run (program.run before).2).2.trace := rfl
    _ = (program.run before).2.trace := checkEnd_trace _
    _ = inside.trace := by rw [left]

end StackLang.Reading
