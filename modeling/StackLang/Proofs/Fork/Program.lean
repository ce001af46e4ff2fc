import StackLang.Proofs.Fork.Body

/-!
# Programs at a fork

Programs are read in step if their lists of statements are.  A fork in front of a loop may
stand anywhere in a program where a list of statements stands.  Members of a class, their
heads and their parameters are read alike, as no loop can be read among them.
-/

namespace StackLang

open Terminal (Opens allApart)
open Nonterminal (words)

namespace Fork

/-- A fork where the first input has a loop or a semicolon and on the second one a statement
clearly starts or a list of statements ends. -/
structure AtStatement (fork : Fork) : Prop where
  tail : ∀ {token : Token} {tokens : List Token}, fork.fits (token :: tokens) → fork.fits tokens
  opens : Opens (words ["for", ";"]) fork.one
  otherOpens : Opens resumers fork.other

/-- A fork between statements where the first input has a loop. -/
structure AtLoop (fork : Fork) : Prop where
  listed : fork.Listed
  tail : ∀ {token : Token} {tokens : List Token}, fork.fits (token :: tokens) → fork.fits tokens
  loops : Opens [.word "for"] fork.one
  otherLoops : Opens loopStops fork.other

variable {fork : Fork} {one : Place} {other : Stance}

theorem AtStatement.plain (atStatement : fork.AtStatement) (bound : Nat) : fork.Plain bound :=
  ⟨atStatement.tail, atStatement.opens.mono (by decide), atStatement.otherOpens.mono (by decide),
    .inr ⟨atStatement.opens, atStatement.otherOpens⟩⟩

theorem AtLoop.firm (atLoop : fork.AtLoop) (bound : Nat) : fork.Firm bound :=
  ⟨atLoop.tail, atLoop.loops.mono (by decide), atLoop.otherLoops.mono (by decide),
    .inr ⟨atLoop.loops, atLoop.otherLoops⟩⟩

theorem AtLoop.atStatement (atLoop : fork.AtLoop) : fork.AtStatement :=
  ⟨atLoop.tail, atLoop.loops.mono (by decide), atLoop.otherLoops.mono (by decide)⟩

/-- What opens no loop is seen on both inputs or on none. -/
theorem AtLoop.seesAny_eq (atLoop : fork.AtLoop) (near : fork.Near one other)
    {terminals : List Terminal} (apart : allApart [.word "for"] terminals = true)
    (otherApart : allApart loopStops terminals = true) :
    one.seesAny terminals = other.seesAny terminals :=
  near.seesAny_eq atLoop.loops atLoop.otherLoops apart otherApart

theorem AtLoop.sees_eq (atLoop : fork.AtLoop) (near : fork.Near one other) {symbol : String}
    (apart : allApart [.word "for"] [.word symbol] = true)
    (otherApart : allApart loopStops [.word symbol] = true) :
    one.sees symbol = other.sees symbol := by
  rw [← Place.seesAny_word, ← Place.seesAny_word]
  exact atLoop.seesAny_eq near apart otherApart

theorem AtLoop.isEmpty_eq (atLoop : fork.AtLoop) (near : fork.Near one other) :
    one.rest.isEmpty = other.rest.isEmpty := by
  rw [← Place.seesAny_endOfInput, ← Place.seesAny_endOfInput]
  exact atLoop.seesAny_eq near (by decide) (by decide)

/-- What stands in front of no statement of a list is not in front of the fork. -/
theorem Listed.unfit (listed : fork.Listed) {terminals : List Terminal} {token : Token}
    (accepted : Terminal.anyAccepts terminals (some token) = true)
    (apart : allApart listMarks terminals = true) :
    ¬fork.fits [token] := by
  intro fits
  exact nomatch accepted.symm.trans ((listed.marks token fits).anyAccepts_eq_false apart)

end Fork

/-- Whether a method is next. -/
def Place.seesMethod (place : Place) : Bool :=
  match place.rest with
  | type :: name :: parenthesis :: _ =>
      Nonterminal.type.startsWith (some type) && name.isIdentifier && parenthesis.spells "("
  | _ => false

theorem Place.seesMethod_eq (place : Place) :
    place.seesMethod =
      (place.seesStart .type && place.tail.seesIdentifier && place.tail.tail.sees "(") := by
  obtain ⟨rest, count⟩ := place
  match rest with
  | [] => rfl
  | [type] => exact (Bool.and_false _).symm
  | [type, name] => exact (Bool.and_false _).symm
  | type :: name :: parenthesis :: others => rfl

/-- Behind the type of a method stands its name. -/
theorem Place.seesIdentifier_of_seesMethod {place : Place} (seen : place.seesMethod = true) :
    place.tail.seesIdentifier = true := by
  rw [seesMethod_eq, Bool.and_eq_true, Bool.and_eq_true] at seen
  exact seen.1.2

/-- A method is next on both inputs or on none, unless the fork is behind its type. -/
theorem Fork.Beside.seesMethod_eq {fork : Fork} {bound : Nat} {one : Place} {other : Stance}
    (beside : fork.Beside one other) (plain : fork.Plain bound) :
    (∃ token, one.next? = some token ∧ fork.fits [token]) ∧ fork.Parted one.tail other.tail ∨
      one.seesMethod = other.seesMethod := by
  refine (beside.step_cases plain).symm.imp id fun behind => ?_
  have start : one.seesStart .type = other.seesStart .type := beside.clear.seesAny_eq _
  have name : one.tail.seesIdentifier = other.toPlace.tail.seesIdentifier :=
    behind.seesIdentifier_eq
  rw [Place.seesMethod_eq, Place.seesMethod_eq, start, name]
  cases named : other.toPlace.tail.seesIdentifier with
  | false => rw [Bool.and_false, Bool.false_and, Bool.false_and]
  | true =>
      have seen : one.tail.seesAny [.identifier] = true :=
        (Place.seesAny_identifier _).trans (name.trans named)
      have third : one.tail.tail.sees "(" = other.toPlace.tail.tail.sees "(" :=
        ((behind.beside rfl seen).step plain).sees_eq plain (by decide) (by decide)
      rw [third]

namespace Reading

variable {fork : Fork} {extent : Extent}

theorem seesMethod_run (cursor : Cursor) :
    seesMethod.run cursor = (cursor.place.seesMethod, cursor) := by
  change StateT.run (match cursor.rest with
    | type :: name :: parenthesis :: _ => _
    | _ => _) cursor = _
  rw [Place.seesMethod]
  change _ = (match cursor.rest with
    | type :: name :: parenthesis :: _ => _
    | _ => _, cursor)
  split <;> rfl

/-! ## Parameters -/

theorem skipParameter_moves : Moves skipParameter :=
  (Moves.of_gives (skipTo_gives _)).bind fun _ => looks fun _ => rfl

/-- A complaint about a parameter. -/
theorem lostParameter_fails (complaint : Complaint) :
    Fails (do complain complaint; return (none, ← skipParameter) :
      Reading (Option (TypeName × Token) × Bool)) :=
  (Fails.of_repairs (complain_repairs _)).bind (complain_moves _) fun _ =>
    skipParameter_moves.bind fun _ => .pure _

theorem lostParameter_moves (complaint : Complaint) :
    Moves (do complain complaint; return (none, ← skipParameter) :
      Reading (Option (TypeName × Token) × Bool)) :=
  (complain_moves _).bind fun _ => skipParameter_moves.bind fun _ => .pure _

section

variable (plain : fork.Plain extent.bound)

include plain

theorem parameter_follows (complaint : Complaint) :
    Follows extent fork.Beside (Reading.parameter complaint) (Reading.parameter complaint)
      (Same fun _ => fork.Near) := by
  refine (typeName_follows plain).andThen fun type? => ?_
  refine .requireName plain (fun name => .pure fun _ _ past => ⟨rfl, past.1⟩)
    (lostParameter_fails _) (lostParameter_moves _) (lostParameter_moves _)

theorem nextParameter_follows (goOn : Bool) :
    Follows.Rounds extent fork.Near Eq (nextParameter goOn) (nextParameter goOn) := by
  have fails : Fails (do complain .parameterType; return some (none, ← skipParameter) :
      Reading (Option (Option (TypeName × Token) × Bool))) :=
    (Fails.of_repairs (complain_repairs _)).bind (complain_moves _) fun _ =>
      skipParameter_moves.bind fun _ => .pure _
  have moves : Moves (do complain .parameterType; return some (none, ← skipParameter) :
      Reading (Option (Option (TypeName × Token) × Bool))) :=
    (complain_moves _).bind fun _ => skipParameter_moves.bind fun _ => .pure _
  refine .ite (.pure fun _ _ near => ⟨.none, near⟩) ?_
  refine .acceptUnless (near_shares plain (by decide))
    (near_lacks plain (by decide) (by decide)) ?_ (.pure fun _ _ starts => ⟨.none, starts.1⟩)
  have behind : fork.Plain extent.behind.bound := plain
  refine Follows.starting (Follows.Round.behind (?_ : Follows extent.behind fork.Near _ _ _))
    fun _ _ past => ⟨past.1.near, past.2⟩
  refine .requireStart (near_opening behind (by decide) rfl) ?_ fails moves moves
  refine ((parameter_follows behind _).starting fun _ _ starts => starts.1).andThen
    fun parameter => .pure ?_
  exact fun _ _ near => ⟨⟨rfl, .some rfl⟩, near⟩

theorem extendParameters?_follows (found : List (Option (TypeName × Token)) × Bool) :
    Follows.Rounds extent fork.Near Eq (extendParameters? found) (extendParameters? found) := by
  refine Follows.bind (nextParameter_follows plain found.2) fun next? answer? => ⟨?_, ?_, ?_⟩
  · cases next? <;> exact .pure _
  · cases answer? <;> exact .pure _
  rintro before counterpart result answer after last ⟨same, places⟩ _ _ goes otherRuns _
  cases same with
  | none =>
      obtain ⟨rfl, rfl⟩ := goes.of_pure
      obtain ⟨rfl, rfl⟩ := otherRuns.of_pure
      exact ⟨.none, places⟩
  | some same =>
      cases same
      obtain ⟨rfl, rfl⟩ := goes.of_pure
      obtain ⟨rfl, rfl⟩ := otherRuns.of_pure
      exact ⟨.some rfl, places⟩

theorem moreParameters_tracks (first : Option (TypeName × Token) × Bool) :
    Tracks fork extent (moreParameters first) (moreParameters first) := by
  refine (Follows.refine (fun narrower covers value =>
    extendParameters?_follows (plain.mono covers.bound) value) _).andThen fun found => .pure ?_
  exact fun _ _ near => ⟨rfl, near⟩

end

theorem parameters_tracks (atStatement : fork.AtStatement) :
    Tracks fork extent parameters parameters := by
  have plain := atStatement.plain extent.bound
  refine .rule (.ask (Place.sees · ")") (fun _ => rfl) (fun place counterpart near => .inl ?_)
    (.pure fun _ _ starts => ⟨rfl, starts.1⟩) ?_)
  · rw [← Place.seesAny_word, ← Place.seesAny_word]
    exact near.seesAny_eq atStatement.opens atStatement.otherOpens (by decide) (by decide)
  refine Follows.starting ?_ fun _ _ starts => starts.1
  refine .expectUnless (near_opening plain (by decide) rfl) ?_ (.pure _) (.pure _)
  refine ((parameter_follows plain _).starting fun _ _ starts => starts.1).andThen fun first => ?_
  refine (moreParameters_tracks plain first).andThen fun found => .pure ?_
  exact fun _ _ near => ⟨rfl, near⟩

/-! ## Methods -/

/-- What a method says in front of its body: its type, its name and its parameters. -/
abbrev MethodHead : Type := TypeName × Token × List (TypeName × Token)

/-- Read a method up to its parameters. -/
def methodHead : Reading (Option MethodHead) := do
  let some returnType ← typeName | return none
  let some name ← identifier? | return none
  let _ ← accept "("
  return some (returnType, name, ← parameters)

/-- Behind its head a method has a body. -/
theorem method_eq : method = rule .method (do
    let some (returnType, name, parameters) ← methodHead | return none
    return some ⟨returnType, name, parameters, ← methodBody⟩) := by
  refine congrArg (rule .method) ?_
  rw [methodHead, bind_assoc]
  refine bind_congr fun returnType? => ?_
  cases returnType? with
  | none => rfl
  | some returnType =>
      simp only [bind_assoc]
      refine bind_congr fun name? => ?_
      cases name? with
      | none => rfl
      | some name => simp only [bind_assoc, pure_bind]

theorem methodHead_follows (atStatement : fork.AtStatement) :
    Follows extent
      (fun place counterpart => fork.Beside place counterpart ∧ place.seesMethod = true)
      methodHead methodHead fun one other place counterpart =>
        one = other ∧ extent.Past fork.Near place counterpart := by
  have plain := atStatement.plain extent.bound
  have typed : Follows extent
      (fun place counterpart => fork.Beside place counterpart ∧ place.seesMethod = true)
      typeName typeName (Same fun _ => extent.Past fun place counterpart =>
        fork.Near place counterpart ∧ place.seesIdentifier = true) :=
    typeName_reaches (fun _ _ starts => starts.1) fun _ _ starts small otherSmall =>
      have ⟨near, shorter⟩ := starts.1.past plain small otherSmall
      ⟨⟨near, Place.seesIdentifier_of_seesMethod starts.2⟩, shorter⟩
  refine typed.andThen fun type? => ?_
  refine (Follows.past (?_ : Follows extent.behind _ _ _ (Same fun _ => fork.Near))).giving
    fun _ _ _ _ past => ⟨past.1.1, past.1.2, past.2⟩
  cases type? with
  | none => exact .pure fun _ _ starts => ⟨rfl, starts.1⟩
  | some type =>
      have plain := atStatement.plain extent.behind.bound
      refine .bindSome (identifier?_follows plain) (fun name => .loosely ?_) (.pure _) (.pure _)
      refine (accept_tracks plain (by decide) (by decide) (by decide)).andThen fun _ => ?_
      exact (parameters_tracks atStatement).andThen fun parameters =>
        .pure fun _ _ near => ⟨rfl, near⟩

theorem closeParameters_follows (plain : fork.Plain extent.bound) :
    Follows extent fork.Near closeParameters closeParameters (Same fun _ => fork.Near) := by
  have fails : Fails (do
      abandon .methodClose fun next =>
        (Terminal.word "\x7b").accepts next || Nonterminal.method.endsBefore next
      sees "\x7b") :=
    (Fails.of_repairs (abandon_repairs _ _)).bind (abandon_moves _ _) fun _ => looks fun _ => rfl
  have moves := (abandon_moves .methodClose fun next =>
    (Terminal.word "\x7b").accepts next || Nonterminal.method.endsBefore next).bind fun _ =>
      (looks fun _ => rfl : Moves (sees "\x7b"))
  exact .acceptAble (near_shares plain (by decide))
    (.pure fun _ _ past => ⟨rfl, past.1.near⟩) fails moves moves

theorem className_tracks (plain : fork.Plain extent.bound) :
    Tracks fork extent className className :=
  .requireName plain (fun _ => .pure fun _ _ past => ⟨rfl, past.1⟩) (recover_fails _ _)
    (recover_moves _ _) (recover_moves _ _)

/-! ## Programs in step -/

/-- Relations between methods, members and programs that hold if the statements in them are
related. -/
structure ProgramCongruence (all : List Statement → List Statement → Prop)
    (member : Member → Member → Prop) (program : Program → Program → Prop) : Prop where
  refl : ∀ statements, all statements statements
  memberRefl : ∀ one, member one one
  method : ∀ type name parameters {body otherBody}, all body otherBody →
    member (.method ⟨type, name, parameters, body⟩) (.method ⟨type, name, parameters, otherBody⟩)
  statements : ∀ {body otherBody}, all body otherBody →
    program (.statements body) (.statements otherBody)
  members : ∀ {found others}, List.Forall₂ member found others →
    program (.members found) (.members others)

namespace ProgramCongruence

variable {all : List Statement → List Statement → Prop} {member : Member → Member → Prop}
  {rel : Program → Program → Prop} (congruence : ProgramCongruence all member rel)

include congruence

theorem membersRefl (members : List Member) : List.Forall₂ member members members :=
  List.forall₂_same.mpr fun one _ => congruence.memberRefl one

theorem programRefl (program : Program) : rel program program := by
  cases program with
  | statements body => exact congruence.statements (congruence.refl body)
  | members members => exact congruence.members (congruence.membersRefl members)

end ProgramCongruence

/-- Methods that are related as members. -/
abbrev RelatedMethods (member : Member → Member → Prop) : Option Method → Option Method → Prop :=
  Option.Rel fun one other => member (.method one) (.method other)

section

variable {start beside near reached : Place → Stance → Prop}
  {all : List Statement → List Statement → Prop} {member : Member → Member → Prop}
  {rel : Program → Program → Prop} (congruence : ProgramCongruence all member rel)

include congruence

theorem methodBody_follows (bodies : Follows extent near body body (Related all near))
    (opens : Shares extent near near "\x7b") (closes : Shares extent near near "\x7d")
    (ends : Follows extent near closeParameters closeParameters (Same fun _ => near)) :
    Follows extent near methodBody methodBody (Related all near) := by
  refine ends.andThen fun able => ?_
  cases able with
  | false => exact .pure fun _ _ near => ⟨congruence.refl _, near⟩
  | true =>
      refine .acceptAble opens ?_ (.giveUp _ _ _) (giveUp_moves _ _ _) (giveUp_moves _ _ _)
      refine bodies.bindRelated congruence.refl fun statements others same => ?_
      exact (demand_follows closes (abandonMethod_repairs _)).andThen fun _ =>
        .pure fun _ _ near => ⟨same, near⟩

theorem method_follows
    (heads : Follows extent start methodHead methodHead fun one other place counterpart =>
      one = other ∧ extent.Past near place counterpart)
    (bodies : Follows extent.behind near methodBody methodBody (Related all near)) :
    Follows extent start method method fun one other =>
      extent.Past (Related (RelatedMethods member) near one other) := by
  rw [method_eq]
  refine .rule (Follows.andThen heads fun head? => Follows.past ?_)
  cases head? with
  | none => exact .pure fun _ _ near => ⟨.none, near⟩
  | some head =>
      exact bodies.bindRelated congruence.refl fun body otherBody same =>
        .pure fun _ _ near => ⟨.some (congruence.method _ _ _ same), near⟩

/-- Read a field of a class. -/
def field : Reading Member := do
  let declaration ← declaration
  demand ";" (skipMember .variableEnd)
  return (declaration.map Member.field).getD .skipped

/-- Where the same kind of member is next on both inputs it is read on both. -/
theorem member?_follows
    (ends : ∀ place counterpart, start place counterpart →
      place.rest.isEmpty = counterpart.rest.isEmpty)
    (closes : ∀ place counterpart, start place counterpart →
      place.sees "\x7d" = counterpart.sees "\x7d")
    (ended : ∀ place counterpart, start place counterpart → reached place counterpart)
    (onward : ∀ place counterpart, near place counterpart → reached place counterpart)
    (opening : Opening start beside Nonterminal.type.first)
    (asks : ∀ place counterpart, beside place counterpart →
      place.seesMethod = counterpart.seesMethod)
    (methods : Follows extent
      (fun place counterpart => beside place counterpart ∧ place.seesMethod = true) method method
      fun one other => extent.Past (Related (RelatedMethods member) near one other))
    (fields : Follows extent
      (fun place counterpart => beside place counterpart ∧ place.seesMethod = false) field field
      fun one other => extent.Past (Related member reached one other)) :
    Follows.Round extent start reached reached member member? member? := by
  refine .lookAlike (fun place => place.rest.isEmpty) (fun _ => rfl)
    (fun _ _ starts => .inl (ends _ _ starts)) fun isEnd => ?_
  refine .lookAlike (Place.sees · "\x7d") (fun _ => rfl)
    (fun _ _ starts => .inl (closes _ _ starts.1)) fun isClosed => ?_
  refine .ite (.pure fun _ _ starts => ⟨.none, ended _ _ starts.1.1⟩) ?_
  refine Follows.starting ?_ fun _ _ starts => starts.1.1
  have giveUp : Moves (do skipMember .classMember; return some Member.skipped) := giveUp_moves _ _ _
  rw [unless_eq]
  refine .requireStart opening ?_ (.giveUp _ _ _) giveUp giveUp
  refine Follows.starting ?_ fun _ _ starts => starts.1
  refine .ask Place.seesMethod seesMethod_run (fun _ _ beside => .inl (asks _ _ beside)) ?_ ?_
  · refine methods.bind fun one other => .pure ?_
    rintro place counterpart ⟨⟨same, near⟩, short⟩
    refine ⟨.some ?_, onward _ _ near, short⟩
    cases same with
    | none => exact congruence.memberRefl _
    | some same => exact same
  · have whole : (do
          let declaration ← declaration
          demand ";" (skipMember .variableEnd)
          return some ((declaration.map Member.field).getD .skipped)) = some <$> field := by
      simp only [field, map_eq_pure_bind, bind_assoc, pure_bind]
    rw [whole, map_eq_pure_bind]
    exact fields.bind fun _ _ => .pure fun _ _ past => ⟨.some past.1.1, past.1.2, past.2⟩

theorem classOf_follows (names : Follows extent start className className (Same fun _ => near))
    (opens : Shares extent near near "\x7b")
    (members : Follows extent near (collect member?) (collect member?)
      (Related (List.Forall₂ member) reached))
    (closes : Shares extent reached near "\x7d") :
    Follows extent start classOf classOf (Related (List.Forall₂ member) near) := by
  refine names.andThen fun able => ?_
  cases able with
  | false => exact .pure fun _ _ near => ⟨.nil, near⟩
  | true =>
      have fails : Fails (do complain .classBrace; return ([] : List Member)) :=
        (Fails.of_repairs (complain_repairs _)).bind (complain_moves _) fun _ => .pure _
      have moves : Moves (do complain .classBrace; return ([] : List Member)) :=
        (complain_moves _).bind fun _ => .pure _
      refine .acceptRequire opens ?_ fails moves moves
      refine members.bindRelated congruence.membersRefl fun found others same => ?_
      exact (demand_follows closes (complain_repairs _)).andThen fun _ =>
        .pure fun _ _ near => ⟨same, near⟩

theorem program_follows
    (able : Follows extent start seesProgram seesProgram
      (Same fun able place counterpart => able = true ∧ start place counterpart))
    (opens : Shares extent start near "\x7b") (unopened : Lacks start "\x7b")
    (classes : Shares extent start near "class") (unclassed : Lacks start "class")
    (within : ∀ place counterpart, start place counterpart → near place counterpart)
    (bodies : Follows extent near body body (Related all near))
    (closes : Shares extent near near "\x7d")
    (members : Follows extent near classOf classOf (Related (List.Forall₂ member) near)) :
    Follows extent start program program (Related rel near) := by
  refine .rule (able.andThen fun able => ?_)
  cases able with
  | false => exact .nowhere (.pure _) (.pure _) fun _ _ starts => nomatch starts.1
  | true =>
      refine Follows.starting ?_ fun _ _ starts => starts.2
      refine .acceptBranch opens unopened ?_ ?_
      · refine bodies.bindRelated congruence.refl fun body others same => ?_
        exact (demand_follows closes (abandon_repairs _ _)).andThen fun _ =>
          .pure fun _ _ near => ⟨congruence.statements same, near⟩
      refine Follows.starting ?_ fun _ _ starts => starts.1
      refine .acceptBranch classes unclassed ?_ ?_
      · exact members.bindRelated congruence.membersRefl fun found others same =>
          .pure fun _ _ near => ⟨congruence.members same, near⟩
      · refine (bodies.starting fun _ _ starts => within _ _ starts.1).bindRelated congruence.refl
          fun body others same => .pure fun _ _ near => ⟨congruence.statements same, near⟩

/-- A program and what follows it are read in step, and both inputs are used up. -/
theorem wholeProgram_follows (programs : Follows extent start program program (Related rel near))
    (ends : ∀ place counterpart, near place counterpart → place.rest.isEmpty = true →
      counterpart.rest.isEmpty = true) :
    Follows extent start wholeProgram wholeProgram fun one other place counterpart =>
      rel one other ∧ near place counterpart ∧ place.rest.isEmpty = true := by
  refine programs.bindRelated congruence.programRefl fun result answer same => ?_
  have checks : Follows extent near checkEnd checkEnd
      (Same fun _ place counterpart => near place counterpart ∧ place.rest.isEmpty = true) := by
    rw [checkEnd, unless_eq]
    exact .require (fun place => place.rest.isEmpty) (fun _ => rfl) ends
      (.pure fun _ _ ended => ⟨rfl, ended⟩) (.of_repairs (complain_repairs _)) (complain_moves _)
      (complain_moves _)
  exact checks.andThen fun _ => .pure fun _ _ ended => ⟨same, ended⟩

end

/-! ## Programs with a loop at the fork -/

/-- What happens at the fork of two loops over statements, wherever these are. -/
def Bridged (fork : Fork) : Prop :=
  ∀ depth otherDepth (extent : Extent), extent.size ≤ depth → extent.otherSize ≤ otherDepth →
    Alike fork extent (statementFor depth) (statementFor otherDepth) →
      Bridges fork extent (statementFor depth) (statementFor otherDepth)
        (Related SameStatements fork.Near)

/-- Members that are written out alike. -/
abbrev SameMember (one other : Member) : Prop := one.desugared = other.desugared

/-- Programs that are written out alike. -/
abbrev SameProgram (one other : Program) : Prop := one.desugared = other.desugared

theorem map_desugared_eq {members others : List Member}
    (same : List.Forall₂ SameMember members others) :
    members.map Member.desugared = others.map Member.desugared := by
  rw [← List.forall₂_eq_eq_eq, List.forall₂_map_left_iff, List.forall₂_map_right_iff]
  exact same

theorem desugared_programCongruence :
    ProgramCongruence SameStatements SameMember SameProgram where
  refl _ := rfl
  memberRefl _ := rfl
  method _ _ _ _ _ same := by
    simp only [SameMember, Member.desugared, Method.desugared, same]
  statements same := by simp only [SameProgram, Program.desugared, same]
  members same := by simp only [SameProgram, Program.desugared, map_desugared_eq same]

section

variable (atLoop : fork.AtLoop) (bridged : Bridged fork) (silent : extent.silent)

include atLoop bridged silent

theorem body_desugared :
    Follows extent fork.Near body body (Related SameStatements fork.Near) := by
  have moves (size : Nat) : Moves (bodyOf (statementFor size)) :=
    bodyOf_moves (statementFor_moves size)
  refine Follows.sized moves moves fun narrower covers => ?_
  have alike : Alike fork narrower (statementFor narrower.size)
      (statementFor narrower.otherSize) :=
    statementFor_alike (atLoop.firm 0) atLoop.listed
      (fun _ _ extent _ => bridged _ _ extent) _ _ (Nat.zero_le _) (Nat.le_refl _) (Nat.le_refl _)
      (covers.silent silent)
  exact bodyOf_desugared alike (bridged _ _ _ (Nat.le_refl _) (Nat.le_refl _) alike)

theorem member?_desugared : Follows.Rounds extent fork.Near SameMember member? member? := by
  have firm := atLoop.firm extent.bound
  have plain := firm.plain
  have behind := (atLoop.firm extent.behind.bound).plain
  have bodies : Follows extent.behind fork.Near body body (Related SameStatements fork.Near) :=
    body_desugared atLoop bridged silent
  have heads : Follows extent
      (fun place counterpart => fork.Beside place counterpart ∧ place.seesMethod = true)
      methodHead methodHead fun one other place counterpart =>
        one = other ∧ extent.Past fork.Near place counterpart :=
    methodHead_follows atLoop.atStatement
  have methods := method_follows desugared_programCongruence heads
    (methodBody_follows desugared_programCongruence bodies
      ((near_shares behind (by decide)).giving fun _ _ past => past.1.near)
      ((near_shares behind (by decide)).giving fun _ _ past => past.1.near)
      (closeParameters_follows behind))
  have fields : Follows extent fork.Beside field field fun one other =>
      extent.Past (Related SameMember fork.Near one other) :=
    (declaration_follows plain atLoop.listed.settled).andThen fun declaration =>
      (demand_follows (firm_shares firm (by decide)) (skipMember_repairs _)).andThen fun _ =>
        .pure fun _ _ past => ⟨⟨rfl, past.1.near⟩, past.2⟩
  have opening : Opening fork.Near
      (fun place counterpart => fork.Beside place counterpart ∧ place.seesStart .type = true)
      Nonterminal.type.first := fun _ _ near seen =>
    have ⟨next, beside⟩ := near_opening plain (by decide) rfl _ _ near seen
    ⟨next, beside, seen⟩
  refine member?_follows desugared_programCongruence (fun _ _ near => atLoop.isEmpty_eq near)
    (fun _ _ near => atLoop.sees_eq near (by decide) (by decide)) (fun _ _ => id) (fun _ _ => id)
    opening ?_ (methods.starting fun _ _ starts => ⟨starts.1.1, starts.2⟩)
    (fields.starting fun _ _ starts => starts.1.1)
  rintro place counterpart ⟨beside, types⟩
  refine (beside.seesMethod_eq plain).resolve_left fun ⟨⟨token, next, fits⟩, _⟩ => ?_
  rw [Place.seesStart, Place.seesAny, next] at types
  exact atLoop.listed.unfit types (by decide) fits

theorem program_desugared :
    Follows extent fork.Near program program (Related SameProgram fork.Near) := by
  have plain := (atLoop.firm extent.bound).plain
  have shares {symbol : String}
      (apart : allApart (words ["for", ";"]) [.word symbol] = true) :
      Shares extent fork.Near fork.Near symbol :=
    (near_shares plain apart).giving fun _ _ past => past.1.near
  have lacks {symbol : String} (apart : allApart [.word "for"] [.word symbol] = true)
      (otherApart : allApart Fork.loopStops [.word symbol] = true) : Lacks fork.Near symbol :=
    fun _ _ near unseen => (atLoop.sees_eq near apart otherApart).symm.trans unseen
  have able : Follows extent fork.Near seesProgram seesProgram
      (Same fun able place counterpart => able = true ∧ fork.Near place counterpart) := by
    have moves : Moves seesProgram := .of_gives seesProgram_gives
    refine ⟨moves, moves, ?_⟩
    intro before counterpart able answer after last starts _ _ goes otherRuns _
    obtain ⟨rfl, rfl, _⟩ := goes.given (seesProgram_gives before)
    obtain ⟨rfl, rfl, _⟩ := (otherRuns.goes silent).given (seesProgram_gives counterpart)
    exact ⟨rfl, rfl, starts⟩
  have members : Follows extent fork.Near (collect member?) (collect member?)
      (Related (List.Forall₂ SameMember) fork.Near) :=
    Follows.collect _ fun _ covers =>
      member?_desugared atLoop bridged (covers.silent silent)
  exact program_follows desugared_programCongruence able (shares (by decide))
    (lacks (by decide) (by decide)) (shares (by decide)) (lacks (by decide) (by decide))
    (fun _ _ => id) (body_desugared atLoop bridged silent) (shares (by decide))
    (classOf_follows desugared_programCongruence (className_tracks plain) (shares (by decide))
      members (shares (by decide)))

/-- Programs on two inputs with such a fork are written out alike if neither run makes a
complaint. -/
theorem wholeProgram_desugared :
    Follows extent fork.Near wholeProgram wholeProgram fun one other _ _ =>
      SameProgram one other :=
  (wholeProgram_follows desugared_programCongruence (program_desugared atLoop bridged silent)
    fun _ _ near ended => (atLoop.isEmpty_eq near).symm.trans ended).giving
      fun _ _ _ _ reached => reached.1

end

end Reading

end StackLang
