import StackLang.Grammar.Program
import StackLang.Proofs.Reading.Statement

/-!
# What the readers of programs give

The members of a class, and programs as a whole.  A clean run of the whole reader
consumes every token, and the tokens derive from the grammar.
-/

namespace StackLang.Reading

open Phrase
open Terminal (Opens)
open TreeStandard (loose strict)

variable {source : List Token} {before : Cursor}

/-! ## Parameters -/

/-- The parameter, if one was read, has a name of the source. -/
def ParameterNamed (source : List Token) (parameter? : Option (TypeName × Token)) : Prop :=
  ∀ parameter, parameter? = some parameter → (loose source).name parameter.2

theorem skipParameter_gives (before : Cursor) :
    Gives skipParameter before (fun _ => True) fun _ _ => True :=
  (skipTo_gives _ before).bind fun _ middle _ _ =>
    ⟨.refl middle, trivial, fun _ _ => trivial⟩

theorem parameter_gives (complaint : Complaint) (before : Cursor) (inside : before.rest ⊆ source) :
    Gives (Reading.parameter complaint) before (fun found => ParameterNamed source found.1)
      fun found after => before.seesStart .type = true →
        before.Reads typedName after ∧ found.2 = true := by
  refine (typeName_obeys source before).bind fun type? behind advances _ => ?_
  have insideBehind := subset_of_advances advances inside
  refine (identifier?_gives behind).bind fun name? after _ isName => ?_
  cases name? with
  | none =>
      refine .repaired (complain_repairs _) fun middle _ => ?_
      refine (skipParameter_gives middle).bind fun _ _ _ _ => .pure ?_ fun _ => trivial
      simp [ParameterNamed]
  | some name =>
      have named : (loose source).name name := name_meets insideBehind (isName name rfl) _ rfl
      refine .pure ?_ ?_
      · intro parameter found
        obtain ⟨type, _, rfl⟩ := Option.map_eq_some_iff.mp found
        exact named
      · rintro ⟨reads, _⟩ typed seen
        exact ⟨.next (typed seen).1 (.last (reads name rfl)), rfl⟩

theorem nextParameter_gives (goOn : Bool) (before : Cursor) (inside : before.rest ⊆ source) :
    Gives (nextParameter goOn) before
      (fun next? => ∀ next, next? = some next → ParameterNamed source next.1)
      fun next? after => (next? = none → after = before) ∧
        ∀ next, next? = some next → after.rest.length < before.rest.length ∧
          before.Reads (.sequence [word ",", typedName]) after ∧ next.2 = true := by
  refine .ite (fun _ => .pure (by simp) ⟨by simp, by simp⟩) fun _ => ?_
  refine .acceptUnless (fun behind advances => ?_) fun _ => .pure (by simp) ⟨by simp, by simp⟩
  have insideBehind := subset_of_advances advances inside
  refine .branch (behind.seesStart .type) rfl (fun seen => ?_) fun _ => ?_
  · refine (parameter_gives _ behind insideBehind).bind fun found after moved named => .pure ?_ ?_
    · rintro _ ⟨⟩
      exact named
    · intro given comma
      refine ⟨by simp, ?_⟩
      rintro _ ⟨⟩
      obtain ⟨reads, goesOn⟩ := given seen
      have shorter := Nat.lt_of_le_of_lt moved.length_le comma.word_length_lt
      exact ⟨shorter, .next comma (.last reads), goesOn⟩
  · refine .repaired (complain_repairs _) fun middle _ => ?_
    refine (skipParameter_gives middle).bind fun _ _ _ _ => .pure ?_ fun _ => trivial
    rintro _ ⟨⟩
    simp [ParameterNamed]

theorem extendParameters?_gives (found : List (Option (TypeName × Token)) × Bool)
    (before : Cursor) (inside : before.rest ⊆ source)
    (named : ∀ parameter? ∈ found.1, ParameterNamed source parameter?) :
    Gives (extendParameters? found) before
      (fun next? => ∀ next, next? = some next →
        ∀ parameter? ∈ next.1, ParameterNamed source parameter?)
      fun next? after => (next? = none → after = before) ∧
        ∀ next, next? = some next → after.rest.length < before.rest.length ∧
          before.Reads (.sequence [word ",", typedName]) after := by
  refine (nextParameter_gives found.2 before inside).bind fun next? after _ nextNamed => ?_
  cases next? with
  | none => exact .pure (by simp) fun given => ⟨fun _ => given.1 rfl, by simp⟩
  | some next =>
      refine .pure ?_ ?_
      · rintro _ ⟨⟩
        simpa using ⟨nextNamed next rfl, named⟩
      · rintro ⟨_, given⟩
        refine ⟨by simp, ?_⟩
        rintro _ ⟨⟩
        obtain ⟨shorter, reads, _⟩ := given next rfl
        exact ⟨shorter, reads⟩

theorem moreParameters_gives (first : Option (TypeName × Token) × Bool) (before : Cursor)
    (inside : before.rest ⊆ source) (named : ParameterNamed source first.1) :
    Gives (moreParameters first) before
      (fun found => ∀ parameter? ∈ found, ParameterNamed source parameter?)
      fun _ after => before.Reads (.many (.sequence [word ",", typedName])) after := by
  refine (refine_gives (fun found => ∀ parameter? ∈ found.1, ParameterNamed source parameter?)
    (fun _ cursor _ after => cursor.Reads (.many (.sequence [word ",", typedName])) after) ?_
    ([first.1], first.2) (by simpa using named)).bind fun found after _ foundNamed => .pure ?_ id
  · intro value cursor advances valueNamed
    have insideCursor := subset_of_advances advances inside
    refine (extendParameters?_gives value cursor insideCursor valueNamed).imp (fun _ => id) ?_
    rintro next? after _ _ ⟨stopped, went⟩
    refine ⟨fun none => ?_, fun next some => ?_⟩
    · rw [stopped none]
      exact .none _
    · obtain ⟨shorter, reads⟩ := went next some
      exact ⟨shorter, fun _ _ rest => .more reads rest⟩
  · simpa using foundNamed

theorem parameters_gives (before : Cursor) (inside : before.rest ⊆ source) :
    Gives parameters before
      (fun found => ∀ parameter ∈ found, (loose source).name parameter.2)
      fun _ after => before.Reads (.category .parameters) after := by
  refine Gives.rule (fun _ after =>
    (before.enter .parameters).Reads Category.parameters.production after) ?_ ?_
  · refine .branch _ rfl (fun _ => .pure (by simp) (.absent _)) fun _ => ?_
    refine .expectUnless (fun front advances seen => ?_) fun _ _ => .pure (by simp) trivial
    have insideFront := subset_of_advances advances inside
    refine (parameter_gives _ front insideFront).bind fun first second onward named => ?_
    have insideSecond := subset_of_advances onward insideFront
    refine (moreParameters_gives first second insideSecond named).bind
      fun found after _ foundNamed => .pure ?_ ?_
    · intro parameter member
      obtain ⟨parameter?, listed, same⟩ := List.mem_filterMap.mp member
      exact foundNamed parameter? listed parameter same
    · rintro rest given rfl
      obtain ⟨reads, _⟩ := given seen
      exact (Cursor.Reads.next reads (.last rest)).present
  · intro _ after reads
    exact reads.category.ofEnter

/-! ## Members -/

theorem abandonMethod_repairs (complaint : Complaint) : Repairs (abandonMethod complaint) :=
  abandon_repairs _ _

theorem skipMember_repairs (complaint : Complaint) : Repairs (skipMember complaint) :=
  abandon_repairs _ _

theorem closeParameters_gives (before : Cursor) :
    Gives closeParameters before (fun _ => True) fun able after =>
      able = true ∧ before.Reads (word ")") after := by
  refine .acceptBranch (fun middle _ => .pure trivial fun read => ⟨rfl, read⟩) fun _ => ?_
  exact .repaired (abandon_repairs _ _) fun middle _ => ⟨.refl _, trivial, fun _ => trivial⟩

theorem methodBody_obeys (before : Cursor) (inside : before.rest ⊆ source) :
    Obeys source (fun standard => Statement.AllMeet standard) methodBody before True
      (.sequence [word ")", braced]) := by
  refine (closeParameters_gives before).bind fun able behind advances _ => ?_
  have insideBehind := subset_of_advances advances inside
  cases able with
  | false =>
      refine .pure trivial ?_
      rintro ⟨able, _⟩
      contradiction
  | true =>
      refine .acceptBranch (fun opened onward => ?_) fun _ => ?_
      · have insideOpened := subset_of_advances onward insideBehind
        refine (body_obeys opened insideOpened).bind fun statements closing _ meets => ?_
        refine (demand_gives (abandonMethod_repairs _) "\x7d" closing).bind fun _ after _ _ => ?_
        refine .pure meets ?_
        rintro closes given opens ⟨_, closed⟩ _
        obtain ⟨reads, strict⟩ := given trivial
        have block : behind.Reads braced after := .next opens (.next reads (.last closes))
        exact ⟨.next closed (.last block), strict⟩
      · exact .repaired (abandonMethod_repairs _) fun _ _ => .pure trivial trivial

/-- A type, a name and an opening parenthesis are next. -/
def StartsMethod (cursor : Cursor) : Prop :=
  ∃ type name parenthesis tail, cursor.rest = type :: name :: parenthesis :: tail ∧
    Nonterminal.type.startsWith (some type) = true ∧ name.isIdentifier = true ∧
      parenthesis.spells "(" = true

theorem seesMethod_gives (before : Cursor) :
    Gives seesMethod before (fun _ => True) fun answer after =>
      after = before ∧ (answer = true → StartsMethod before) := by
  refine .look before rfl ?_
  split
  · next type name parenthesis tail rest =>
      refine .pure trivial ⟨rfl, fun holds => ?_⟩
      simp only [Bool.and_eq_true] at holds
      exact ⟨type, name, parenthesis, tail, rest, holds.1.1, holds.1.2, holds.2⟩
  · exact .pure trivial ⟨rfl, by simp⟩

theorem reads_type_rest {after : Cursor} (read : before.Reads (.category .type) after) :
    ∃ token, before.rest = token :: after.rest := by
  obtain ⟨tokens, consumed, predicted⟩ := read
  obtain ⟨token, _, rfl, _, _⟩ := predicted.of_category.of_oneOf
  exact ⟨token, consumed.rest⟩

theorem method_obeys (before : Cursor) (inside : before.rest ⊆ source) :
    Obeys source (GapMeets fun standard => Method.Meets standard) method before
      (StartsMethod before) (.category .method) := by
  have typeSeen : StartsMethod before → (before.enter .method).seesStart .type = true := by
    rintro ⟨type, name, parenthesis, tail, rest, isType, _, _⟩
    simpa [Cursor.seesStart, Cursor.next?, Cursor.enter, rest] using isType
  refine Obeys.category ?_
  refine (typeName_obeys source _).bind fun type? typed advances _ => ?_
  have nameSeen : StartsMethod before →
      (before.enter .method).Reads (.category .type) typed → typed.seesIdentifier = true ∧
        typed.seesSecond "(" = true := by
    rintro ⟨type, name, parenthesis, tail, rest, _, isName, isOpen⟩ reads
    obtain ⟨token, whole⟩ := reads_type_rest reads
    have whole : before.rest = token :: typed.rest := whole
    rw [rest] at whole
    obtain ⟨_, typedRest⟩ := List.cons_eq_cons.mp whole
    simp [Cursor.seesIdentifier, Cursor.seesSecond, Cursor.next?, ← typedRest, isName, isOpen]
  cases type? with
  | none => exact .pure trivial fun given starts => (given (typeSeen starts)).2.elim
  | some returnType =>
      have insideTyped := subset_of_advances advances inside
      refine (identifier?_gives typed).bind fun name? named moved isName => ?_
      cases name? with
      | none =>
          refine .pure trivial ?_
          rintro ⟨_, missing⟩ given starts
          have seen := nameSeen starts (given (typeSeen starts)).1
          simp [missing rfl] at seen
      | some name =>
          have meets : (loose source).name name := name_meets insideTyped (isName name rfl) _ rfl
          have insideNamed := subset_of_advances moved insideTyped
          refine (accept_reads "(" named).bind fun _ opened opening _ => ?_
          have insideOpened := subset_of_advances opening insideNamed
          refine (parameters_gives opened insideOpened).bind
            fun found closing onward parametersMeet => ?_
          have insideClosing := subset_of_advances onward insideOpened
          refine (methodBody_obeys closing insideClosing).bind fun body after _ bodyMeets => ?_
          refine .pure ⟨meets, parametersMeet, bodyMeets⟩ ?_
          rintro bodyGiven parametersRead opens ⟨nameRead, _⟩ given starts
          obtain ⟨typeReads, _⟩ := given (typeSeen starts)
          obtain ⟨_, second⟩ := nameSeen starts typeReads
          have nameReads := nameRead name rfl
          obtain ⟨token, rest, _⟩ := nameReads.terminal_rest
          have opens := opens
            (by simpa [Cursor.seesSecond, Cursor.sees, Cursor.next?, rest] using second)
          obtain ⟨bodyReads, bodyStrict⟩ := bodyGiven trivial
          refine ⟨?_, meets, parametersMeet, bodyStrict⟩
          exact .next typeReads (.next nameReads (.next opens (.next parametersRead bodyReads)))

theorem member?_obeys (before : Cursor) (inside : before.rest ⊆ source) :
    ObeysRound source (fun standard => Member.Meets standard) member? before True
      (.category .member) := by
  refine .look _ rfl (.look _ rfl (.ite (fun _ => .pure (by simp) ⟨by simp, by simp⟩) ?_))
  intro _
  have solid : (Phrase.category .member).isSolid = true := by simp [isSolid]
  refine .look (before.seesStart .type) rfl (.ite (fun _ => ?_) fun seen => ?_)
  · refine .repaired (skipMember_repairs _) fun _ _ => .pure ?_ trivial
    rintro _ ⟨⟩
    trivial
  have seen : before.seesStart .type = true := by simpa using seen
  refine (seesMethod_gives before).bind fun answer front advances _ => ?_
  have insideFront := subset_of_advances advances inside
  refine .ite (fun isMethod => ?_) fun _ => ?_
  · refine (method_obeys front insideFront).bind fun method? after _ meets => .pure ?_ ?_
    · rintro _ ⟨⟩
      cases method? <;> exact meets
    · rintro given ⟨rfl, starts⟩
      obtain ⟨reads, strict⟩ := given (starts isMethod)
      refine ⟨by simp, ?_⟩
      rintro _ ⟨⟩
      have whole : front.Reads (.category .member) after := (reads.choice (by simp) rfl).category
      obtain ⟨method, rfl, strict⟩ := strict.exists_some id
      exact ⟨whole.length_lt solid, fun _ => ⟨whole, strict⟩⟩
  · refine (declaration_obeys front insideFront).bind fun declaration? ending _ meets => ?_
    refine (demand_gives (skipMember_repairs _) ";" ending).bind fun _ after _ _ => .pure ?_ ?_
    · rintro _ ⟨⟩
      cases declaration? <;> exact meets
    · rintro ended given ⟨rfl, _⟩
      obtain ⟨reads, strict⟩ := given seen
      refine ⟨by simp, ?_⟩
      rintro _ ⟨⟩
      have whole : front.Reads (.category .member) after :=
        (Cursor.Reads.choice (.next reads (.last ended)) (by simp) rfl).category
      obtain ⟨declaration, rfl, strict⟩ := strict.exists_some id
      exact ⟨whole.length_lt solid, fun _ => ⟨whole, strict⟩⟩

theorem members_obeys (before : Cursor) (inside : before.rest ⊆ source) :
    Obeys source (fun standard found => ∀ member ∈ found, member.Meets standard)
      (collect member?) before True (.many (.category .member)) := by
  have rounds (cursor : Cursor) (advances : before.Advances cursor) :=
    member?_obeys cursor (subset_of_advances advances inside)
  refine (Obeys.collect fun cursor advances => (rounds cursor advances).weaken ?_).weaken
    fun _ => Nat.lt_succ_self before.rest.length
  exact fun _ => trivial

/-! ## Programs -/

theorem className_gives (before : Cursor) :
    Gives className before (fun _ => True) fun able after =>
      able = true ∧ before.Reads identifier after := by
  refine (identifier?_gives before).bind fun name? after _ _ => ?_
  cases name? with
  | none =>
      refine .repaired (abandon_repairs _ _) fun middle _ => ?_
      exact ⟨.refl middle, trivial, fun _ => trivial⟩
  | some name => exact .pure trivial fun given => ⟨rfl, given.1 name rfl⟩

theorem classOf_gives (before : Cursor) (inside : before.rest ⊆ source) :
    Gives classOf before (fun found => ∀ member ∈ found, member.Meets (loose source))
      fun found after =>
        before.Reads (.sequence [identifier, word "\x7b", .many (.category .member),
          word "\x7d"]) after ∧ ∀ member ∈ found, member.Meets (strict source) := by
  refine (className_gives before).bind fun able named advances _ => ?_
  have insideNamed := subset_of_advances advances inside
  cases able with
  | false =>
      refine .pure (by simp) ?_
      rintro ⟨able, _⟩
      contradiction
  | true =>
      refine .acceptUnless (fun opened onward => ?_) fun _ =>
        .repaired (complain_repairs _) fun _ _ => .pure (by simp) trivial
      have insideOpened := subset_of_advances onward insideNamed
      refine (members_obeys opened insideOpened).bind fun found closing _ meets => ?_
      refine (demand_gives (complain_repairs _) "\x7d" closing).bind fun _ after _ _ => ?_
      refine .pure meets ?_
      rintro closes given opens ⟨_, name⟩
      obtain ⟨reads, strict⟩ := given trivial
      exact ⟨.next name (.next opens (.next reads (.last closes))), strict⟩

/-- What a program starts with. -/
def programStart : List Terminal := .endOfInput :: .word "class" :: openers

theorem seesProgram_gives (before : Cursor) :
    Gives seesProgram before (fun _ => True) fun able after =>
      able = true ∧ after = before ∧ Opens programStart before.rest := by
  refine .branch _ rfl (fun ended => .pure trivial ⟨rfl, rfl, ?_⟩) fun _ => ?_
  · rw [List.isEmpty_iff.mp ended]
    rfl
  refine .branch _ rfl (fun seen => .pure trivial ⟨rfl, rfl, ?_⟩) fun _ => ?_
  · exact Opens.mono seen (List.subset_cons_self _ _)
  refine .branch _ rfl (fun seen => .pure trivial ⟨rfl, rfl, ?_⟩) fun _ => ?_
  · exact Opens.mono seen (by decide)
  exact .repaired (abandon_repairs _ _) fun middle _ => ⟨.refl middle, trivial, fun _ => trivial⟩

/-- What a program starts with, braces apart, starts no other kind of statement. -/
theorem isChosen_body {tokens rest : List Token} (opens : Opens programStart (tokens ++ rest))
    (unbraced : Terminal.anyAccepts [.word "\x7b"] (tokens ++ rest).head? = false) :
    (Phrase.category .body).isChosen tokens = true := by
  have bare : Terminal.anyAccepts notBare (tokens ++ rest).head? = false :=
    (opens.without unbraced).anyAccepts_eq_false (by decide)
  cases tokens with
  | nil => rfl
  | cons token tokens => simpa [isChosen] using bare

theorem program_obeys (before : Cursor) (inside : before.rest ⊆ source) :
    Obeys source (fun standard => Program.Meets standard) program before True
      (.category .program) := by
  refine Obeys.category ?_
  refine (seesProgram_gives _).bind fun able front advances _ => ?_
  have insideFront := subset_of_advances advances inside
  cases able with
  | false =>
      refine .pure trivial ?_
      rintro ⟨able, _⟩
      contradiction
  | true =>
      refine .acceptBranch (fun opened onward => ?_) fun unbraced => ?_
      · have insideOpened := subset_of_advances onward insideFront
        refine (body_obeys opened insideOpened).bind fun statements closing _ meets => ?_
        refine (demand_gives (abandon_repairs _ _) "\x7d" closing).bind fun _ after _ _ => ?_
        refine .pure meets ?_
        rintro closes given opens ⟨_, rfl, _⟩ _
        obtain ⟨reads, strict⟩ := given trivial
        have whole := Cursor.Reads.next opens (.next reads (.last closes))
        exact ⟨whole.choice (by simp [braced]) rfl, strict⟩
      · refine .acceptBranch (fun named onward => ?_) fun _ => ?_
        · have insideNamed := subset_of_advances onward insideFront
          refine (classOf_gives named insideNamed).bind fun members after _ meets => .pure meets ?_
          rintro ⟨reads, strict⟩ keyword ⟨_, rfl, _⟩ _
          exact ⟨(Cursor.Reads.next keyword reads).choice (by simp) rfl, strict⟩
        · refine (body_obeys front insideFront).bind fun statements after _ meets => .pure meets ?_
          rintro given ⟨_, rfl, opens⟩ _
          obtain ⟨reads, strict⟩ := given trivial
          refine ⟨reads.chosen (by simp) fun tokens split => ?_, strict⟩
          refine isChosen_body (split ▸ opens) ?_
          rw [← split]
          simpa [Terminal.anyAccepts, Cursor.sees, Cursor.next?] using unbraced

theorem checkEnd_gives (before : Cursor) :
    Gives checkEnd before (fun _ => True) fun _ after => before.rest = [] ∧ after = before := by
  refine .look before.rest.isEmpty rfl (.ite (fun _ => ?_) fun empty => ?_)
  · exact (complain_repairs _ before).imp (fun _ => id) fun _ _ _ _ impossible => impossible.elim
  · exact .pure trivial ⟨by simpa using empty, rfl⟩

theorem wholeProgram_gives (before : Cursor) (inside : before.rest ⊆ source) :
    Gives wholeProgram before (Program.Meets (loose source)) fun found after =>
      before.Reads (.category .program) after ∧ after.rest = [] ∧ found.Meets (strict source) := by
  refine (program_obeys before inside).bind fun found ending _ meets => ?_
  refine (checkEnd_gives ending).bind fun _ after _ _ => .pure meets ?_
  rintro ⟨empty, rfl⟩ given
  obtain ⟨reads, strict⟩ := given trivial
  exact ⟨reads, empty, strict⟩

end StackLang.Reading

namespace StackLang

/-- Whatever the tokens are, the names and literals of the tree are among them. -/
theorem Program.ofTokens_loose (tokens : List Token) :
    (Program.ofTokens tokens).program.Meets (.loose tokens) :=
  (Reading.wholeProgram_gives (.initial tokens) (List.Subset.refl tokens)).always

/-- A tree that was read without syntax errors has no gaps. -/
theorem Program.ofTokens_strict {tokens : List Token}
    (clean : (Program.ofTokens tokens).errors = #[]) :
    (Program.ofTokens tokens).program.Meets (.strict tokens) :=
  ((Reading.wholeProgram_gives (.initial tokens) (List.Subset.refl tokens)).clean clean).2.2

/-- Tokens that are read without a syntax error derive from the grammar, and each of
them stands in the trace: none was skipped and none was left over. -/
theorem Program.derives_of_ofTokens {tokens : List Token}
    (clean : (Program.ofTokens tokens).errors = #[]) :
    (Phrase.category .program).Derives tokens ∧
      leavesOf (Program.ofTokens tokens).trace = tokens.map Token.value := by
  have given := Reading.wholeProgram_gives (.initial tokens) (List.Subset.refl tokens)
  obtain ⟨⟨consumed, read, predicted⟩, empty, _⟩ := given.clean clean
  have whole : tokens = consumed := by
    have rest := read.rest
    rw [empty, List.append_nil] at rest
    exact rest
  subst whole
  exact ⟨predicted.derives, read.leaves⟩

/-- An assignment to a name is such a token list. -/
theorem Program.derives_assignment :
    let tokens : List Token := [⟨"x", .identifier, 1⟩, ⟨"=", .operator, 1⟩, ⟨"1", .integer, 1⟩,
      ⟨";", .delimiter, 1⟩]
    (Program.ofTokens tokens).errors = #[] ∧ (Phrase.category .program).Derives tokens ∧
      leavesOf (Program.ofTokens tokens).trace = tokens.map Token.value := by
  have clean : (Program.ofTokens [⟨"x", .identifier, 1⟩, ⟨"=", .operator, 1⟩,
      ⟨"1", .integer, 1⟩, ⟨";", .delimiter, 1⟩]).errors = #[] := by decide +kernel
  exact ⟨clean, Program.derives_of_ofTokens clean⟩

end StackLang
