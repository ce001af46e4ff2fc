import StackLang.Grammar.Program
import StackLang.Proofs.Automaton.Language
import StackLang.Proofs.Termination.Statement

/-!
# Reading programs completes

Whatever the tokens are, reading them as a program does not get stuck, and tokens are
left over only behind a last complaint about the first of them.
-/

namespace StackLang

namespace Reading

variable {before : Cursor}

/-! ## Classes and methods -/

theorem skipParameter_ends (before : Cursor) : Ends skipParameter before :=
  (skipTo_proceeds _ before).bind fun _ _ _ _ => .look _ rfl (.pure trivial)

theorem parameter_ends (complaint : Complaint) (more : before.rest ≠ []) :
    Ends (parameter complaint) before := by
  refine (typeName_proceeds more).bind fun type? named _ _ => ?_
  refine (identifier?_proceeds named).bind fun name? middle _ _ => ?_
  cases name? with
  | none =>
      refine (complain_ends complaint middle).bind fun _ after _ _ => ?_
      exact (skipParameter_ends after).bind fun _ _ _ _ => .pure trivial
  | some name => exact .pure trivial

theorem nextParameter_rounds (goOn : Bool) (before : Cursor) : Rounds (nextParameter goOn) before := by
  refine .ite (fun _ => .pure nofun) fun _ => ?_
  refine (accept_proceeds "," before).bind fun read middle _ ⟨_, shorter, _⟩ => ?_
  cases read with
  | false => exact .pure nofun
  | true =>
      have less : Shorter before middle := shorter rfl
      refine .branch (middle.seesStart .type) rfl (fun typed => ?_) fun _ => ?_
      · refine (parameter_ends _ (rest_ne_nil_of_seesStart typed)).bind fun _ _ fits _ => ?_
        exact .pure fun _ => Nat.lt_of_le_of_lt fits less
      · refine (complain_ends _ middle).bind fun _ after fits _ => ?_
        have less : Shorter before after := Nat.lt_of_le_of_lt fits less
        refine (skipParameter_ends after).bind fun _ _ fits _ => .pure fun _ => ?_
        exact Nat.lt_of_le_of_lt fits less

theorem extendParameters?_rounds (found : List (Option (TypeName × Token)) × Bool)
    (before : Cursor) : Rounds (extendParameters? found) before := by
  refine (nextParameter_rounds found.2 before).bind fun next? _ _ shorter => ?_
  cases next? with
  | none => exact .pure nofun
  | some next => exact .pure fun _ => shorter rfl

theorem parameters_ends (before : Cursor) : Ends parameters before := by
  refine .rule (.branch _ rfl (fun _ => .pure trivial) fun _ => ?_)
  refine (expect_proceeds _ _ _).bind fun starts middle _ ⟨typed, _⟩ => .ite (fun _ => .pure trivial) ?_
  intro can
  have typed : middle.seesStart .parameters = true := by
    rw [← typed]
    simpa using can
  have more := rest_ne_nil_of_seesStart typed
  refine (parameter_ends _ more).bind fun first front _ _ => ?_
  have others : Ends (moreParameters first) front :=
    (refine_ends _ front fun found cursor _ => extendParameters?_rounds found cursor).bind
      fun _ _ _ _ => .pure trivial
  exact others.bind fun _ _ _ _ => .pure trivial

theorem abandonMethod_ends (complaint : Complaint) (before : Cursor) :
    Ends (abandonMethod complaint) before :=
  abandon_ends _ _ before

theorem closeParameters_ends (before : Cursor) : Ends closeParameters before := by
  refine (accept_ends ")" before).bind fun read middle _ _ => .ite (fun _ => .pure trivial) fun _ => ?_
  exact (abandon_ends _ _ middle).bind fun _ _ _ _ => .look _ rfl (.pure trivial)

theorem methodBody_ends (before : Cursor) : Ends methodBody before := by
  refine (closeParameters_ends before).bind fun _ middle _ _ => .ite (fun _ => .pure trivial) fun _ => ?_
  refine (accept_ends "\x7b" middle).bind fun read inside _ _ => .ite (fun _ => ?_) fun _ => ?_
  · refine (body_ends inside).bind fun _ closing _ _ => ?_
    exact (demand_ends (abandonMethod_ends _) _ closing).bind fun _ _ _ _ => .pure trivial
  · exact (abandonMethod_ends _ inside).bind fun _ _ _ _ => .pure trivial

theorem method_proceeds (more : before.rest ≠ []) :
    Proceeds method before fun _ after => Shorter before after := by
  refine .rule (.bind (typeName_proceeds more) fun type? named _ less => ?_)
  suffices rest : Ends _ named from rest.imp fun _ _ fits _ => Nat.lt_of_le_of_lt fits less
  cases type? with
  | none => exact .pure trivial
  | some type =>
      refine (identifier?_proceeds named).bind fun name? middle _ _ => ?_
      cases name? with
      | none => exact .pure trivial
      | some name =>
          refine (accept_ends "(" middle).bind fun _ opened _ _ => ?_
          refine (parameters_ends opened).bind fun _ behind _ _ => ?_
          exact (methodBody_ends behind).bind fun _ _ _ _ => .pure trivial

theorem seesMethod_proceeds (before : Cursor) :
    Proceeds seesMethod before fun _ after => after = before := by
  refine .look before rfl ?_
  split <;> exact .pure rfl

/-- A member starts with a type, or is skipped from its first token on. -/
theorem member?_rounds (before : Cursor) : Rounds member? before := by
  refine .look before.rest.isEmpty rfl (.look (before.sees "\x7d") rfl ?_)
  refine .ite (fun _ => .pure nofun) fun goesOn => .look (before.seesStart .type) rfl ?_
  refine .ite (fun untyped => ?_) fun typed => ?_
  · refine (abandon_proceeds _ _ before).bind fun _ after _ skipped => .pure fun _ => skipped ?_
    cases rest : before.rest with
    | nil => simp [rest] at goesOn
    | cons token tail =>
        have next : before.next? = some token := by rw [Cursor.next?, rest, List.head?_cons]
        simp only [Cursor.sees, next, rest, Option.any_some, List.isEmpty_cons, Bool.false_or,
          Bool.not_eq_true] at goesOn
        have noType : Nonterminal.type.startsWith (some token) = false := by
          simpa [Cursor.seesStart, next] using untyped
        simp [next, noType, Terminal.accepts, goesOn]
  · have more : before.rest ≠ [] := rest_ne_nil_of_seesStart (by simpa using typed)
    refine (seesMethod_proceeds before).bind fun isMethod same _ unmoved => ?_
    obtain rfl := unmoved
    refine .ite (fun _ => ?_) fun _ => ?_
    · exact (method_proceeds more).bind fun _ after _ shorter => .pure fun _ => shorter
    · refine (declaration_proceeds more).bind fun _ middle _ less => ?_
      refine (demand_abandon_ends _ _ _ middle).bind fun _ after fits _ => .pure fun _ => ?_
      exact Nat.lt_of_le_of_lt fits less

theorem className_ends (before : Cursor) : Ends className before := by
  refine (identifier?_proceeds before).bind fun name? middle _ _ => .ite (fun _ => .pure trivial) ?_
  exact fun _ => (recover_proceeds _ _ middle).ends

theorem classOf_ends (before : Cursor) : Ends classOf before := by
  refine (className_ends before).bind fun _ middle _ _ => .ite (fun _ => .pure trivial) fun _ => ?_
  refine (accept_ends "\x7b" middle).bind fun read inside _ _ => .ite (fun _ => ?_) fun _ => ?_
  · exact (complain_ends _ inside).bind fun _ _ _ _ => .pure trivial
  · refine (collect_ends inside fun cursor _ => member?_rounds cursor).bind fun _ closing _ _ => ?_
    exact (demand_complain_ends _ _ closing).bind fun _ _ _ _ => .pure trivial

/-! ## Programs -/

theorem seesProgram_ends (before : Cursor) : Ends seesProgram before := by
  refine .branch _ rfl (fun _ => .pure trivial) fun _ => ?_
  refine .branch (Terminal.anyAccepts (.word "class" :: openers) before.next?) rfl ?_ ?_
  · exact fun _ => .pure trivial
  · exact fun _ => (expect_proceeds _ _ before).ends

theorem program_ends (before : Cursor) : Ends program before := by
  refine .rule ((seesProgram_ends _).bind fun _ middle _ _ => .ite (fun _ => .pure trivial) fun _ => ?_)
  refine (accept_ends "\x7b" middle).bind fun braced inside _ _ => .ite (fun _ => ?_) fun _ => ?_
  · refine (body_ends inside).bind fun _ closing _ _ => ?_
    exact (demand_abandon_ends _ _ _ closing).bind fun _ _ _ _ => .pure trivial
  refine (accept_ends "class" inside).bind fun isClass start _ _ => .ite (fun _ => ?_) fun _ => ?_
  · exact (classOf_ends start).bind fun _ _ _ _ => .pure trivial
  · exact (body_ends start).bind fun _ _ _ _ => .pure trivial

/-- The last complaint is about the first token that is left. -/
theorem checkEnd_proceeds (before : Cursor) :
    Proceeds checkEnd before fun _ after =>
      after.rest = [] ∨ after.errors.back? = some ⟨.trailingTokens, after.rest.head?⟩ := by
  refine .look before.rest.isEmpty rfl (.ite (fun _ => ?_) fun atEnd => .pure (.inl ?_))
  · exact ⟨List.suffix_refl _, fun _ => rfl, .inr Array.back?_push⟩
  · simpa using atEnd

theorem wholeProgram_proceeds (before : Cursor) :
    Proceeds wholeProgram before fun _ after =>
      after.rest = [] ∨ after.errors.back? = some ⟨.trailingTokens, after.rest.head?⟩ :=
  (program_ends before).bind fun _ middle _ _ =>
    (checkEnd_proceeds middle).bind fun _ _ _ left => .pure left

end Reading

/-! ## Marks of literals -/

/-- A token in radix 16 or 2 starts with two ASCII characters. -/
def Token.Prefixed (token : Token) : Prop :=
  token.kind = .hexadecimal ∨ token.kind = .binary →
    ∃ first second rest, token.value.toList = first :: second :: rest ∧
      first.toNat < 128 ∧ second.toNat < 128

theorem utf8Size_of_ascii {char : Char} (ascii : char.toNat < 128) : char.utf8Size = 1 := by
  exact Char.utf8Size_eq_one_iff.mpr (UInt32.le_iff_toNat_le.mpr (Nat.le_of_lt_succ ascii))

/-- Two ASCII characters are cut off as two bytes. -/
theorem Token.Prefixed.cutsMark {token : Token} (starts : token.Prefixed) :
    token.cutsMark = true := by
  have cuts (radix : token.kind = .hexadecimal ∨ token.kind = .binary) :
      Text.cutsAt 2 token.value.toList = true := by
    obtain ⟨first, second, rest, value, one, two⟩ := starts radix
    rw [value]
    simp [Text.cutsAt, utf8Size_of_ascii one, utf8Size_of_ascii two]
  unfold Token.cutsMark
  split
  · next kind => exact cuts (.inl kind)
  · next kind => exact cuts (.inr kind)
  · rfl

namespace Lexeme

/-- The states of numbers with a mark are reached behind the mark. -/
theorem State.run?_marked {last : State} {chars : List Char} (marked : last = .hex ∨ last = .binary)
    (reached : State.start.run? chars = some last) :
    ∃ first second rest, chars = first :: second :: rest ∧
      first.toNat < 128 ∧ second.toNat < 128 := by
  have unmarked {char : Char} {after : State} (step : State.start.next? char = some after) :
      after ≠ .hex ∧ after ≠ .binary := by
    simp only [State.next?] at step
    grind
  cases chars with
  | nil =>
      obtain rfl := Option.some_inj.mp reached
      exact absurd marked (by decide)
  | cons first behind =>
      obtain ⟨after, step, later⟩ := Option.bind_eq_some_iff.mp reached
      cases behind with
      | nil =>
          obtain rfl := Option.some_inj.mp later
          exact absurd marked (not_or.mpr (unmarked step))
      | cons second rest =>
          obtain ⟨next, again, _⟩ := Option.bind_eq_some_iff.mp later
          exact ⟨first, second, rest, rfl, State.ascii_of_next? step, State.ascii_of_next? again⟩

theorem Recognised.prefixed {token : Token} (recognised : Recognised token) : token.Prefixed := by
  intro radix
  cases recognised with
  | mark fixed => rcases radix with radix | radix <;> simp [radix] at fixed
  | lexeme _ kind =>
      cases reached : State.start.run? token.value.toList with
      | none => rcases radix with radix | radix <;> simp [kindOf, reached, radix] at kind
      | some last =>
          refine State.run?_marked ?_ reached
          rw [reached, kindOf, Option.bind_some] at kind
          rcases radix with radix | radix <;> rw [radix] at kind <;> cases last <;>
            simp [State.kind?] at kind ⊢
          all_goals split at kind <;> contradiction

end Lexeme

/-- Reading the tokens comes to an end: it does not get stuck, and tokens are left over
only behind a last complaint about the first of them. -/
structure Reading.Completes (tokens : List Token) : Prop where
  stuck : (Reading.wholeProgram.run (.initial tokens)).2.stuck = false
  unread : (Reading.wholeProgram.run (.initial tokens)).2.rest <:+ tokens
  ends : (Reading.wholeProgram.run (.initial tokens)).2.rest = [] ∨
    (Program.ofTokens tokens).errors.back? =
      some ⟨.trailingTokens, (Reading.wholeProgram.run (.initial tokens)).2.rest.head?⟩

/-- Reading completes for all tokens whose marks can be cut off, and those of a source
text are such tokens, errors among them. -/
theorem Program.ofTokens_completes :
    (∀ tokens : List Token, (∀ token ∈ tokens, token.Prefixed) → Reading.Completes tokens) ∧
      ∀ source : String, ∀ token ∈ tokenize source, token.Prefixed := by
  constructor
  · intro tokens starts
    have proceeds := Reading.wholeProgram_proceeds (.initial tokens)
    have marked : Reading.Marked (.initial tokens) := fun token member =>
      (starts token member).cutsMark
    exact ⟨proceeds.stuck marked, proceeds.rest, proceeds.reached⟩
  · exact fun source token member => (tokenize_recognised source token member).prefixed

/-- A brace without its counterpart is left over, behind a hexadecimal number. -/
theorem Program.ofTokens_completes_brace :
    Reading.Completes [⟨"0x1F", .hexadecimal, 1⟩, ⟨"\x7d", .delimiter, 1⟩] ∧
      ∀ token ∈ tokenize "0x1F \x7d", token.Prefixed := by
  refine ⟨Program.ofTokens_completes.1 _ ?_, Program.ofTokens_completes.2 _⟩
  intro token member
  rcases List.mem_cons.mp member with rfl | member
  · exact fun _ => ⟨'0', 'x', ['1', 'F'], rfl, by decide, by decide⟩
  · rw [List.mem_singleton.mp member]
    exact fun radix => by rcases radix with impossible | impossible <;> contradiction

end StackLang
