import StackLang.Grammar.Statement
import StackLang.Proofs.Termination.Expression

/-!
# Reading statements never gets stuck

A nested statement stands behind a keyword or a brace, so its reader is left one token
and one level of nesting less.  The loops over statements and clauses consume a token in
each round: a statement at which nothing is read loses its first token, and a clause
without a keyword is skipped from its first token on.
-/

namespace StackLang.Reading

variable {α : Type} {size : Nat} {before : Cursor}

theorem resume_ends (stop : Option Token → Bool) (before : Cursor) : Ends (resume stop) before := by
  refine (skipTo_proceeds _ before).bind fun _ middle _ _ => ?_
  refine .branch (middle.sees ";") rfl (fun seen => ?_) fun _ => .pure trivial
  exact (skip_proceeds (rest_ne_nil_of_sees seen)).bind fun _ behind _ _ =>
    (log_proceeds _ behind).ends

theorem terminate_ends (complaint : Complaint) (before : Cursor) :
    Ends (terminate complaint) before :=
  demand_ends (fun middle => (complain_ends complaint middle).bind fun _ after _ _ =>
    resume_ends _ after) ";" before

theorem terminated_ends {statement : Reading Statement} (complaint : Complaint)
    (ends : Ends statement before) : Ends (terminated complaint statement) before :=
  ends.bind fun _ middle _ _ => (terminate_ends complaint middle).bind fun _ _ _ _ => .pure trivial

/-! ## Declarations and assignments -/

/-- The name of a type is one token. -/
theorem typeName_proceeds (more : before.rest ≠ []) :
    Proceeds typeName before fun _ after => Shorter before after := by
  obtain ⟨token, tail, rest⟩ := List.exists_cons_of_ne_nil more
  have next : before.next? = some token := by rw [Cursor.next?, rest, List.head?_cons]
  have inside : (before.enter .type).rest ≠ [] := more
  refine .rule (.look before.next? rfl ?_)
  rw [next]
  exact Proceeds.bind (take_proceeds _ inside) fun _ _ _ taken => .pure taken.2

theorem declaration_proceeds (more : before.rest ≠ []) :
    Proceeds declaration before fun _ after => Shorter before after := by
  have further {reader : Reading (Option Declaration)} {middle : Cursor}
      (less : Shorter before middle) (ends : Ends reader middle) :
      Proceeds reader middle fun _ after => Shorter before after :=
    ends.imp fun _ _ fits _ => Nat.lt_of_le_of_lt fits less
  refine .rule (.bind (typeName_proceeds more) fun type? named _ less => further less ?_)
  cases type? with
  | none => exact .pure trivial
  | some type =>
      refine (identifier?_proceeds named).bind fun name? middle _ _ => ?_
      cases name? with
      | none => exact (abandon_ends _ _ middle).bind fun _ _ _ _ => .pure trivial
      | some name =>
          refine (accept_ends "=" middle).bind fun read behind _ _ => .ite (fun _ => .pure trivial) ?_
          refine fun _ => .branch _ rfl (fun _ => ?_) fun _ => ?_
          · have constant : Ends constant? behind := by
              refine .look _ rfl ?_
              cases behind.next? with
              | none => exact .pure trivial
              | some token => exact .look _ rfl (.pure trivial)
            exact constant.bind fun _ value _ _ =>
              (foreseen_ends value).bind fun _ _ _ _ => .pure trivial
          · exact (abandon_ends _ _ behind).bind fun _ _ _ _ => .pure trivial

theorem abandonAssignment_ends (target : Token) (complaint : Complaint) (before : Cursor) :
    Ends (abandonAssignment target complaint) before :=
  (abandon_ends _ _ before).bind fun _ _ _ _ => .pure trivial

theorem assignment_ends (before : Cursor) : Ends assignment before := by
  refine .rule ((identifier?_proceeds _).bind fun target? middle _ _ => ?_)
  cases target? with
  | none => exact .pure trivial
  | some target =>
      refine .look middle.next? rfl ?_
      cases found : middle.next?.bind AssignmentOperator.ofToken? with
      | none => exact abandonAssignment_ends target _ middle
      | some operator =>
          obtain ⟨token, next, _⟩ := Option.bind_eq_some_iff.mp found
          refine .consume (rest_ne_nil_of_next? next) fun behind _ => ?_
          cases operator.step? with
          | some step => exact .pure trivial
          | none =>
              refine .branch _ rfl (fun _ => ?_) fun _ => abandonAssignment_ends target _ behind
              exact (foreseen_ends behind).bind fun _ _ _ _ => .pure trivial

/-! ## Simple statements -/

theorem unlessSees_ends (symbol : String) {reader : Reading α}
    (ends : ∀ before, Ends reader before) (before : Cursor) :
    Ends (unlessSees symbol reader) before :=
  .branch _ rfl (fun _ => .pure trivial) fun _ =>
    (ends before).bind fun _ _ _ _ => .pure trivial

theorem print_ends (starts : before.seesStart .print = true) : Ends print before := by
  refine .rule (.bind (take_proceeds _ ?_) fun keyword? middle _ _ => ?_)
  · exact rest_ne_nil_of_seesStart starts
  cases keyword? with
  | none => exact .pure trivial
  | some keyword =>
      refine (accept_ends "(" middle).bind fun read opened _ _ => .ite (fun _ => ?_) fun _ => ?_
      · exact (abandon_ends _ _ opened).bind fun _ _ _ _ => .pure trivial
      · refine (unlessSees_ends ")" expression_ends opened).bind fun _ closing _ _ => ?_
        exact (demand_abandon_ends _ _ _ closing).bind fun _ _ _ _ => .pure trivial

theorem read_ends (seen : before.sees "inputln" = true) : Ends read before := by
  refine .rule (.bind (keyword_proceeds seen) fun _ middle _ _ => ?_)
  refine (accept_ends "(" middle).bind fun read opened _ _ => .ite (fun _ => ?_) fun _ => ?_
  · exact (abandon_ends _ _ opened).bind fun _ _ _ _ => .pure trivial
  · refine (identifier?_proceeds opened).bind fun target? closing _ _ => ?_
    cases target? with
    | none => exact (abandon_ends _ _ closing).bind fun _ _ _ _ => .pure trivial
    | some target => exact (demand_abandon_ends _ _ _ closing).bind fun _ _ _ _ => .pure trivial

theorem leave_ends (seen : before.sees "break" = true) : Ends leave before :=
  .look _ rfl <| (keyword_proceeds seen).bind fun _ middle _ _ =>
    (terminate_ends _ middle).bind fun _ _ _ _ => .pure trivial

theorem returned_ends (before : Cursor) : Ends returned before := by
  refine .branch _ rfl (fun _ => .pure trivial) fun _ => .branch _ rfl (fun _ => ?_) fun _ => ?_
  · exact (expression_ends before).bind fun _ _ _ _ => .pure trivial
  · exact (abandon_ends _ _ before).bind fun _ _ _ _ => .pure trivial

theorem giveBack_ends (seen : before.sees "return" = true) : Ends giveBack before :=
  .rule <| .look _ rfl <| Proceeds.bind (keyword_proceeds seen) fun _ middle _ _ =>
    (returned_ends middle).bind fun _ ending _ _ =>
      (terminate_ends _ ending).bind fun _ _ _ _ => .pure trivial

theorem evaluation_ends (before : Cursor) : Ends evaluation before :=
  terminated_ends _ (expression_ends before).map

theorem named_ends (before : Cursor) : Ends named before := by
  refine .look _ rfl (.ite (fun _ => terminated_ends _ ?_) fun _ => ?_)
  · refine (call_expression_ends before).bind fun call? _ _ _ => ?_
    cases call? <;> exact .pure trivial
  · refine .look _ rfl (.ite (fun _ => terminated_ends _ ?_) fun _ => evaluation_ends before)
    exact (assignment_ends before).bind fun _ _ _ _ => .pure trivial

theorem stray_ends (before : Cursor) : Ends stray before :=
  (complain_ends _ before).bind fun _ middle _ _ =>
    (resume_ends _ middle).bind fun _ _ _ _ => .pure trivial

/-! ## Control constructs -/

/-- A repair that skips to a symbol and reads it. -/
theorem abandon_accept_ends (complaint : Complaint) (stop : Option Token → Bool)
    (symbol : String) (before : Cursor) :
    Ends (do abandon complaint stop; let _ ← accept symbol) before :=
  (abandon_ends complaint stop before).bind fun _ middle _ _ =>
    (accept_ends symbol middle).bind fun _ _ _ _ => .pure trivial

theorem closeHeader_ends (complaint : Complaint) (before : Cursor) :
    Ends (closeHeader complaint) before :=
  demand_ends (abandon_accept_ends complaint _ ")") ")" before

theorem headerSeparator_ends (complaint : Complaint) (before : Cursor) :
    Ends (headerSeparator complaint) before :=
  demand_ends (abandon_accept_ends complaint _ ";") ";" before

theorem condition_ends (form : ConditionForm) (before : Cursor) : Ends (condition form) before := by
  refine (demand_complain_ends "(" form.opening before).bind fun _ opened _ _ => ?_
  refine (demandForeseen_ends (abandon_ends form.missing _) opened).bind fun _ closing _ _ => ?_
  refine (demand_ends (abandon_accept_ends form.closing _ ")") ")" closing).bind fun _ _ _ _ => ?_
  exact .pure trivial

section

variable {block statement : Reading Statement} {body : Reading (List Statement)}

/-- Behind a keyword there are fewer tokens. -/
theorem Below.behindKeyword {rest : Reading α} {symbol : String} (below : Below size rest)
    (seen : before.sees symbol = true) (small : before.rest.length < size + 1) :
    Ends (do keyword symbol; rest) before := by
  refine (keyword_proceeds seen).bind fun _ middle _ shorter => below middle ?_
  have less : middle.rest.length < before.rest.length := shorter
  omega

/-- Reading goes on with as many tokens at most. -/
theorem Below.behind {reader : Reading α} {β : Type} {next : α → Reading β}
    (ends : ∀ before, Ends reader before) (below : ∀ result, Below size (next result)) :
    Below size (reader >>= next) :=
  fun before small => (ends before).bind fun result _ fits _ =>
    below result _ (Nat.lt_of_le_of_lt fits small)

theorem Below.map {reader : Reading α} {β : Type} {function : α → β} (below : Below size reader) :
    Below size (do return function (← reader)) :=
  fun before small => (below before small).bind fun _ _ _ _ => .pure trivial

theorem whileLoop_ends (below : Below size block) (seen : before.sees "while" = true)
    (small : before.rest.length < size + 1) : Ends (whileLoop block) before :=
  .rule <| Below.behindKeyword (.behind (condition_ends _) fun _ => below.map) seen small

theorem choice_ends (below : Below size block) (seen : before.sees "if" = true)
    (small : before.rest.length < size + 1) : Ends (choice block) before := by
  refine .rule (Below.behindKeyword (.behind (condition_ends _) fun value front small => ?_) seen small)
  refine (below front small).bind fun yes behind fits _ => ?_
  refine (accept_ends "else" behind).bind fun read otherwise onward _ => .ite (fun _ => ?_) ?_
  · exact (below otherwise (by omega)).bind fun _ _ _ _ => .pure trivial
  · exact fun _ => .pure trivial

theorem repeatKeyword_ends (before : Cursor) : Ends repeatKeyword before := by
  refine (accept_ends "while" before).bind fun read middle _ _ => .ite (fun _ => .pure trivial) ?_
  exact fun _ => (abandon_ends _ _ middle).bind fun _ _ _ _ => .look _ rfl (.pure trivial)

theorem doWhile_ends (below : Below size block) (seen : before.sees "do" = true)
    (small : before.rest.length < size + 1) : Ends (doWhile block) before := by
  refine .rule (Below.behindKeyword (fun inside small => ?_) seen small)
  refine (below inside small).bind fun body behind _ _ => ?_
  refine (repeatKeyword_ends behind).bind fun goesOn middle _ _ => .ite (fun _ => .pure trivial) ?_
  refine fun _ => (condition_ends _ middle).bind fun _ ending _ _ => ?_
  exact (terminate_ends _ ending).bind fun _ _ _ _ => .pure trivial

theorem loopStart_ends (before : Cursor) : Ends loopStart before := by
  refine .branch (before.seesStart .type) rfl (fun typed => ?_) fun _ => ?_
  · exact (declaration_proceeds (rest_ne_nil_of_seesStart typed)).bind fun _ _ _ _ => .pure trivial
  · refine .branch _ rfl (fun _ => ?_) fun _ => .pure trivial
    exact (assignment_ends before).bind fun _ _ _ _ => .pure trivial

theorem loopStep_ends (before : Cursor) : Ends loopStep before :=
  .branch _ rfl (fun _ => assignment_ends before) fun _ => .pure trivial

theorem forLoop_ends (below : Below size block) (seen : before.sees "for" = true)
    (small : before.rest.length < size + 1) : Ends (forLoop block) before := by
  refine .rule (Below.behindKeyword ?_ seen small)
  refine .behind (demand_complain_ends _ _) fun _ => .behind loopStart_ends fun _ => ?_
  refine .behind (headerSeparator_ends _) fun _ => ?_
  refine .behind (unlessSees_ends ";" foreseen_ends) fun _ => ?_
  refine .behind (headerSeparator_ends _) fun _ => .behind loopStep_ends fun _ => ?_
  exact .behind (closeHeader_ends _) fun _ => below.map

theorem caseValue_ends (before : Cursor) : Ends caseValue before := by
  refine .branch _ rfl (fun _ => ?_) fun _ => ?_
  · exact (foreseen_ends before).bind fun _ _ _ _ => .pure trivial
  · exact (abandon_ends _ _ before).bind fun _ _ _ _ => .pure trivial

theorem clauseFrom_below (below : Below size body) (test : Option Foreseen) :
    Below size (clauseFrom body test) :=
  .behind (demand_complain_ends _ _) fun _ => below.map

/-- A keyword of a clause is consumed, and so is the first token of what is none. -/
theorem clause?_rounds (below : Below size body) (small : before.rest.length < size + 1) :
    Rounds (clause? body) before := by
  have clause (test : Option Foreseen) :
      Below size (do return some (some (← clauseFrom body test))) :=
    (clauseFrom_below below test).map
  have opened (isCase : Bool) (more : before.rest ≠ []) :
      Rounds (do
        skip
        log (.symbol (if isCase then "case" else "default"))
        let test ← if isCase then caseValue else pure none
        return some (some (← clauseFrom body test))) before := by
    refine .consume more fun middle shorter => ?_
    have less : middle.rest.length < before.rest.length := shorter
    have ends : Ends (do
        let test ← if isCase then caseValue else pure none
        return some (some (← clauseFrom body test))) middle := by
      refine Proceeds.ite (fun _ => ?_) fun _ => clause none middle (by omega)
      exact Below.behind caseValue_ends clause middle (by omega)
    exact ends.imp fun _ after fits _ _ => Nat.lt_of_le_of_lt fits less
  refine .look (before.sees "case") rfl (.look (before.sees "default") rfl ?_)
  refine .ite (fun keyword => opened _ ?_) fun noKeyword => ?_
  · rcases Bool.or_eq_true_iff.mp keyword with seen | seen
    · exact rest_ne_nil_of_sees seen
    · exact rest_ne_nil_of_sees seen
  refine .look before.rest.isEmpty rfl (.look (before.sees "\x7d") rfl ?_)
  refine .ite (fun _ => .pure nofun) fun goesOn => ?_
  refine (abandon_proceeds _ _ before).bind fun _ after _ skipped => .pure fun _ => skipped ?_
  cases rest : before.rest with
  | nil => simp [rest] at goesOn
  | cons token tail =>
      have next : before.next? = some token := by rw [Cursor.next?, rest, List.head?_cons]
      simp only [Cursor.sees, next, rest, Option.any_some, List.isEmpty_cons, Bool.false_or,
        Bool.or_eq_true, not_or, Bool.not_eq_true] at noKeyword goesOn
      simp [next, Terminal.anyAccepts, Terminal.accepts, noKeyword, goesOn]

theorem countSwitch_ends (before : Cursor) : Ends countSwitch before :=
  ⟨List.suffix_refl _, fun _ => rfl, trivial⟩

theorem switch_ends (below : Below size body) (seen : before.sees "switch" = true)
    (small : before.rest.length < size + 1) : Ends (switch body) before := by
  refine .rule (.look _ rfl (Below.behindKeyword ?_ seen small))
  refine .behind (demand_complain_ends _ _) fun _ => ?_
  refine .behind (demandForeseen_ends (complain_ends _)) fun _ => ?_
  refine .behind (closeHeader_ends _) fun _ => .behind countSwitch_ends fun _ => ?_
  refine .behind (accept_ends _) fun _ front small => .ite (fun _ => ?_) fun _ => ?_
  · exact (abandon_ends _ _ front).bind fun _ _ _ _ => .pure trivial
  · refine Proceeds.bind (collect_ends front fun cursor fits => ?_) fun _ closing _ _ => ?_
    · exact clause?_rounds below (by omega)
    · exact (demand_complain_ends _ _ closing).bind fun _ _ _ _ => .pure trivial

/-! ## Lists of statements -/

/-- A round that starts with a token consumes one, its own or another. -/
theorem skipUnlessBelow_proceeds {start : Cursor} (more : start.rest ≠ [])
    (fits : before.rest.length ≤ start.rest.length) :
    Proceeds (skipUnlessBelow start.rest.length) before fun _ after => Shorter start after := by
  refine .look before rfl (.ite (fun same => ?_) fun differ => .pure (by unfold Shorter; omega))
  have still : before.rest ≠ [] := by
    rw [← List.length_pos_iff_ne_nil] at more ⊢
    omega
  refine (skip_proceeds still).imp fun _ after _ shorter => ?_
  rwa [Shorter, ← same]

theorem nextStatement_rounds (below : Below size statement) (small : before.rest.length < size) :
    Rounds (nextStatement statement) before := by
  refine .look before.rest.isEmpty rfl ?_
  refine .look (Terminal.anyAccepts [.word "\x7d", .word "case", .word "default"] before.next?) rfl ?_
  refine .ite (fun _ => .pure nofun) fun goesOn => .look before rfl ?_
  have more : before.rest ≠ [] := by
    intro empty
    simp [empty] at goesOn
  refine (below before small).bind fun result middle fits _ => ?_
  exact (skipUnlessBelow_proceeds more fits).bind fun _ after _ shorter => .pure fun _ => shorter

theorem bodyOf_below (below : Below size statement) : Below size (bodyOf statement) := by
  intro before small
  refine .rule (collect_ends _ fun cursor fits => nextStatement_rounds below ?_)
  exact Nat.lt_of_le_of_lt fits small

/-- A block needs one level less if it has braces. -/
theorem blockOf_ends (below : Below size statement) (small : before.rest.length < size + 1)
    (opens : before.sees "\x7b" = true) : Ends (blockOf statement) before := by
  have starts : (before.enter .block).seesStart .block = true := by
    have seen : (Terminal.word "\x7b").accepts before.next? = true := by
      obtain ⟨brace, next, spelled⟩ := (Option.any_eq_true ..).mp opens
      rw [next]
      exact spelled
    exact List.any_eq_true.mpr ⟨_, List.mem_cons_self, seen⟩
  refine .rule ((expect_proceeds _ _ _).bind fun can middle _ ⟨_, still⟩ => .ite ?_ ?_)
  · exact fun _ => .pure trivial
  obtain rfl := still starts
  refine fun _ => (accept_proceeds "\x7b" _).bind fun read inside _ ⟨found, shorter, _⟩ => ?_
  have read : read = true := found.trans opens
  subst read
  have less : inside.rest.length < before.rest.length := shorter rfl
  refine Proceeds.bind (bodyOf_below below inside (by omega)) fun _ closing _ _ => ?_
  exact (demand_complain_ends _ _ closing).bind fun _ _ _ _ => .pure trivial

theorem blockOf_below (below : Below size statement) : Below size (blockOf statement) := by
  intro before small
  refine .rule ((expect_proceeds _ _ _).bind fun can middle fits _ => .ite (fun _ => .pure trivial) ?_)
  have small : middle.rest.length < size := Nat.lt_of_le_of_lt fits small
  refine fun _ => (accept_ends "\x7b" middle).bind fun read inside onward _ => ?_
  have small : inside.rest.length < size := Nat.lt_of_le_of_lt onward small
  refine .ite (fun _ => ?_) fun _ => below inside small
  refine (bodyOf_below below inside small).bind fun _ closing _ _ => ?_
  exact (demand_complain_ends _ _ closing).bind fun _ _ _ _ => .pure trivial

/-- One level of nesting more serves one token more. -/
theorem statementOf_below (below : Below size statement) : Below (size + 1) (statementOf statement) := by
  intro before small
  have blocks := blockOf_below below
  refine .branch (before.seesStart .type) rfl (fun typed => terminated_ends _ ?_) fun _ => ?_
  · exact (declaration_proceeds (rest_ne_nil_of_seesStart typed)).bind fun _ _ _ _ => .pure trivial
  refine .branch _ rfl (fun _ => named_ends before) fun _ => ?_
  refine .branch _ rfl (fun starts => terminated_ends _ (print_ends starts)) fun _ => ?_
  refine .branch _ rfl (fun seen => terminated_ends _ (read_ends seen)) fun _ => ?_
  refine .branch _ rfl (fun seen => leave_ends seen) fun _ => ?_
  refine .branch _ rfl (fun seen => giveBack_ends seen) fun _ => ?_
  refine .branch _ rfl (fun seen => whileLoop_ends blocks seen small) fun _ => ?_
  refine .branch _ rfl (fun seen => choice_ends blocks seen small) fun _ => ?_
  refine .branch _ rfl (fun seen => doWhile_ends blocks seen small) fun _ => ?_
  refine .branch _ rfl (fun seen => forLoop_ends blocks seen small) fun _ => ?_
  refine .branch _ rfl (fun seen => switch_ends (bodyOf_below below) seen small) fun _ => ?_
  refine .branch _ rfl (fun seen => blockOf_ends below small seen) fun _ => ?_
  exact .branch _ rfl (fun _ => evaluation_ends before) fun _ => stray_ends before

end

theorem statementFor_below (depth : Nat) : Below depth (statementFor depth) := by
  induction depth with
  | zero => exact fun _ impossible => absurd impossible (Nat.not_lt_zero _)
  | succ depth ih => exact statementOf_below ih

theorem body_ends (before : Cursor) : Ends body before :=
  .look before rfl (bodyOf_below (statementFor_below _) before (Nat.lt_succ_self _))

end StackLang.Reading
