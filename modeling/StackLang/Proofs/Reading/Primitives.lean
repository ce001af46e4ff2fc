import StackLang.Proofs.Reading.Judgement

/-!
# What the primitive readers give

Every primitive that reads a token gives the phrase of that token in a clean run,
and every primitive that records a complaint is a repair, whose runs are never
clean.  Loops give repetitions.
-/

namespace StackLang.Reading

open Phrase
open Terminal (Opens allApart)

variable {α β : Type} {before : Cursor}

theorem complain_repairs (complaint : Complaint) : Repairs (complain complaint) := by
  intro before
  refine ⟨⟨List.suffix_refl _, ?_, Nat.le_refl _⟩, trivial, ?_⟩
  · simp [complain, modify, modifyGet, MonadStateOf.modifyGet, StateT.modifyGet, StateT.run,
      Pure.pure]
  · intro unchanged
    have sizes := congrArg Array.size unchanged
    simp [complain, modify, modifyGet, MonadStateOf.modifyGet, StateT.modifyGet, StateT.run,
      Pure.pure] at sizes

theorem skipTo_gives (stop : Option Token → Bool) (before : Cursor) :
    Gives (skipTo stop) before (fun _ => True) fun _ _ => True :=
  ⟨⟨List.dropWhile_suffix _, List.prefix_rfl, Nat.le_refl _⟩, trivial, fun _ => trivial⟩

theorem skip_gives (before : Cursor) :
    Gives skip before (fun _ => True) fun _ _ => True :=
  ⟨⟨List.tail_suffix _, List.prefix_rfl, Nat.le_refl _⟩, trivial, fun _ => trivial⟩

theorem log_gives (entry : TraceEntry) (before : Cursor) :
    Gives (log entry) before (fun _ => True) fun _ _ => True :=
  ⟨⟨List.suffix_refl _, List.prefix_rfl, Nat.le_refl _⟩, trivial, fun _ => trivial⟩

/-- Getting stuck is no complaint and changes nothing else. -/
theorem Gives.stuck {note : Reading Unit} {rest : Reading α} {always : α → Prop}
    {clean : α → Cursor → Prop} (stuck : Bool)
    (run : note.run before = ((), { before with stuck := stuck }))
    (given : Gives rest { before with stuck := stuck } always clean) :
    Gives (do note; rest) before always clean := by
  have whole : (do note; rest : Reading α).run before = rest.run { before with stuck := stuck } := by
    rw [StateT.run_bind, run]
    rfl
  obtain ⟨⟨left, errors, switches⟩, holds, reached⟩ := given
  exact ⟨by rw [whole]; exact ⟨left, errors, switches⟩, by rw [whole]; exact holds,
    by rw [whole]; exact reached⟩

theorem abandon_repairs (complaint : Complaint) (stop : Option Token → Bool) :
    Repairs (abandon complaint stop) :=
  (complain_repairs complaint).bind (skipTo_gives stop)

/-- Stepping over the next token and logging it. -/
theorem Gives.consume {entry : TraceEntry} {rest : Reading α} {always : α → Prop}
    {clean : α → Cursor → Prop} {token : Token} {tail : List Token}
    (next : before.rest = token :: tail) (leaf : entry.leaf? = some token.value)
    (given : ∀ middle, before.Advances middle → before.Consumes [token] middle →
      Gives rest middle always clean) :
    Gives (do skip; log entry; rest) before always clean := by
  let stepped : Cursor :=
    { before with
      rest := before.rest.tail
      trace := before.trace.push ⟨before.depth, entry⟩
      stuck := before.stuck || before.rest.isEmpty }
  have advances : before.Advances stepped := ⟨List.tail_suffix _, List.prefix_rfl, Nat.le_refl _⟩
  have consumes : before.Consumes [token] stepped := by
    constructor
    · simp [stepped, next]
    · simp [stepped, Cursor.leavesOf_push, leaf]
  have after := given stepped advances consumes
  exact ⟨advances.trans after.advances, after.always, after.clean⟩

theorem exists_of_sees {symbol : String} (seen : before.sees symbol = true) :
    ∃ token tail, before.rest = token :: tail ∧ token.spells symbol = true := by
  cases rest : before.rest with
  | nil => simp [Cursor.sees, Cursor.next?, rest] at seen
  | cons token tail => exact ⟨token, tail, rfl, by simpa [Cursor.sees, Cursor.next?, rest] using seen⟩

theorem value_of_spells {token : Token} {symbol : String} (spelled : token.spells symbol = true) :
    token.value = symbol := by
  simp only [Token.spells, Bool.and_eq_true, beq_iff_eq] at spelled
  exact spelled.2

theorem reads_word {middle : Cursor} {symbol : String} {token : Token}
    (consumed : before.Consumes [token] middle) (spelled : token.spells symbol = true) :
    before.Reads (word symbol) middle :=
  ⟨[token], consumed, predicts_word spelled⟩

theorem accept_run_of_sees {symbol : String} (seen : before.sees symbol = true) :
    (accept symbol).run before =
      (do skip; log (.symbol symbol); return true : Reading Bool).run before := by
  change StateT.run (if before.sees symbol = true then _ else _) before = _
  rw [if_pos seen]

theorem accept_run_of_not_sees {symbol : String} (unseen : before.sees symbol = false) :
    (accept symbol).run before = (false, before) := by
  change StateT.run (if before.sees symbol = true then _ else _) before = _
  rw [unseen]
  rfl

theorem accept_gives (symbol : String) (before : Cursor) :
    Gives (accept symbol) before (fun read => read = before.sees symbol) fun read after =>
      (read = true → before.Reads (word symbol) after) ∧ (read = false → after = before) := by
  cases seen : before.sees symbol with
  | false =>
      refine .of_run (return false) (accept_run_of_not_sees seen) ?_
      exact .pure rfl ⟨by simp, fun _ => rfl⟩
  | true =>
      obtain ⟨token, tail, next, spelled⟩ := exists_of_sees seen
      refine .of_run _ (accept_run_of_sees seen) (.consume next ?_ fun middle _ consumed => ?_)
      · rw [value_of_spells spelled]
        rfl
      · exact .pure rfl ⟨fun _ => reads_word consumed spelled, by simp⟩

/-- A symbol that is known to be next. -/
theorem accept_reads (symbol : String) (before : Cursor) :
    Gives (accept symbol) before (fun _ => True) fun _ after =>
      before.sees symbol = true → before.Reads (word symbol) after := by
  refine (accept_gives symbol before).imp (fun _ _ => trivial) ?_
  rintro read after _ result ⟨found, _⟩ seen
  exact found (result.trans seen)

/-- A keyword that is known to be next. -/
theorem keyword_reads (symbol : String) (before : Cursor) :
    Gives (keyword symbol) before (fun _ => True) fun _ after =>
      before.sees symbol = true → before.Reads (word symbol) after := by
  cases seen : before.sees symbol with
  | false =>
      refine (skip_gives before).bind fun _ middle _ _ => ?_
      exact (log_gives _ middle).imp (fun _ => id) fun _ _ _ _ _ _ => by simp
  | true =>
      obtain ⟨token, tail, next, spelled⟩ := exists_of_sees seen
      have given : Gives (do skip; log (.symbol symbol); return () : Reading Unit) before
          (fun _ => True) fun _ after => before.Reads (word symbol) after := by
        refine .consume next ?_ fun middle _ consumed => .pure trivial (reads_word consumed spelled)
        rw [value_of_spells spelled]
        rfl
      exact (given.of_run _ rfl).imp (fun _ => id) fun _ _ _ _ reads _ => reads

/-- Going on from `accept`: the symbol was read, or nothing was. -/
theorem Gives.acceptBranch {symbol : String} {yes no : Reading α} {always : α → Prop}
    {clean : α → Cursor → Prop}
    (found : ∀ middle, before.Advances middle →
      Gives yes middle always fun result after =>
        before.Reads (word symbol) middle → clean result after)
    (missing : before.sees symbol = false → Gives no before always clean) :
    Gives (do if ← accept symbol then yes else no) before always clean := by
  cases seen : before.sees symbol with
  | false => exact .look false (accept_run_of_not_sees seen) (missing seen)
  | true =>
      refine (accept_gives symbol before).bind fun read middle advances result => ?_
      rw [result, seen]
      refine (found middle advances).imp (fun _ => id) ?_
      intro final after _ _ reached outcome
      exact reached (outcome.1 rfl)

/-- A question whose negation is asked decides between the same two ways. -/
theorem unless_eq (question : Reading Bool) (yes no : Reading α) :
    (do if !(← question) then no else yes) = (do if ← question then yes else no) := by
  refine congrArg (question >>= ·) (funext fun answer => ?_)
  cases answer <;> rfl

theorem Gives.acceptUnless {symbol : String} {yes no : Reading α} {always : α → Prop}
    {clean : α → Cursor → Prop}
    (found : ∀ middle, before.Advances middle →
      Gives yes middle always fun result after =>
        before.Reads (word symbol) middle → clean result after)
    (missing : before.sees symbol = false → Gives no before always clean) :
    Gives (do if !(← accept symbol) then no else yes) before always clean := by
  rw [unless_eq]
  exact .acceptBranch found missing

theorem demand_gives {repair : Reading Unit} (repairs : Repairs repair) (symbol : String)
    (before : Cursor) :
    Gives (demand symbol repair) before (fun _ => True) fun _ after =>
      before.Reads (word symbol) after := by
  unfold demand
  refine (accept_gives symbol before).bind fun read middle _ _ => ?_
  cases read with
  | true => exact .pure trivial fun outcome => outcome.1 rfl
  | false => exact (repairs middle).imp (fun _ => id) fun _ _ _ _ impossible => impossible.elim

theorem take_gives (entry : Token → TraceEntry) (before : Cursor)
    (leaf : ∀ token, (entry token).leaf? = some token.value) :
    Gives (take entry) before (fun token? => token? = before.next?) fun token? after =>
      ∀ token, token? = some token → before.Consumes [token] after := by
  unfold take
  refine .look before.next? rfl ?_
  cases next : before.next? with
  | none => exact .stuck true rfl (.pure rfl (by simp))
  | some token =>
      obtain ⟨tail, rest⟩ : ∃ tail, before.rest = token :: tail :=
        List.head?_eq_some_iff.mp next
      refine .consume rest (leaf token) fun middle _ consumed => .pure rfl ?_
      rintro found ⟨⟩
      exact consumed

theorem identifier?_gives (before : Cursor) :
    Gives identifier? before
      (fun name? => ∀ name, name? = some name →
        name.isIdentifier = true ∧ before.next? = some name)
      fun name? after =>
        (∀ name, name? = some name → before.Reads identifier after) ∧
          (name? = none → before.seesIdentifier = false) := by
  unfold identifier?
  refine .branch before.seesIdentifier rfl (fun seen => ?_) fun unseen => ?_
  · have identifies : ∀ name, before.next? = some name → name.isIdentifier = true := by
      intro name next
      simpa [Cursor.seesIdentifier, next] using seen
    refine (take_gives _ before fun _ => rfl).imp ?_ ?_
    · rintro name? result name rfl
      exact ⟨identifies name result.symm, result.symm⟩
    · rintro name? after _ result consumed
      refine ⟨?_, ?_⟩
      · rintro name rfl
        exact ⟨[name], consumed name rfl, predicts_identifier (identifies name result.symm)⟩
      · rintro rfl
        simp [Cursor.seesIdentifier, ← result]
  · exact .pure (by simp) ⟨by simp, fun _ => unseen⟩

/-- Going on from `expect`: the nonterminal can start, and nothing was skipped
unless there was a complaint. -/
theorem Gives.expectBranch {nonterminal : Nonterminal} {complaint : Complaint}
    {yes no : Reading α} {always : α → Prop} {clean : α → Cursor → Prop}
    (start : ∀ middle, before.Advances middle → middle.seesStart nonterminal = true →
      Gives yes middle always fun result after => middle = before → clean result after)
    (giveUp : ∀ middle, before.Advances middle → Gives no middle always fun _ _ => True) :
    Gives (do if ← expect nonterminal complaint then yes else no) before always clean := by
  cases seen : before.seesStart nonterminal with
  | true =>
      have run : (expect nonterminal complaint).run before = (true, before) := by
        change StateT.run (if before.seesStart nonterminal = true then _ else _) before = _
        rw [if_pos seen]
        rfl
      refine .look true run ?_
      refine (start before (.refl before) seen).imp (fun _ => id) ?_
      intro result after _ _ reached
      exact reached rfl
  | false =>
      have run : (expect nonterminal complaint).run before =
          (recover nonterminal complaint).run before := by
        change StateT.run (if before.seesStart nonterminal = true then _ else _) before = _
        rw [seen]
        rfl
      let recovered : Reading α := do
        abandon complaint fun next =>
          nonterminal.startsWith next || nonterminal.endsBefore next
        if ← seesStart nonterminal then yes else no
      refine of_run recovered ?_ ?_
      · rw [StateT.run_bind, run]
        rfl
      · refine .repaired (abandon_repairs _ _) fun middle advances => ?_
        refine .branch (middle.seesStart nonterminal) rfl (fun seen => ?_) fun _ => ?_
        · exact (start middle advances seen).imp (fun _ => id) fun _ _ _ _ _ => trivial
        · exact giveUp middle advances

theorem Gives.expectUnless {nonterminal : Nonterminal} {complaint : Complaint}
    {yes no : Reading α} {always : α → Prop} {clean : α → Cursor → Prop}
    (start : ∀ middle, before.Advances middle → middle.seesStart nonterminal = true →
      Gives yes middle always fun result after => middle = before → clean result after)
    (giveUp : ∀ middle, before.Advances middle → Gives no middle always fun _ _ => True) :
    Gives (do if !(← expect nonterminal complaint) then no else yes) before always clean := by
  rw [unless_eq]
  exact .expectBranch start giveUp

/-- Reading inside of a nonterminal. -/
theorem Gives.rule {nonterminal : Nonterminal} {body : Reading α} {always : α → Prop}
    {outer : α → Cursor → Prop} (inner : α → Cursor → Prop)
    (inside : Gives body (before.enter nonterminal) always inner)
    (left : ∀ result after, inner result after →
      outer result { after with depth := before.depth }) :
    Gives (Reading.rule nonterminal body) before always outer :=
  ⟨⟨inside.advances.rest, inside.advances.errors, inside.advances.switches⟩, inside.always,
    fun unchanged =>
    left _ _ (inside.clean unchanged)⟩

/-! ## Questions -/

/-- The question is whether one of the terminals is next. -/
def Asks (question : Reading Bool) (terminals : List Terminal) : Prop :=
  ∀ before : Cursor, question.run before = (Terminal.anyAccepts terminals before.next?, before)

theorem asks_seesStart (nonterminal : Nonterminal) :
    Asks (seesStart nonterminal) nonterminal.first :=
  fun _ => rfl

theorem asks_sees (symbol : String) : Asks (sees symbol) [.word symbol] := by
  intro before
  change (before.sees symbol, before) = _
  simp [Cursor.sees, Terminal.anyAccepts]

theorem asks_atEnd : Asks atEnd [.endOfInput] := by
  intro before
  cases before with
  | mk rest depth trace errors switches stuck => cases rest <;> rfl

theorem asks_seesAny (terminals : List Terminal) : Asks (seesAny terminals) terminals :=
  fun _ => rfl

theorem asks_seesIdentifier : Asks seesIdentifier [.identifier] := by
  intro before
  change (before.seesIdentifier, before) = _
  simp [Cursor.seesIdentifier, Terminal.anyAccepts]

theorem sees_eq_seesAny (symbol : String) : sees symbol = seesAny [.word symbol] :=
  funext (asks_sees symbol)

theorem seesIdentifier_eq_seesAny : seesIdentifier = seesAny [.identifier] :=
  funext asks_seesIdentifier

namespace Asks

variable {question : Reading Bool} {terminals known : List Terminal}

/-- What is known to be next starts nothing that is asked about. -/
theorem run_of_apart (asks : Asks question terminals) (opens : Opens known before.rest)
    (apart : allApart known terminals = true) : question.run before = (false, before) := by
  rw [asks before, Cursor.next?, opens.anyAccepts_eq_false apart]

theorem run_of_within (asks : Asks question terminals) (opens : Opens known before.rest)
    (within : known ⊆ terminals) : question.run before = (true, before) := by
  have seen : Terminal.anyAccepts terminals before.rest.head? = true := opens.mono within
  rw [asks before, Cursor.next?, seen]

end Asks

/-! ## Loops -/

/-- A loop of refinements.  `reached` relates a value and a cursor to the last
value and cursor; a round that ends the loop establishes it, and a round that
goes on carries it back. -/
theorem refineFor_gives {round : α → Reading (Option α)} {start : Cursor} {always : α → Prop}
    {reached : α → Cursor → α → Cursor → Prop}
    (step : ∀ value cursor, start.Advances cursor → always value →
      Gives (round value) cursor (fun next? => ∀ next, next? = some next → always next)
        fun next? middle =>
          (next? = none → reached value cursor value middle) ∧
            ∀ next, next? = some next →
              middle.rest.length < cursor.rest.length ∧
                ∀ final after, reached next middle final after → reached value cursor final after)
    (bound : Nat) (value : α) (before : Cursor) (advances : start.Advances before)
    (holds : always value) :
    Gives (refineFor round bound value) before always fun final after =>
      before.rest.length < bound → reached value before final after := by
  induction bound generalizing value before with
  | zero => exact .stuck true rfl (.pure holds (by simp))
  | succ bound ih =>
      unfold refineFor
      refine (step value before advances holds).bind fun next? middle moved nextHolds => ?_
      cases next? with
      | none => exact .pure holds fun ended _ => ended.1 rfl
      | some next =>
          have rest := ih next middle (advances.trans moved) (nextHolds next rfl)
          refine rest.imp (fun _ => id) ?_
          intro final after _ _ later outcome enough
          obtain ⟨shorter, carried⟩ := outcome.2 next rfl
          exact carried final after (later (by omega))

theorem refine_gives {round : α → Reading (Option α)} (always : α → Prop)
    (reached : α → Cursor → α → Cursor → Prop)
    (step : ∀ value cursor, before.Advances cursor → always value →
      Gives (round value) cursor (fun next? => ∀ next, next? = some next → always next)
        fun next? middle =>
          (next? = none → reached value cursor value middle) ∧
            ∀ next, next? = some next →
              middle.rest.length < cursor.rest.length ∧
                ∀ final after, reached next middle final after → reached value cursor final after)
    (value : α) (holds : always value) :
    Gives (refine round value) before always fun final after =>
      reached value before final after :=
  .look before rfl <|
    (refineFor_gives step (before.rest.length + 1) value before (.refl before) holds).imp
      (fun _ => id) fun _ _ _ _ reached => reached (Nat.lt_succ_self _)

/-- A loop that collects results. -/
theorem collectFor_gives {round : Reading (Option α)} {start : Cursor} {always : α → Prop}
    {reached : Cursor → List α → Cursor → Prop}
    (step : ∀ cursor, start.Advances cursor →
      Gives round cursor (fun next? => ∀ next, next? = some next → always next)
        fun next? middle =>
          (next? = none → reached cursor [] middle) ∧
            ∀ next, next? = some next →
              middle.rest.length < cursor.rest.length ∧
                ∀ rest after, reached middle rest after → reached cursor (next :: rest) after)
    (bound : Nat) (before : Cursor) (advances : start.Advances before) :
    Gives (collectFor round bound) before (fun results => ∀ result ∈ results, always result)
      fun results after => before.rest.length < bound → reached before results after := by
  induction bound generalizing before with
  | zero => exact .stuck true rfl (.pure (by simp) (by simp))
  | succ bound ih =>
      unfold collectFor
      refine (step before advances).bind fun next? middle moved nextHolds => ?_
      cases next? with
      | none => exact .pure (by simp) fun ended _ => ended.1 rfl
      | some next =>
          have rest := ih middle (advances.trans moved)
          refine rest.map ?_ ?_
          · intro results restHold result member
            rcases List.mem_cons.mp member with rfl | later
            · exact nextHolds result rfl
            · exact restHold result later
          · intro results after _ _ later outcome enough
            obtain ⟨shorter, carried⟩ := outcome.2 next rfl
            exact carried results after (later (by omega))

theorem collect_gives {round : Reading (Option α)} (always : α → Prop)
    (reached : Cursor → List α → Cursor → Prop)
    (step : ∀ cursor, before.Advances cursor →
      Gives round cursor (fun next? => ∀ next, next? = some next → always next)
        fun next? middle =>
          (next? = none → reached cursor [] middle) ∧
            ∀ next, next? = some next →
              middle.rest.length < cursor.rest.length ∧
                ∀ rest after, reached middle rest after → reached cursor (next :: rest) after) :
    Gives (collect round) before (fun results => ∀ result ∈ results, always result)
      fun results after => reached before results after :=
  .look before rfl <|
    (collectFor_gives step (before.rest.length + 1) before (.refl before)).imp
      (fun _ => id) fun _ _ _ _ reached => reached (Nat.lt_succ_self _)

end StackLang.Reading
