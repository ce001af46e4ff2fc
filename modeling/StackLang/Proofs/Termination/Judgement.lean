import StackLang.Code.Literal
import StackLang.Proofs.Reading.Primitives

/-!
# Readers that never get stuck

`Reading.Proceeds` speaks about every run of a reader, with complaints or without:
tokens are only consumed, reading does not get stuck if literals have the marks of their
kinds, and the result and the last cursor have a property.  A loop proceeds if each of its
rounds but the last consumes a token, since its bound counts the tokens that are left.
-/

namespace StackLang.Reading

variable {α β : Type} {before : Cursor}

/-- The marks of all literals ahead can be cut off. -/
def Marked (cursor : Cursor) : Prop := ∀ token ∈ cursor.rest, token.cutsMark = true

theorem Marked.after {after : Cursor} (marked : Marked before) (left : after.rest <:+ before.rest) :
    Marked after :=
  fun token member => marked token (left.subset member)

/-- What a run of a reader proceeds to. -/
structure Proceeds (reader : Reading α) (before : Cursor) (reached : α → Cursor → Prop) :
    Prop where
  rest : (reader.run before).2.rest <:+ before.rest
  stuck : Marked before → (reader.run before).2.stuck = before.stuck
  reached : reached (reader.run before).1 (reader.run before).2

/-- A run proceeds, wherever it arrives. -/
abbrev Ends (reader : Reading α) (before : Cursor) : Prop := Proceeds reader before fun _ _ => True

/-- Every run on fewer than `size` tokens proceeds. -/
def Below (size : Nat) (reader : Reading α) : Prop :=
  ∀ before : Cursor, before.rest.length < size → Ends reader before

/-- Fewer tokens are left than before. -/
def Shorter (before after : Cursor) : Prop := after.rest.length < before.rest.length

theorem Shorter.of_rest {token : Token} {tail : List Token} {after : Cursor}
    (next : before.rest = token :: tail) (left : after.rest <:+ tail) : Shorter before after := by
  have size := left.length_le
  rw [Shorter, next, List.length_cons]
  omega

namespace Proceeds

variable {reached : α → Cursor → Prop} {final : β → Cursor → Prop}

theorem pure {result : α} (arrives : reached result before) :
    Proceeds (Pure.pure result) before reached :=
  ⟨List.suffix_refl _, fun _ => rfl, arrives⟩

theorem bind {reader : Reading α} {next : α → Reading β}
    (first : Proceeds reader before reached)
    (second : ∀ result middle, middle.rest.length ≤ before.rest.length → reached result middle →
      Proceeds (next result) middle final) :
    Proceeds (reader >>= next) before final := by
  have rest := second _ _ first.rest.length_le first.reached
  refine ⟨rest.rest.trans first.rest, fun marked => ?_, rest.reached⟩
  exact Eq.trans (rest.stuck (marked.after first.rest)) (first.stuck marked)

theorem imp {weaker : α → Cursor → Prop} {reader : Reading α}
    (proceeds : Proceeds reader before reached)
    (follows : ∀ result after, after.rest.length ≤ before.rest.length → reached result after →
      weaker result after) :
    Proceeds reader before weaker :=
  ⟨proceeds.rest, proceeds.stuck, follows _ _ proceeds.rest.length_le proceeds.reached⟩

theorem ends {reader : Reading α} (proceeds : Proceeds reader before reached) :
    Ends reader before :=
  proceeds.imp fun _ _ _ _ => trivial

theorem map {reader : Reading α} {function : α → β} (proceeds : Ends reader before) :
    Ends (function <$> reader) before :=
  proceeds.bind fun _ _ _ _ => .pure trivial

theorem ite {condition : Prop} [Decidable condition] {yes no : Reading α}
    (holds : condition → Proceeds yes before reached)
    (fails : ¬condition → Proceeds no before reached) :
    Proceeds (if condition then yes else no) before reached := by
  split
  · next condition => exact holds condition
  · next condition => exact fails condition

/-- A look at the cursor does not move it. -/
theorem look {reader : Reading α} {next : α → Reading β} (answer : α)
    (run : reader.run before = (answer, before)) (rest : Proceeds (next answer) before final) :
    Proceeds (reader >>= next) before final := by
  have whole : (reader >>= next).run before = (next answer).run before := by
    rw [StateT.run_bind, run]
    rfl
  exact ⟨whole ▸ rest.rest, whole ▸ rest.stuck, whole ▸ rest.reached⟩

/-- A look at the cursor that decides between two ways to go on. -/
theorem branch {question : Reading Bool} {yes no : Reading α} (answer : Bool)
    (run : question.run before = (answer, before))
    (holds : answer = true → Proceeds yes before reached)
    (fails : answer = false → Proceeds no before reached) :
    Proceeds (do if ← question then yes else no) before reached := by
  refine look answer run (ite holds fun failed => fails ?_)
  simpa using failed

/-- Reading inside of a nonterminal. -/
theorem rule {nonterminal : Nonterminal} {body : Reading α}
    (inside : Proceeds body (before.enter nonterminal) fun result after =>
      reached result { after with depth := before.depth }) :
    Proceeds (Reading.rule nonterminal body) before reached :=
  ⟨inside.rest, inside.stuck, inside.reached⟩

end Proceeds

/-! ## Primitives -/

theorem skip_proceeds (more : before.rest ≠ []) :
    Proceeds skip before fun _ after => Shorter before after := by
  obtain ⟨token, tail, next⟩ := List.exists_cons_of_ne_nil more
  refine ⟨List.tail_suffix _, fun _ => ?_, ?_⟩
  · show (before.stuck || before.rest.isEmpty) = before.stuck
    rw [next, List.isEmpty_cons, Bool.or_false]
  · refine .of_rest next ?_
    show before.rest.tail <:+ tail
    rw [next]
    exact List.suffix_refl _

theorem log_proceeds (entry : TraceEntry) (before : Cursor) :
    Proceeds (log entry) before fun _ after => after.rest = before.rest :=
  ⟨List.suffix_refl _, fun _ => rfl, rfl⟩

theorem complain_proceeds (complaint : Complaint) (before : Cursor) :
    Proceeds (complain complaint) before fun _ after => after.rest = before.rest :=
  ⟨List.suffix_refl _, fun _ => rfl, rfl⟩

theorem complain_ends (complaint : Complaint) (before : Cursor) :
    Ends (complain complaint) before :=
  (complain_proceeds complaint before).ends

/-- Skipping leaves out every token at which it does not stop. -/
theorem skipTo_proceeds (stop : Option Token → Bool) (before : Cursor) :
    Proceeds (skipTo stop) before fun _ after =>
      before.next?.any (fun token => !stop (some token)) = true → Shorter before after := by
  refine ⟨List.dropWhile_suffix _, fun _ => rfl, fun goesOn => ?_⟩
  obtain ⟨token, next, passed⟩ := (Option.any_eq_true ..).mp goesOn
  obtain ⟨tail, rest⟩ := List.head?_eq_some_iff.mp next
  refine .of_rest rest ?_
  have dropped : (before.rest.dropWhile fun token => !stop (some token)) =
      tail.dropWhile fun token => !stop (some token) := by
    rw [rest]
    exact List.dropWhile_cons_of_pos passed
  show before.rest.dropWhile _ <:+ tail
  rw [dropped]
  exact List.dropWhile_suffix _

theorem abandon_proceeds (complaint : Complaint) (stop : Option Token → Bool) (before : Cursor) :
    Proceeds (abandon complaint stop) before fun _ after =>
      before.next?.any (fun token => !stop (some token)) = true → Shorter before after := by
  refine (complain_proceeds complaint before).bind fun _ middle _ same => ?_
  refine (skipTo_proceeds stop middle).imp fun _ after _ passed goesOn => ?_
  rw [Shorter, ← same]
  exact passed (by rwa [Cursor.next?, same])

theorem abandon_ends (complaint : Complaint) (stop : Option Token → Bool) (before : Cursor) :
    Ends (abandon complaint stop) before :=
  (abandon_proceeds complaint stop before).ends

/-- Stepping over the next token and logging it. -/
theorem Proceeds.consume {entry : TraceEntry} {rest : Reading α} {reached : α → Cursor → Prop}
    (more : before.rest ≠ [])
    (given : ∀ middle, Shorter before middle → Proceeds rest middle reached) :
    Proceeds (do skip; log entry; rest) before reached := by
  refine (skip_proceeds more).bind fun _ skipped _ shorter => ?_
  refine (log_proceeds entry skipped).bind fun _ middle _ same => given middle ?_
  rwa [Shorter, same]

theorem rest_ne_nil_of_next? {token : Token} (next : before.next? = some token) :
    before.rest ≠ [] := by
  intro empty
  rw [Cursor.next?, empty] at next
  contradiction

theorem rest_ne_nil_of_sees {symbol : String} (seen : before.sees symbol = true) :
    before.rest ≠ [] := by
  obtain ⟨token, tail, next, _⟩ := exists_of_sees seen
  rw [next]
  exact List.cons_ne_nil _ _

theorem take_proceeds (entry : Token → TraceEntry) (more : before.rest ≠ []) :
    Proceeds (take entry) before fun token? after =>
      token?.isSome = true ∧ Shorter before after := by
  obtain ⟨token, tail, rest⟩ := List.exists_cons_of_ne_nil more
  have next : before.next? = some token := by rw [Cursor.next?, rest, List.head?_cons]
  unfold take
  refine .look before.next? rfl ?_
  rw [next]
  exact .consume more fun _ shorter => .pure ⟨rfl, shorter⟩

theorem identifier?_proceeds (before : Cursor) :
    Proceeds identifier? before fun name? after =>
      (name?.isSome = true → Shorter before after) ∧
        (before.seesIdentifier = true → name?.isSome = true) := by
  unfold identifier?
  refine .branch before.seesIdentifier rfl (fun seen => ?_) fun unseen => ?_
  · obtain ⟨name, next, _⟩ := (Option.any_eq_true ..).mp seen
    refine (take_proceeds _ (rest_ne_nil_of_next? next)).imp ?_
    exact fun _ _ _ taken => ⟨fun _ => taken.2, fun _ => taken.1⟩
  · rw [unseen]
    exact .pure ⟨nofun, nofun⟩

theorem accept_proceeds (symbol : String) (before : Cursor) :
    Proceeds (accept symbol) before fun read after =>
      read = before.sees symbol ∧ (read = true → Shorter before after) ∧
        (read = false → after = before) := by
  cases seen : before.sees symbol with
  | false =>
      have run := accept_run_of_not_sees seen
      have given : Proceeds (return false) before fun read after =>
          read = false ∧ (read = true → Shorter before after) ∧ (read = false → after = before) :=
        .pure ⟨rfl, nofun, fun _ => rfl⟩
      exact ⟨run ▸ given.rest, run ▸ given.stuck, run ▸ given.reached⟩
  | true =>
      have run := accept_run_of_sees seen
      have given : Proceeds (do skip; log (.symbol symbol); return true : Reading Bool) before
          fun read after => read = true ∧ (read = true → Shorter before after) ∧
            (read = false → after = before) :=
        .consume (rest_ne_nil_of_sees seen) fun _ shorter => .pure ⟨rfl, fun _ => shorter, nofun⟩
      exact ⟨run ▸ given.rest, run ▸ given.stuck, run ▸ given.reached⟩

theorem accept_ends (symbol : String) (before : Cursor) : Ends (accept symbol) before :=
  (accept_proceeds symbol before).ends

theorem keyword_proceeds {symbol : String} (seen : before.sees symbol = true) :
    Proceeds (keyword symbol) before fun _ after => Shorter before after := by
  refine (skip_proceeds (rest_ne_nil_of_sees seen)).bind fun _ middle _ shorter => ?_
  refine (log_proceeds _ middle).imp fun _ after _ same => ?_
  rwa [Shorter, same]

theorem demand_ends {repair : Reading Unit} (repairs : ∀ before, Ends repair before)
    (symbol : String) (before : Cursor) : Ends (demand symbol repair) before := by
  refine (accept_ends symbol before).bind fun read middle _ _ => ?_
  cases read with
  | true => exact .pure trivial
  | false => exact repairs middle

theorem demand_complain_ends (symbol : String) (complaint : Complaint) (before : Cursor) :
    Ends (demand symbol (complain complaint)) before :=
  demand_ends (complain_ends complaint) symbol before

theorem demand_abandon_ends (symbol : String) (complaint : Complaint)
    (stop : Option Token → Bool) (before : Cursor) :
    Ends (demand symbol (abandon complaint stop)) before :=
  demand_ends (abandon_ends complaint stop) symbol before

theorem recover_proceeds (nonterminal : Nonterminal) (complaint : Complaint) (before : Cursor) :
    Proceeds (recover nonterminal complaint) before fun starts after =>
      starts = after.seesStart nonterminal :=
  (abandon_ends _ _ before).bind fun _ _ _ _ => .look _ rfl (.pure rfl)

/-- A nonterminal that can start is not recovered, and one that was recovered can start. -/
theorem expect_proceeds (nonterminal : Nonterminal) (complaint : Complaint) (before : Cursor) :
    Proceeds (expect nonterminal complaint) before fun starts after =>
      starts = after.seesStart nonterminal ∧
        (before.seesStart nonterminal = true → after = before) := by
  refine .branch (before.seesStart nonterminal) rfl (fun seen => ?_) fun unseen => ?_
  · exact .pure ⟨seen.symm, fun _ => rfl⟩
  · refine (recover_proceeds nonterminal complaint before).imp fun _ _ _ starts => ⟨starts, ?_⟩
    rw [unseen]
    exact nofun

/-! ## Loops -/

/-- A round of a loop proceeds, and consumes a token unless it is the last. -/
abbrev Rounds (round : Reading (Option α)) (before : Cursor) : Prop :=
  Proceeds round before fun next? after => next?.isSome = true → Shorter before after

theorem collectFor_ends {round : Reading (Option α)} {size : Nat}
    (rounds : ∀ cursor : Cursor, cursor.rest.length ≤ size → Rounds round cursor) (bound : Nat)
    (before : Cursor) (small : before.rest.length ≤ size) (enough : before.rest.length < bound) :
    Ends (collectFor round bound) before := by
  induction bound generalizing before with
  | zero => exact absurd enough (Nat.not_lt_zero _)
  | succ bound ih =>
      refine (rounds before small).bind fun next? middle fits shorter => ?_
      cases next? with
      | none => exact .pure trivial
      | some next =>
          have less : middle.rest.length < before.rest.length := shorter rfl
          exact (ih middle (by omega) (by omega)).bind fun _ _ _ _ => .pure trivial

theorem collect_ends {round : Reading (Option α)} (before : Cursor)
    (rounds : ∀ cursor : Cursor, cursor.rest.length ≤ before.rest.length → Rounds round cursor) :
    Ends (collect round) before :=
  .look before rfl (collectFor_ends rounds _ before (Nat.le_refl _) (Nat.lt_succ_self _))

theorem refineFor_ends {round : α → Reading (Option α)} {size : Nat}
    (rounds : ∀ value, ∀ cursor : Cursor, cursor.rest.length ≤ size → Rounds (round value) cursor)
    (bound : Nat) (value : α) (before : Cursor) (small : before.rest.length ≤ size)
    (enough : before.rest.length < bound) :
    Ends (refineFor round bound value) before := by
  induction bound generalizing value before with
  | zero => exact absurd enough (Nat.not_lt_zero _)
  | succ bound ih =>
      refine (rounds value before small).bind fun next? middle fits shorter => ?_
      cases next? with
      | none => exact .pure trivial
      | some next =>
          have less : middle.rest.length < before.rest.length := shorter rfl
          exact ih next middle (by omega) (by omega)

theorem refine_ends {round : α → Reading (Option α)} (value : α) (before : Cursor)
    (rounds : ∀ value, ∀ cursor : Cursor, cursor.rest.length ≤ before.rest.length →
      Rounds (round value) cursor) :
    Ends (refine round value) before :=
  .look before rfl (refineFor_ends rounds _ value before (Nat.le_refl _) (Nat.lt_succ_self _))

end StackLang.Reading
