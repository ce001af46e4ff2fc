import StackLang.Proofs.Fork.Program
import StackLang.Proofs.Grammar.Occurrence

/-!
# A missing semicolon

Two inputs of which the second one lacks the semicolon at the end of a statement.  Up to
the semicolon they are inputs with a fork.  The second run complains there, stays in front
of the token behind the semicolon, and from then on both inputs are the same.
-/

namespace StackLang

open Terminal (Opens allApart)
open Nonterminal (words)
open Phrase (parentheses semicolons)

/-- A semicolon, and the tokens behind it, at which reading resumes. -/
structure Gap where
  semicolon : Token
  back : List Token
  ends : semicolon.spells ";" = true
  resumes : Opens Fork.resumers back

/-- The fork that is behind inputs that have joined, with one complaint made; it is never
met. -/
def Fork.joined : Fork where
  one := [⟨"for", .keyword, 0⟩]
  other := [⟨"while", .keyword, 0⟩]
  fits := fun _ => False
  joins := True
  counts := Eq
  complaints := 1

theorem Fork.joined_firm (bound : Nat) : joined.Firm bound :=
  ⟨id, rfl, rfl, .inr ⟨rfl, rfl⟩⟩

theorem Fork.joined_atStatement : joined.AtStatement :=
  ⟨id, rfl, rfl⟩

/-- Both inputs count their switches alike. -/
theorem Fork.numbered_of_eq {fork : Fork} (counts : fork.counts = Eq) : fork.Numbered := by
  intro count otherCount same
  rw [counts] at same ⊢
  exact ⟨same, congrArg (· + 1) same⟩

namespace Gap

variable (gap : Gap)

/-- The fork at a missing semicolon: in front of it every parenthesis and every `return` is
closed. -/
def fork : Fork where
  one := gap.semicolon :: gap.back
  other := gap.back
  fits := fun tokens => parentheses.Closes "(" tokens ∧ semicolons.Closes "return" tokens
  joins := False
  counts := Eq
  complaints := 0

/-- Places in front of the semicolon or behind it. -/
def On (places : Fork → Place → Stance → Prop) (one : Place) (other : Stance) : Prop :=
  places gap.fork one other ∨ places .joined one other ∧ one.rest.length ≤ gap.back.length

/-- Places at which the same token is next. -/
abbrev Beside : Place → Stance → Prop := gap.On Fork.Beside

/-- Places that belong together. -/
abbrev Near : Place → Stance → Prop := gap.On Fork.Near

variable {gap}

theorem opens_semicolon : Opens [.word ";"] (gap.semicolon :: gap.back) := by
  have accepted : (Terminal.word ";").accepts (some gap.semicolon) = true := gap.ends
  simp [Opens, Terminal.anyAccepts, accepted]

theorem fork_atStatement : gap.fork.AtStatement :=
  ⟨fun fits => ⟨fits.1.suffix (List.suffix_cons _ _), fits.2.suffix (List.suffix_cons _ _)⟩,
    gap.opens_semicolon.mono (by decide), gap.resumes⟩

theorem fork_firm {bound : Nat} (within : (gap.semicolon :: gap.back).length ≤ bound) :
    gap.fork.Firm bound :=
  have plain := gap.fork_atStatement.plain bound
  ⟨plain.tail, plain.opens, plain.otherOpens, .inl within⟩

namespace On

variable {places others : Fork → Place → Stance → Prop} {one : Place} {other : Stance}

theorem imp (on : gap.On places one other)
    (gives : ∀ fork : Fork, fork.AtStatement → places fork one other → others fork one other) :
    gap.On others one other :=
  Or.imp (gives _ fork_atStatement) (And.imp_left (gives _ Fork.joined_atStatement)) on

theorem and {known : Prop} (on : gap.On places one other) (holds : known) :
    gap.On (fun fork one other => places fork one other ∧ known) one other :=
  on.imp fun _ _ places => ⟨places, holds⟩

theorem elim {result : Prop} (on : gap.On places one other)
    (gives : ∀ fork : Fork, fork.AtStatement → places fork one other → result) : result := by
  rcases on with ahead | ⟨behind, _⟩
  · exact gives _ fork_atStatement ahead
  · exact gives _ Fork.joined_atStatement behind

end On

variable {one : Place} {other : Stance}

theorem Beside.next?_eq (beside : gap.Beside one other) : one.next? = other.next? :=
  On.elim beside fun _ _ beside => beside.next?_eq

theorem Beside.near (beside : gap.Beside one other) : gap.Near one other :=
  On.imp beside fun _ _ beside => beside.near

/-- The first input is at the semicolon, or the same is next on both. -/
theorem Near.parted_or_clear (near : gap.Near one other) :
    gap.fork.Parted one other ∨ gap.On Fork.Clear one other := by
  rcases near with (clear | parted) | ⟨clear | ⟨_, fits, _⟩, short⟩
  · exact .inr (.inl clear)
  · exact .inl parted
  · exact .inr (.inr ⟨clear, short⟩)
  · exact fits.elim

theorem parted_opens (parted : gap.fork.Parted one other) : Opens [.word ";"] one.rest :=
  parted.1.1.symm ▸ gap.opens_semicolon

theorem sees_of_parted (parted : gap.fork.Parted one other) : one.sees ";" = true :=
  (one.seesAny_word ";").symm.trans (parted_opens parted)

/-- The semicolon is next on the first input, or the same is next on both. -/
theorem Near.sees_or_clear (near : gap.Near one other) :
    one.sees ";" = true ∨ gap.On Fork.Clear one other :=
  near.parted_or_clear.imp_left sees_of_parted

/-- What is next on the first input is next on both, unless it is the semicolon. -/
theorem Near.beside (near : gap.Near one other) {terminals : List Terminal}
    (apart : allApart [.word ";"] terminals = true)
    (unended : Terminal.anyAccepts terminals none = false)
    (seen : one.seesAny terminals = true) : gap.Beside one other := by
  rcases near.sees_or_clear with semicolon | clear
  · have opens : Opens [.word ";"] one.rest := (one.seesAny_word ";").trans semicolon
    exact nomatch seen.symm.trans (opens.anyAccepts_eq_false apart)
  · exact clear.imp fun _ _ clear => clear.beside unended seen

/-! ## Lengths -/

theorem fork_length (near : gap.fork.Near one other) :
    one.rest.length = other.rest.length + 1 ∧ gap.back.length < one.rest.length := by
  obtain ⟨rest, count⟩ := one
  obtain ⟨⟨otherRest, otherCount⟩, complaints⟩ := other
  rcases near with (⟨together, _⟩ | ⟨⟨joins, _⟩, _⟩) | ⟨⟨rfl, rfl⟩, _⟩
  · cases together with
    | behind joins => exact joins.elim
    | @ahead token tokens _ =>
        have ahead : gap.fork.one.length = gap.fork.other.length + 1 := rfl
        have back : gap.fork.other.length = gap.back.length := rfl
        simp only [List.length_cons, List.length_append]
        omega
  · exact joins.elim
  · exact ⟨rfl, Nat.lt_succ_self _⟩

theorem joined_length (near : Fork.joined.Near one other) :
    one.rest.length = other.rest.length := by
  obtain ⟨rest, count⟩ := one
  obtain ⟨⟨otherRest, otherCount⟩, complaints⟩ := other
  rcases near with (⟨together, _⟩ | ⟨⟨_, rfl, rfl⟩, _⟩) | ⟨_, fits, _⟩
  · cases together with
    | behind => rfl
    | ahead fits => exact fits.elim
  · rfl
  · exact fits.elim

/-- Where the first run has read something the second one has. -/
theorem Near.shrinks {after : Place} {last : Stance} (beside : gap.Beside one other)
    (near : gap.Near after last) (shorter : after.rest.length < one.rest.length) :
    last.rest.length < other.rest.length := by
  rcases beside with beside | ⟨beside, short⟩
  · obtain ⟨length, _⟩ := fork_length beside.near
    have further : gap.back.length + 1 < one.rest.length := beside.clear.length_lt id
    rcases near with ahead | ⟨behind, shortAfter⟩
    · obtain ⟨lengthAfter, _⟩ := fork_length ahead
      omega
    · have lengthAfter := joined_length behind
      omega
  · have length := joined_length beside.near
    rcases near with ahead | ⟨behind, _⟩
    · obtain ⟨_, further⟩ := fork_length ahead
      omega
    · have lengthAfter := joined_length behind
      omega

end Gap

namespace Reading

variable {α : Type} {gap : Gap} {extent : Extent} {rel : α → α → Prop} {one other : Reading α}
  {start finish : Fork → Place → Stance → Prop}

/-! ## Runs on either side of the semicolon -/

/-- Runs that start in front of the semicolon and runs that start behind it. -/
theorem gap_sides
    (ahead : Follows extent (start gap.fork) one other (Related rel (gap.On finish)))
    (behind : Follows extent (start .joined) one other (Related rel (finish .joined))) :
    Follows extent (gap.On start) one other (Related rel (gap.On finish)) := by
  refine ⟨ahead.moves, ahead.otherMoves, ?_⟩
  rintro before counterpart result answer after last (starts | ⟨starts, short⟩) small otherSmall
    goes otherRuns large
  · exact ahead.reaches starts small otherSmall goes otherRuns large
  · obtain ⟨related, places⟩ := behind.reaches starts small otherSmall goes otherRuns large
    exact ⟨related, .inr ⟨places, Nat.le_trans (goes.advances behind.moves).length_le short⟩⟩

/-- Runs that stay on their side. -/
theorem gap_both
    (follows : ∀ fork : Fork, fork.AtStatement → fork.Numbered →
      Follows extent (start fork) one other (Related rel (finish fork))) :
    Follows extent (gap.On start) one other (Related rel (gap.On finish)) :=
  gap_sides
    ((follows _ gap.fork_atStatement (Fork.numbered_of_eq rfl)).giving
      fun _ _ _ _ reached => ⟨reached.1, .inl reached.2⟩)
    (follows _ Fork.joined_atStatement (Fork.numbered_of_eq rfl))

theorem gap_same
    (follows : ∀ fork : Fork, fork.AtStatement → fork.Numbered →
      Follows extent (start fork) one other (Same fun _ => finish fork)) :
    Follows extent (gap.On start) one other (Same fun _ => gap.On finish) := by
  have related : Follows extent (gap.On start) one other (Related Eq (gap.On finish)) :=
    gap_both follows
  exact related

theorem gap_steps (steps : ∀ fork : Fork, fork.AtStatement → Steps (start fork) (finish fork)) :
    Steps (gap.On start) (gap.On finish) := by
  rintro place counterpart (starts | ⟨starts, short⟩)
  · obtain ⟨arrives, lengths⟩ := steps _ gap.fork_atStatement _ _ starts
    exact ⟨.inl arrives, lengths⟩
  · obtain ⟨arrives, lengths⟩ := steps _ Fork.joined_atStatement _ _ starts
    exact ⟨.inr ⟨arrives, Nat.le_trans (List.tail_suffix _).length_le short⟩, lengths⟩

theorem gap_shares {symbol : String}
    (shares : ∀ fork : Fork, fork.AtStatement → Shares extent (start fork) (finish fork) symbol) :
    Shares extent (gap.On start) (gap.On finish) symbol := by
  rintro place counterpart (starts | ⟨starts, short⟩) small otherSmall seen
  · exact (shares _ gap.fork_atStatement _ _ starts small otherSmall seen).imp_left
      (And.imp_right .inl)
  · refine (shares _ Fork.joined_atStatement _ _ starts small otherSmall seen).imp_left
      (And.imp_right fun arrives => .inr ⟨arrives, ?_⟩)
    exact Nat.le_trans (List.tail_suffix _).length_le short

/-! ## Ends of statements -/

/-- Where the same is next a symbol is next on both inputs. -/
theorem clear_shares {fork : Fork} (atStatement : fork.AtStatement) (symbol : String) :
    Shares extent fork.Clear fork.Near symbol := by
  intro place counterpart clear _ _ seen
  have beside := clear.beside rfl ((place.seesAny_word symbol).trans seen)
  exact .inl ⟨beside.sees_eq symbol ▸ seen, beside.step (atStatement.plain extent.bound)⟩

/-- The first run reads the semicolon, and the second one goes on as it does where it is
missing. -/
theorem demand_parted {repair : Reading Unit} (repairs : Repairs repair)
    {reached : Place → Stance → Prop}
    (arrives : ∀ cursor : Cursor, cursor.rest = gap.back → cursor.errors.size = 0 →
      reached ⟨gap.back, cursor.switches⟩ (repair.run cursor).2.stance) :
    Follows extent gap.fork.Parted (demand ";" repair) (demand ";" repair)
      (Same fun _ => reached) := by
  refine ⟨demand_moves ";" repairs, demand_moves ";" repairs, ?_⟩
  rintro before counterpart ⟨⟩ ⟨⟩ after last parted _ _ goes otherRuns _
  obtain ⟨⟨rest, otherRest⟩, _, counted, silent⟩ := parted
  have rest : before.rest = gap.semicolon :: gap.back := rest
  have otherRest : counterpart.rest = gap.back := otherRest
  have counted : before.switches = counterpart.switches := counted
  have seen : before.place.sees ";" = true := by
    rw [Place.sees, Place.next?, Cursor.place, rest]
    exact gap.ends
  have read : (demand ";" repair).run before = ((), ((keyword ";").run before).2) := by
    rw [demand, StateT.run_bind, accept_run_of_sees seen]
    rfl
  have unseen : counterpart.sees ";" = false := by
    have opens : Opens Fork.resumers counterpart.rest := otherRest ▸ gap.resumes
    exact (counterpart.place.seesAny_word ";").symm.trans (opens.anyAccepts_eq_false (by decide))
  have missed : (demand ";" repair).run counterpart = repair.run counterpart := by
    rw [demand, StateT.run_bind, accept_run_of_not_sees unseen]
    rfl
  cases read.symm.trans goes.run
  have ended : last = (repair.run counterpart).2 :=
    congrArg Prod.snd (otherRuns.run.symm.trans missed)
  have place : Cursor.place ((keyword ";").run before).2 = ⟨gap.back, counterpart.switches⟩ := by
    rw [← counted]
    exact congrArg (Place.mk · before.switches) (congrArg List.tail rest)
  rw [ended, place]
  exact ⟨rfl, arrives counterpart otherRest silent⟩

/-- A semicolon is read by both runs, or only by the first one. -/
theorem gap_demand {repair : Reading Unit} (repairs : Repairs repair)
    {reached : Place → Stance → Prop}
    (within : ∀ place counterpart, gap.Near place counterpart → reached place counterpart)
    (arrives : ∀ cursor : Cursor, cursor.rest = gap.back → cursor.errors.size = 0 →
      reached ⟨gap.back, cursor.switches⟩ (repair.run cursor).2.stance) :
    Follows extent gap.Near (demand ";" repair) (demand ";" repair) (Same fun _ => reached) := by
  have clear : Follows extent (gap.On Fork.Clear) (demand ";" repair) (demand ";" repair)
      (Same fun _ => gap.Near) :=
    gap_same fun _ atStatement _ => demand_follows (clear_shares atStatement ";") repairs
  refine Follows.starting (.or (demand_parted repairs arrives) ?_)
    fun _ _ near => near.parted_or_clear
  exact clear.giving fun _ _ _ _ reached => ⟨reached.1, within _ _ reached.2⟩

/-- Behind a complaint at the missing semicolon the inputs have joined. -/
theorem gap_joins {cursor : Cursor} (error : SyntaxError) (rest : cursor.rest = gap.back)
    (silent : cursor.errors.size = 0) :
    gap.Near ⟨gap.back, cursor.switches⟩
      (Cursor.stance { cursor with errors := cursor.errors.push error }) := by
  refine .inr ⟨.of_same trivial rest.symm ⟨rfl, ?_⟩, Nat.le_refl _⟩
  exact (Array.size_push _).trans (congrArg (· + 1) silent)

/-- Tokens in front of which skipping stops are not skipped. -/
theorem skipTo_run_of_stop {stop : Option Token → Bool} {cursor : Cursor}
    (stops : ∀ token, cursor.next? = some token → stop (some token) = true) :
    (skipTo stop).run cursor = ((), cursor) := by
  have kept : (cursor.rest.dropWhile fun token => !stop (some token)) = cursor.rest := by
    cases rest : cursor.rest with
    | nil => rfl
    | cons token tokens =>
        have next : cursor.next? = some token := congrArg List.head? rest
        exact List.dropWhile_cons_of_neg (by simp [stops token next])
  change ((), { cursor with rest := cursor.rest.dropWhile fun token => !stop (some token) }) = _
  rw [kept]

/-- Where reading resumes nothing is skipped. -/
theorem resume_run_of_resumes {cursor : Cursor} (opens : Opens Fork.resumers cursor.rest) :
    (resume fun next => Terminal.anyAccepts openers next || endsBody next).run cursor =
      ((), cursor) := by
  have unseen : cursor.sees ";" = false :=
    (cursor.place.seesAny_word ";").symm.trans (opens.anyAccepts_eq_false (by decide))
  have unread : (sees ";").run cursor = (false, cursor) := congrArg (·, cursor) unseen
  have stops : ∀ token, cursor.next? = some token →
      ((Terminal.word ";").accepts (some token) || (Terminal.anyAccepts openers (some token) ||
        endsBody (some token))) = true := by
    intro token next
    have next : cursor.rest.head? = some token := next
    have resumes : Terminal.anyAccepts Fork.resumers (some token) = true := next ▸ opens
    rw [Fork.resumers, Terminal.anyAccepts, List.any_append, List.any_cons, Bool.or_eq_true,
      Bool.or_eq_true] at resumes
    rcases resumes with starts | ended | ends
    · have starts : Terminal.anyAccepts openers (some token) = true := starts
      rw [starts, Bool.true_or, Bool.or_true]
    · contradiction
    · have opens : Opens (words ["\x7d", "case", "default"]) [token] := ends
      have ends : endsBody (some token) = true := opens.mono (by decide)
      rw [ends, Bool.or_true, Bool.or_true]
  rw [resume, StateT.run_bind, skipTo_run_of_stop stops]
  change StateT.run (sees ";" >>= _) cursor = _
  rw [StateT.run_bind, unread]
  rfl

/-- The end of a statement costs a complaint where the semicolon is missing, and nothing is
skipped. -/
theorem gap_terminate (complaint : Complaint) :
    Follows extent gap.Near (terminate complaint) (terminate complaint)
      (Same fun _ => gap.Near) := by
  refine gap_demand (resume_repairs _ _) (fun _ _ => id) fun cursor rest silent => ?_
  let complained : Cursor :=
    { cursor with errors := cursor.errors.push ⟨complaint, cursor.next?⟩ }
  have opens : Opens Fork.resumers complained.rest := rest.symm ▸ gap.resumes
  have run : StateT.run (do
      complain complaint
      resume fun next => Terminal.anyAccepts openers next || endsBody next) cursor =
        ((), complained) :=
    resume_run_of_resumes opens
  rw [run]
  exact gap_joins _ rest silent

/-- Runs that end with the end of a statement. -/
theorem gap_ending
    (follows : ∀ (fork : Fork) (near : Place → Stance → Prop), fork.AtStatement →
      (∀ complaint, Follows extent fork.Near (terminate complaint) (terminate complaint)
        (Same fun _ => near)) → Follows extent (start fork) one other (Related rel near)) :
    Follows extent (gap.On start) one other (Related rel gap.Near) :=
  gap_sides
    (follows _ _ gap.fork_atStatement fun complaint =>
      (gap_terminate complaint).starting fun _ _ => .inl)
    (follows _ _ Fork.joined_atStatement (terminate_follows (Fork.joined_firm _)))

end Reading

end StackLang
