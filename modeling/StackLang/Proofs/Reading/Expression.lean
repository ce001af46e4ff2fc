import StackLang.Grammar.Expression
import StackLang.Proofs.Grammar.TreeStandard
import StackLang.Proofs.Reading.Foresight

/-!
# What the readers of expressions give

In a clean run every level of precedence reads its category, leaves no gap, and
the preview of the same tokens shows the skeleton of what was read.  The levels
take the reader of nested expressions as a parameter, so each is shown right
relative to it, and the induction is on the depth of parentheses.
-/

namespace StackLang.Reading

open Phrase
open TreeStandard (loose strict)

variable {source : List Token} {size : Nat}

/-- A clean read of an expression by a phrase of the grammar. -/
structure Finds (source : List Token) (phrase : Phrase) (preview : Preview Expr)
    (before : Cursor) (value : Expr) (after : Cursor) : Prop where
  reads : before.Reads phrase after
  meets : value.Meets (strict source)
  shows : preview.run before.rest = .ok (value.skeleton, after.rest)
  balances : before.Balances after

/-- The reader finds the phrase in every clean run on fewer than `size` tokens. -/
def Right (source : List Token) (size : Nat) (phrase : Phrase) (reader : Reading Expr)
    (preview : Preview Expr) : Prop :=
  ∀ before : Cursor, before.rest ⊆ source →
    Gives reader before (Expr.Meets (loose source)) fun value after =>
      before.rest.length < size → Finds source phrase preview before value after

/-- An operator and its right operand were read behind a left operand. -/
structure Extends (source : List Token) (operators : List BinaryOperator) (operand : Category)
    (preview : Preview Expr) (before : Cursor) (left next : Expr) (after : Cursor) : Prop where
  reads : before.Reads
    (.sequence [oneOf (operators.map BinaryOperator.symbol), .category operand]) after
  meets : left.Meets (strict source) → next.Meets (strict source)
  shows : ∃ operator line right rest, next = .binary operator line left right ∧
    (Preview.eat? operators).run before.rest = .ok (some (operator, line), rest) ∧
      preview.run rest = .ok (right.skeleton, after.rest)
  balances : before.Balances after

/-- Reading stays inside of the source. -/
theorem subset_of_advances {before after : Cursor} (advances : before.Advances after)
    (inside : before.rest ⊆ source) : after.rest ⊆ source :=
  List.Subset.trans advances.rest.subset inside

theorem level_right {category : Category} {nonterminal : Nonterminal} {body : Reading Expr}
    {preview : Preview Expr} (complaint : Complaint)
    (right : ∀ before : Cursor, before.rest ⊆ source → before.seesStart nonterminal = true →
      Gives body before (Expr.Meets (loose source)) fun value after =>
        before.rest.length < size → Finds source category.production preview before value after) :
    Right source size (.category category) (level nonterminal complaint body) preview := by
  intro before inside
  unfold level
  refine Gives.rule (fun value after => before.rest.length < size →
    Finds source category.production preview (before.enter nonterminal) value after) ?_ ?_
  · refine .expectBranch (fun middle advances seen => ?_) fun middle _ => ?_
    · refine (right middle (subset_of_advances advances inside) seen).imp (fun _ => id) ?_
      rintro value after _ _ found rfl shorter
      exact found shorter
    · exact .pure trivial trivial
  · intro value after found shorter
    obtain ⟨reads, meets, shows, balances⟩ := found shorter
    exact ⟨reads.category.ofEnter, meets, shows, balances⟩

theorem Right.level {category : Category} {body : Reading Expr} {preview : Preview Expr}
    (right : Right source size category.production body preview) (nonterminal : Nonterminal)
    (complaint : Complaint) :
    Right source size (.category category) (level nonterminal complaint body) preview :=
  level_right complaint fun before inside _ => right before inside

theorem symbol_ne_parenthesis (operator : BinaryOperator) :
    operator.symbol ≠ "(" ∧ operator.symbol ≠ ")" := by
  cases operator <;> decide

theorem extend?_gives {operators : List BinaryOperator} {operand : Category}
    {reader : Reading Expr} {preview : Preview Expr}
    (right : Right source size (.category operand) reader preview) (left : Expr)
    (before : Cursor) (inside : before.rest ⊆ source) :
    Gives (extend? operators reader left) before
      (fun next? => ∀ next, next? = some next → left.Meets (loose source) →
        next.Meets (loose source))
      fun next? after =>
        (next? = none → after = before ∧
          (Preview.eat? operators).run before.rest = .ok (none, before.rest)) ∧
        ∀ next, next? = some next → after.rest.length < before.rest.length ∧
          (before.rest.length < size →
            Extends source operators operand preview before left next after) := by
  unfold extend?
  refine .look (operators.find? fun operator =>
    before.next?.any fun token => token.spells operator.symbol) rfl ?_
  split
  · next missing =>
      exact .pure (by simp) ⟨fun _ => ⟨rfl, Preview.eat?_run_none missing⟩, by simp⟩
  · next operator found =>
      have seen : before.sees operator.symbol = true := by
        have spelled := List.find?_some found
        exact spelled
      obtain ⟨token, tail, next, spelled⟩ := exists_of_sees seen
      refine .look token.line (by simp [line, peek, Cursor.next?, next]; rfl) ?_
      refine .consume next (by rw [value_of_spells spelled]; rfl) fun middle advances consumed => ?_
      refine (right middle (subset_of_advances advances inside)).bind
        fun value after behind valueMeets => .pure ?_ ?_
      · rintro _ ⟨⟩ leftMeets
        exact ⟨leftMeets, valueMeets⟩
      · intro finds
        have shorter : middle.rest.length < before.rest.length := by
          rw [consumed.rest]
          simp
        refine ⟨by simp, ?_⟩
        rintro _ ⟨⟩
        refine ⟨Nat.lt_of_le_of_lt behind.length_le shorter, fun small => ?_⟩
        obtain ⟨reads, meets, shows, balances⟩ := finds (by omega)
        have word := reads_word consumed spelled
        have listed : operator ∈ operators := List.mem_of_find?_eq_some found
        refine ⟨?_, fun leftMeets => ⟨leftMeets, meets⟩, ?_, ?_⟩
        · refine .next (word.choice ?_ rfl) (.last reads)
          exact List.mem_map_of_mem (List.mem_map_of_mem listed)
        · refine ⟨operator, token.line, value, middle.rest, rfl, ?_, shows⟩
          have rest : before.rest = token :: middle.rest := consumed.rest
          rw [rest]
          apply Preview.eat?_run_some
          simpa [Cursor.next?, next] using found
        · obtain ⟨notOpen, notClosed⟩ := symbol_ne_parenthesis operator
          exact (word.word_balances notOpen notClosed).trans balances

/-- A chain was continued behind its left operand. -/
structure Continues (source : List Token) (operators : List BinaryOperator)
    (operand : Category) (preview : Preview Expr) (left : Expr) (before : Cursor)
    (final : Expr) (after : Cursor) : Prop where
  reads : before.Reads
    (.many (.sequence [oneOf (operators.map BinaryOperator.symbol), .category operand])) after
  meets : left.Meets (strict source) → final.Meets (strict source)
  shows : ∀ bound, before.rest.length < bound →
    (Preview.chainFor operators preview bound left.skeleton).run before.rest =
      .ok (final.skeleton, after.rest)
  balances : before.Balances after

namespace Continues

variable {operators : List BinaryOperator} {operand : Category} {preview : Preview Expr}
  {left next final : Expr} {before middle after : Cursor}

theorem stop
    (missing : (Preview.eat? operators).run before.rest = .ok (none, before.rest)) :
    Continues source operators operand preview left before left before := by
  refine ⟨.none before, id, ?_, .refl before⟩
  intro bound enough
  cases bound with
  | zero => exact absurd enough (Nat.not_lt_zero _)
  | succ bound =>
      unfold Preview.chainFor
      rw [Preview.run_bind missing]
      rfl

theorem more (extended : Extends source operators operand preview before left next middle)
    (shorter : middle.rest.length < before.rest.length)
    (rest : Continues source operators operand preview next middle final after) :
    Continues source operators operand preview left before final after := by
  refine ⟨.more extended.reads rest.reads, rest.meets ∘ extended.meets, ?_,
    extended.balances.trans rest.balances⟩
  obtain ⟨operator, line, right, behind, rfl, eaten, shown⟩ := extended.shows
  intro bound enough
  cases bound with
  | zero => omega
  | succ bound =>
      unfold Preview.chainFor
      rw [Preview.run_bind eaten]
      change StateT.run (preview >>= fun right => _) behind = _
      rw [Preview.run_bind shown]
      exact rest.shows bound (by omega)

end Continues

theorem Right.chain {operators : List BinaryOperator} {operand : Category}
    {reader : Reading Expr} {preview : Preview Expr}
    (right : Right source size (.category operand) reader preview) :
    Right source size (Phrase.chain operand (operators.map BinaryOperator.symbol))
      (chain operators reader) (Preview.chain operators preview) := by
  intro before inside
  refine (right before inside).bind fun first middle advances firstMeets => ?_
  have insideMiddle := subset_of_advances advances inside
  refine (refine_gives (Expr.Meets (loose source)) (fun value cursor final after =>
    cursor.rest.length < size →
      Continues source operators operand preview value cursor final after) ?_ first
    firstMeets).imp (fun _ => id) ?_
  · intro value cursor moved valueMeets
    refine (extend?_gives right value cursor (subset_of_advances moved insideMiddle)).imp ?_ ?_
    · intro next? nextMeets next found
      exact nextMeets next found valueMeets
    · rintro next? after _ _ ⟨stopped, went⟩
      refine ⟨?_, ?_⟩
      · intro none _
        obtain ⟨rfl, missing⟩ := stopped none
        exact .stop missing
      · intro next some
        obtain ⟨shorter, extended⟩ := went next some
        refine ⟨shorter, fun final last continued small => ?_⟩
        exact .more (extended small) shorter (continued (by omega))
  · intro final after _ _ continued found small
    obtain ⟨firstReads, firstStrict, firstShows, firstBalances⟩ := found small
    have shorter := advances.length_le
    obtain ⟨restReads, restStrict, restShows, restBalances⟩ := continued (by omega)
    refine ⟨.next firstReads (.last restReads), restStrict firstStrict, ?_,
      firstBalances.trans restBalances⟩
    change StateT.run (preview >>= fun left => _) before.rest = _
    rw [Preview.run_bind firstShows]
    exact restShows _ (Nat.lt_succ_of_le shorter)

theorem Right.relation {reader : Reading Expr} {preview : Preview Expr}
    (right : Right source size (.category .sum) reader preview) :
    Right source size Category.relation.production
      (do
        let left ← reader
        return (← extend? comparisons reader left).getD left)
      (do
        let left ← preview
        match ← Preview.eat? comparisons with
        | none => return left
        | some (operator, line) => return .binary operator line left (← preview)) := by
  intro before inside
  refine (right before inside).bind fun left middle advances leftMeets => ?_
  have insideMiddle := subset_of_advances advances inside
  refine (extend?_gives right left middle insideMiddle).bind fun next? after moved nextMeets => ?_
  cases next? with
  | none =>
      refine .pure leftMeets ?_
      rintro ⟨stopped, _⟩ found small
      obtain ⟨rfl, missing⟩ := stopped rfl
      obtain ⟨reads, meets, shows, balances⟩ := found small
      refine ⟨.next reads (.last (.absent _)), meets, ?_, balances⟩
      rw [Preview.run_bind shows, Preview.run_bind missing]
      rfl
  | some next =>
      refine .pure (nextMeets next rfl leftMeets) ?_
      rintro ⟨_, went⟩ found small
      obtain ⟨leftReads, leftStrict, leftShows, leftBalances⟩ := found small
      have shorter := advances.length_le
      obtain ⟨reads, strict, shows, balances⟩ := (went next rfl).2 (by omega)
      refine ⟨.next leftReads (.last (.present reads)), strict leftStrict, ?_,
        leftBalances.trans balances⟩
      obtain ⟨operator, line, operand, behind, rfl, eaten, shown⟩ := shows
      rw [Preview.run_bind leftShows, Preview.run_bind eaten]
      change StateT.run (preview >>= fun right => _) behind = _
      rw [Preview.run_bind shown]
      rfl

theorem Right.inversionFor {reader : Reading Expr} {preview : Preview Expr}
    (right : Right source size (.category .relation) (Reading.relation reader)
      (Preview.relation preview)) (bound : Nat) (before : Cursor)
    (inside : before.rest ⊆ source) :
    Gives (Reading.inversionFor reader bound) before (Expr.Meets (loose source)) fun value after =>
      before.rest.length < size → before.rest.length < bound →
        Finds source (.category .inversion) (Preview.inversion preview bound) before value
          after := by
  induction bound generalizing before with
  | zero =>
      exact .stuck true rfl (.pure trivial fun _ impossible => absurd impossible (Nat.not_lt_zero _))
  | succ bound ih =>
      have body : Right source (min size (bound + 1)) Category.inversion.production
          (do
            let line ← line
            if ← accept "!" then return .invert line (← Reading.inversionFor reader bound)
            Reading.relation reader)
          (Preview.inversion preview (bound + 1)) := by
        intro before inside
        refine .look _ rfl ?_
        refine .acceptBranch (fun middle advances => ?_) fun missing => ?_
        · have insideMiddle := subset_of_advances advances inside
          refine (ih middle insideMiddle).bind fun operand after _ meets => .pure meets ?_
          intro found word small
          obtain ⟨token, rest, spelled⟩ := word.terminal_rest
          have length : before.rest.length = middle.rest.length + 1 := by simp [rest]
          obtain ⟨reads, strict, shows, balances⟩ := found (by omega) (by omega)
          refine ⟨?_, strict, ?_, (word.word_balances (by decide) (by decide)).trans balances⟩
          · exact (Cursor.Reads.next word (.last reads)).choice (by simp) rfl
          · unfold Preview.inversion
            rw [rest, Preview.run_bind (Preview.symbol?_run_some spelled)]
            change StateT.run (Preview.inversion preview bound >>= fun operand => _) _ = _
            rw [Preview.run_bind shows]
            simp [Cursor.next?, rest, Expr.skeleton]
            rfl
        · refine (right before inside).imp (fun _ => id) ?_
          intro value after _ _ found small
          obtain ⟨reads, strict, shows, balances⟩ := found (by omega)
          refine ⟨reads.choice (by simp) rfl, strict, ?_, balances⟩
          unfold Preview.inversion
          rw [Preview.run_bind (Preview.symbol?_run_none missing)]
          exact shows
      have whole := (body.level .inversion .inversionStart) before inside
      refine whole.imp (fun _ => id) ?_
      intro value after _ _ found small enough
      exact found (by omega)

theorem nextArgument?_gives {reader : Reading Expr} {preview : Preview Expr}
    (right : Right source size (.category .expression) reader preview) (before : Cursor)
    (inside : before.rest ⊆ source) :
    Gives (nextArgument? reader) before
      (fun next? => ∀ next, next? = some next → next.Meets (loose source))
      fun next? after => (next? = none → after = before) ∧
        ∀ next, next? = some next → after.rest.length < before.rest.length ∧
          (before.rest.length < size →
            before.Reads (.sequence [word ",", .category .expression]) after ∧
              next.Meets (strict source) ∧ before.Balances after) := by
  unfold nextArgument?
  refine .acceptUnless (fun middle advances => ?_) fun _ => .pure (by simp) ⟨by simp, by simp⟩
  refine .branch _ rfl (fun _ => ?_) fun _ => ?_
  · have insideMiddle := subset_of_advances advances inside
    refine (right middle insideMiddle).bind fun value after moved meets => .pure ?_ ?_
    · rintro _ ⟨⟩
      exact meets
    · intro found comma
      refine ⟨by simp, ?_⟩
      rintro _ ⟨⟩
      have shorter : middle.rest.length < before.rest.length := comma.word_length_lt
      refine ⟨Nat.lt_of_le_of_lt moved.length_le shorter, fun small => ?_⟩
      obtain ⟨reads, strict, _, balances⟩ := found (by omega)
      exact ⟨.next comma (.last reads), strict,
        (comma.word_balances (by decide) (by decide)).trans balances⟩
  · refine .repaired (abandon_repairs _ _) fun middle _ => .pure ?_ trivial
    rintro _ ⟨⟩
    trivial

/-- Arguments behind commas were read. -/
structure ReadsArguments (source : List Token) (before : Cursor) (values : List Expr)
    (after : Cursor) : Prop where
  reads : before.Reads (.many (.sequence [word ",", .category .expression])) after
  meets : Expr.AllMeet (strict source) values
  balances : before.Balances after

theorem arguments_gives {reader : Reading Expr} {preview : Preview Expr}
    (right : Right source size (.category .expression) reader preview) (before : Cursor)
    (inside : before.rest ⊆ source) :
    Gives (arguments reader) before (Expr.AllMeet (loose source)) fun values after =>
      before.rest.length < size →
        before.Reads (.optional (separated (.category .expression))) after ∧
          Expr.AllMeet (strict source) values ∧ before.Balances after := by
  unfold arguments
  refine Gives.rule (fun values after => before.rest.length < size →
    (before.enter .arguments).Reads (.optional (separated (.category .expression))) after ∧
      Expr.AllMeet (strict source) values ∧ (before.enter .arguments).Balances after) ?_ ?_
  · refine .branch _ rfl (fun seen => ?_) fun unseen => ?_
    · exact .pure trivial fun _ => ⟨.absent _, trivial, .refl _⟩
    · refine .expectUnless (fun middle advances _ => ?_) fun _ _ => .pure trivial trivial
      have insideMiddle := subset_of_advances advances inside
      refine (right middle insideMiddle).bind fun first second moved firstMeets => ?_
      have insideSecond := subset_of_advances moved insideMiddle
      refine (collect_gives (Expr.Meets (loose source)) (fun cursor values after =>
        cursor.rest.length < size → ReadsArguments source cursor values after) ?_).bind
        fun others after _ othersMeet => .pure ?_ ?_
      · intro cursor moved
        have insideCursor := subset_of_advances moved insideSecond
        refine (nextArgument?_gives right cursor insideCursor).imp (fun _ => id) ?_
        rintro next? after _ _ ⟨stopped, went⟩
        refine ⟨?_, ?_⟩
        · intro none _
          rw [stopped none]
          exact ⟨.none _, trivial, .refl _⟩
        · intro next some
          obtain ⟨shorter, read⟩ := went next some
          refine ⟨shorter, fun rest last reached small => ?_⟩
          obtain ⟨reads, strict, balances⟩ := read small
          obtain ⟨restReads, restStrict, restBalances⟩ := reached (by omega)
          exact ⟨.more reads restReads, ⟨strict, restStrict⟩, balances.trans restBalances⟩
      · exact ⟨firstMeets, Expr.allMeet_iff.mpr othersMeet⟩
      · rintro reached found rfl small
        obtain ⟨firstReads, firstStrict, _, firstBalances⟩ := found small
        have shorter := moved.length_le
        obtain ⟨reads, strict, balances⟩ := reached (Nat.lt_of_le_of_lt shorter small)
        exact ⟨(Cursor.Reads.next firstReads (.last reads)).present, ⟨firstStrict, strict⟩,
          firstBalances.trans balances⟩
  · intro values after found small
    obtain ⟨reads, meets, balances⟩ := found small
    exact ⟨reads.ofEnter, meets, balances⟩

theorem mem_of_next? {before : Cursor} {token : Token} (inside : before.rest ⊆ source)
    (next : before.next? = some token) : token ∈ source :=
  inside (List.mem_of_mem_head? next)

/-- A call was read. -/
structure FindsCall (source : List Token) (before : Cursor) (callee : Token)
    (values : List Expr) (after : Cursor) : Prop where
  reads : before.Reads (.category .call) after
  meets : (Expr.call callee values).Meets (strict source)
  next : before.next? = some callee
  skips : Preview.afterArguments 0 before.rest.tail = after.rest
  balances : before.Balances after

theorem call_gives {reader : Reading Expr} {preview : Preview Expr}
    (right : Right source size (.category .expression) reader preview) (before : Cursor)
    (inside : before.rest ⊆ source) :
    Gives (call reader) before
      (fun call? => ∀ found, call? = some found →
        (Expr.call found.1 found.2).Meets (loose source))
      fun call? after => before.rest.length < size + 1 → before.seesIdentifier = true →
        before.seesSecond "(" = true →
          ∃ callee values, call? = some (callee, values) ∧
            FindsCall source before callee values after := by
  unfold call
  refine Gives.rule (fun call? after => before.rest.length < size + 1 →
    before.seesIdentifier = true → before.seesSecond "(" = true →
      ∃ callee values, call? = some (callee, values) ∧
        FindsCall source (before.enter .call) callee values after) ?_ ?_
  · refine (identifier?_gives (before.enter .call)).bind fun name? named advances isName => ?_
    have insideNamed := subset_of_advances advances inside
    cases name? with
    | none =>
        refine .pure (by simp) ?_
        rintro ⟨_, missing⟩ _ seen _
        have unseen : before.seesIdentifier = false := missing rfl
        simp [unseen] at seen
    | some callee =>
        obtain ⟨identifies, next⟩ := isName callee rfl
        have member : callee ∈ source := mem_of_next? inside next
        refine (accept_reads "(" named).bind fun _ opened openAdvances _ => ?_
        have insideOpened := subset_of_advances openAdvances insideNamed
        refine (arguments_gives right opened insideOpened).bind fun values closing moved loosely => ?_
        refine (demand_gives (abandon_repairs _ _) ")" closing).bind fun _ after _ _ => .pure ?_ ?_
        · rintro _ ⟨⟩
          exact ⟨⟨identifies, member⟩, loosely⟩
        · rintro close found opens ⟨named?, _⟩ small _ second
          have name := named? callee rfl
          obtain ⟨token, rest, _⟩ := name.terminal_rest
          have rest : before.rest = token :: named.rest := rest
          have opening := opens
            (by simpa [Cursor.seesSecond, Cursor.sees, Cursor.next?, rest] using second)
          have openLength := openAdvances.length_le
          have nameLength := congrArg List.length rest
          simp only [List.length_cons] at nameLength
          obtain ⟨reads, strictly, balances⟩ := found (by omega)
          refine ⟨callee, values, rfl, ?_, ⟨⟨identifies, member⟩, strictly⟩, next, ?_, ?_⟩
          · exact (Cursor.Reads.next name (.next opening (.next reads (.last close)))).category
          · have skipped := Cursor.Balances.afterArguments opening balances close
            simpa [Cursor.enter, rest] using skipped
          · have passed := Cursor.Balances.parenthesized opening balances close
            exact name.identifier_balances.trans passed
  · intro call? after found small seen second
    obtain ⟨callee, values, rfl, reads, meets, next, skips, balances⟩ := found small seen second
    exact ⟨callee, values, rfl, reads.ofEnter, meets, next, skips, balances⟩

/-- A single token that makes up an operand. -/
theorem Finds.token {before after : Cursor} {token : Token} {value : Expr}
    {nested : Preview Expr} {terminal : Terminal}
    (reads : before.Reads (.terminal terminal) after) (next : before.next? = some token)
    (listed : Phrase.terminal terminal ∈ [identifier, .category .call, literal, parenthesized])
    (meets : value.Meets (strict source)) (balances : before.Balances after)
    (shows : ∀ rest, before.rest = token :: rest →
      (Preview.primary nested).run (token :: rest) = .ok (value.skeleton, rest)) :
    Finds source Category.primary.production (Preview.primary nested) before value after := by
  obtain ⟨first, rest, _⟩ := reads.terminal_rest
  have same : first = token := by simpa [Cursor.next?, rest] using next
  subst same
  refine ⟨reads.choice listed rfl, meets, ?_, balances⟩
  rw [rest]
  exact shows _ rest

theorem group_gives {reader : Reading Expr} {preview : Preview Expr}
    (right : Right source size (.category .expression) reader preview) (before : Cursor)
    (inside : before.rest ⊆ source) :
    Gives (group reader) before (Expr.Meets (loose source)) fun value after =>
      before.rest.length < size →
        ∃ closing, Finds source (.category .expression) preview before value closing ∧
          closing.Reads (word ")") after := by
  unfold group
  refine (right before inside).bind fun value closing _ meets => ?_
  refine (demand_gives (complain_repairs _) ")" closing).bind fun _ after _ _ => .pure meets ?_
  intro close found small
  exact ⟨closing, found small, close⟩

theorem Right.primary {reader : Reading Expr} {preview : Preview Expr}
    (right : Right source size (.category .expression) reader preview) :
    Right source (size + 1) (.category .primary) (primary reader) (Preview.primary preview) := by
  refine level_right .primaryStart fun before inside starts => ?_
  refine .acceptBranch (fun middle advances => ?_) fun notOpen => ?_
  · have insideMiddle := subset_of_advances advances inside
    refine (group_gives right middle insideMiddle).imp (fun _ => id) ?_
    intro value after _ _ grouped opening small
    obtain ⟨token, rest, opens⟩ := opening.terminal_rest
    have length : before.rest.length = middle.rest.length + 1 := by simp [rest]
    obtain ⟨closing, ⟨reads, meets, shows, balances⟩, close⟩ := grouped (by omega)
    refine ⟨?_, meets, ?_, .parenthesized opening balances close⟩
    · exact (Cursor.Reads.next opening (.next reads (.last close))).choice
        (by simp [parenthesized]) rfl
    · obtain ⟨last, lastRest, closes⟩ := close.terminal_rest
      unfold Preview.primary
      rw [rest, Preview.run_bind (Preview.symbol?_run_some opens)]
      change StateT.run (preview >>= fun inner => _) _ = _
      rw [Preview.run_bind shows, lastRest,
        Preview.run_bind (Preview.symbol?_run_some closes)]
      rfl
  · refine .branch before.seesIdentifier rfl (fun seen => ?_) fun unseen => ?_
    · refine .branch (before.seesSecond "(") rfl (fun second => ?_) fun alone => ?_
      · refine (call_gives right before inside).bind fun call? after _ loosely => ?_
        cases call? with
        | none =>
            refine .pure trivial fun called small => ?_
            obtain ⟨_, _, impossible, _⟩ := called small seen second
            contradiction
        | some found =>
            refine .pure (loosely found rfl) fun called small => ?_
            obtain ⟨callee, values, same, reads, meets, next, skips, balances⟩ :=
              called small seen second
            cases same
            obtain ⟨tail, rest⟩ := List.head?_eq_some_iff.mp next
            refine ⟨reads.choice (by simp) rfl, meets, ?_, balances⟩
            rw [← skips, rest]
            refine Preview.primary_run_call ?_ ?_
            · simpa [Cursor.seesIdentifier, next] using seen
            · simpa [Cursor.seesSecond, rest] using second
      · refine (identifier?_gives before).bind fun name? after _ isName => ?_
        cases name? with
        | none =>
            refine .pure trivial fun named small => ?_
            have unseen := named.2 rfl
            simp [unseen] at seen
        | some name =>
            obtain ⟨identifies, next⟩ := isName name rfl
            have meets := And.intro identifies (mem_of_next? inside next)
            refine .pure meets fun named small => ?_
            have reads := named.1 name rfl
            refine .token reads next (by simp [identifier]) meets reads.identifier_balances ?_
            intro rest whole
            refine Preview.primary_run_name identifies ?_
            simpa [Cursor.seesSecond, whole] using alone
    · refine (take_gives _ before fun _ => rfl).bind fun token? after _ isNext => ?_
      have denotes : before.next?.any Token.isLiteral = true := by
        simp only [Cursor.seesStart, Nonterminal.startsWith, Terminal.anyAccepts,
          Nonterminal.first, List.any_cons, List.any_nil, Terminal.accepts_identifier,
          Terminal.accepts_word, Terminal.accepts_literal] at starts
        simp only [Cursor.seesIdentifier] at unseen
        simp only [Cursor.sees] at notOpen
        simpa [unseen, notOpen] using starts
      cases token? with
      | none => simp [← isNext] at denotes
      | some token =>
          simp only [← isNext, Option.any_some] at denotes
          have meets := And.intro denotes (mem_of_next? inside isNext.symm)
          refine .stuck _ rfl (.pure meets fun consumed small => ?_)
          have consumed := consumed token rfl
          have reads : before.Reads literal
              { after with stuck := after.stuck || !token.cutsMark } :=
            ⟨[token], ⟨consumed.rest, consumed.leaves⟩, predicts_literal denotes⟩
          refine .token reads isNext.symm (by simp [literal]) meets reads.literal_balances ?_
          exact fun rest _ => Preview.primary_run_literal denotes

theorem Right.negation {reader : Reading Expr} {preview : Preview Expr}
    (right : Right source size (.category .primary) (Reading.primary reader)
      (Preview.primary preview)) :
    Right source size (.category .negation) (Reading.negation reader)
      (Preview.negation preview) := by
  refine Right.level ?_ .negation .negationStart
  intro before inside
  refine .look _ rfl ?_
  refine .acceptBranch (fun middle advances => ?_) fun missing => ?_
  · have insideMiddle := subset_of_advances advances inside
    refine (right middle insideMiddle).bind fun operand after _ meets => .pure meets ?_
    intro found word small
    obtain ⟨token, rest, spelled⟩ := word.terminal_rest
    have length : before.rest.length = middle.rest.length + 1 := by simp [rest]
    obtain ⟨reads, strict, shows, balances⟩ := found (by omega)
    refine ⟨.next word.present (.last reads), strict, ?_,
      (word.word_balances (by decide) (by decide)).trans balances⟩
    unfold Preview.negation
    rw [rest, Preview.run_bind (Preview.symbol?_run_some spelled)]
    change StateT.run (Preview.primary preview >>= fun operand => _) _ = _
    rw [Preview.run_bind shows]
    simp [Cursor.next?, rest, Expr.skeleton]
    rfl
  · refine (right before inside).imp (fun _ => id) ?_
    intro value after _ _ found small
    obtain ⟨reads, strict, shows, balances⟩ := found small
    refine ⟨.next (.absent _) (.last reads), strict, ?_, balances⟩
    unfold Preview.negation
    rw [Preview.run_bind (Preview.symbol?_run_none missing)]
    exact shows

theorem Right.inversion {reader : Reading Expr} {preview : Preview Expr}
    (right : Right source size (.category .relation) (Reading.relation reader)
      (Preview.relation preview)) :
    Right source size (.category .inversion) (Reading.inversion reader)
      (do Preview.inversion preview ((← get).length + 1)) := by
  intro before inside
  refine .look before rfl ?_
  refine (right.inversionFor (before.rest.length + 1) before inside).imp (fun _ => id) ?_
  intro value after _ _ found small
  obtain ⟨reads, meets, shows, balances⟩ := found small (Nat.lt_succ_self _)
  exact ⟨reads, meets, shows, balances⟩

/-- One more level of parentheses. -/
theorem Right.step {reader : Reading Expr} {preview : Preview Expr}
    (right : Right source size (.category .expression) reader preview) :
    Right source (size + 1) (.category .expression)
      (Reading.level .expression .expressionStart (Reading.chain [.or] (conjunction reader)))
      (Preview.chain [.or] (Preview.conjunction preview)) := by
  have product : Right source (size + 1) (.category .product) (product reader)
      (Preview.product preview) :=
    (Right.chain right.primary.negation).level .product .productStart
  have sum : Right source (size + 1) (.category .sum) (sum reader) (Preview.sum preview) :=
    (Right.chain product).level .sum .sumStart
  have relation : Right source (size + 1) (.category .relation) (Reading.relation reader)
      (Preview.relation preview) :=
    sum.relation.level .relation .relationStart
  have conjunction : Right source (size + 1) (.category .conjunction) (conjunction reader)
      (Preview.conjunction preview) :=
    (Right.chain relation.inversion).level .conjunction .conjunctionStart
  exact (Right.chain conjunction).level .expression .expressionStart

theorem expressionFor_right (depth : Nat) :
    Right source depth (.category .expression) (expressionFor depth)
      (Preview.expression depth) := by
  induction depth with
  | zero =>
      exact fun before _ => .stuck true rfl (.pure trivial fun small => absurd small (Nat.not_lt_zero _))
  | succ depth ih => exact ih.step

/-- An expression that stands at the cursor has been read. -/
theorem expression_gives (before : Cursor) (inside : before.rest ⊆ source) :
    Gives expression before (Expr.Meets (loose source)) fun value after =>
      before.Reads (.category .expression) after ∧ value.Meets (strict source) ∧
        Expr.preview? before.rest = some value.skeleton := by
  refine .look before rfl ?_
  refine (expressionFor_right (before.rest.length + 1) before inside).imp (fun _ => id) ?_
  intro value after _ _ found
  obtain ⟨reads, meets, shows, _⟩ := found (Nat.lt_succ_self _)
  refine ⟨reads, meets, ?_⟩
  rw [Expr.preview?, Expr.previewed, shows]
  rfl

theorem expression_right (source : List Token) (size : Nat) :
    Right source size (.category .expression) expression
      (do Preview.expression ((← get).length + 1)) := by
  intro before inside
  refine .look before rfl ?_
  refine (expressionFor_right (before.rest.length + 1) before inside).imp (fun _ => id) ?_
  intro value after _ _ found _
  obtain ⟨reads, meets, shows, balances⟩ := found (Nat.lt_succ_self _)
  have started : (get : Preview (List Token)).run before.rest =
      .ok (before.rest, before.rest) := rfl
  refine ⟨reads, meets, ?_, balances⟩
  rw [Preview.run_bind started]
  exact shows

theorem foreseen_gives (before : Cursor) (inside : before.rest ⊆ source) :
    Gives foreseen before (Foreseen.Meets (loose source)) fun value after =>
      before.Reads (.category .expression) after ∧ value.Meets (strict source) := by
  unfold foreseen
  refine .look _ rfl (.look before rfl (.stuck _ rfl ?_))
  refine Gives.bind (expression_gives _ inside) fun value after _ meets => .pure ?_ ?_
  · exact ⟨trivial, meets⟩
  · rintro ⟨reads, strict, shows⟩
    exact ⟨reads.ofSame rfl rfl, shows, strict⟩

theorem demandForeseen_gives {repair : Reading Unit} (repairs : Repairs repair)
    (before : Cursor) (inside : before.rest ⊆ source) :
    Gives (demandForeseen repair) before (Foreseen.Meets (loose source)) fun value after =>
      before.Reads (.category .expression) after ∧ value.Meets (strict source) := by
  refine .branch _ rfl (fun _ => foreseen_gives before inside) fun _ => ?_
  exact .repaired repairs fun middle _ => .pure ⟨trivial, trivial⟩ trivial

end StackLang.Reading
