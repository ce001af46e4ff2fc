import StackLang.Proofs.Lexeme.Recognised

/-!
# Tokens that are scanned again

Every token that is no error is scanned again from its own characters, if a space or
the end of the line follows.  What carries the proof is that the characters of a pending
lexeme always lead back to it.
-/

namespace StackLang

namespace Lexeme

/-- A rest of a line that does not go on with the token before it. -/
def Separate (rest : List Char) : Prop := ∀ char ∈ rest.head?, char = ' '

/-- Scanning the characters of a token gives the token, whatever follows it apart. -/
structure Rescanned (token : Token) : Prop where
  nonempty : token.value.toList ≠ []
  noFeed : '\n' ∉ token.value.toList
  noReturn : '\r' ∉ token.value.toList
  scans : ∀ rest, Separate rest →
    scanLine token.line (.code .empty) (token.value.toList ++ rest) =
      before [token] (scanLine token.line (.code .empty) rest)

section

variable (line : Nat) {pending : Pending} {char next : Char} {rest : List Char}

/-- A character that the state takes goes on with the lexeme, unless it closes it. -/
theorem scanLine_take (taken : pending.takes char = true)
    (goesOn : ¬ (pending.push char).isClosed = true) :
    scanLine line (.code pending) (char :: rest) = scanLine line (.code (pending.push char)) rest := by
  cases rest <;> simp [scanLine, taken, goesOn]

theorem scanLine_close (taken : pending.takes char = true)
    (closes : (pending.push char).isClosed = true) :
    scanLine line (.code pending) (char :: rest) =
      before ((pending.push char).finish line) (scanLine line (.code .empty) rest) := by
  cases rest <;> simp [scanLine, taken, closes]

theorem scanLine_push (open' : ¬ pending.takes char = true) (inside : (!isBoundary char) = true)
    (noQuote : ¬ (char == '"' || char == '\'') = true) :
    scanLine line (.code pending) (char :: rest) = scanLine line (.code (pending.push char)) rest := by
  rw [Bool.not_eq_true'] at inside
  cases rest <;> simp only [scanLine, open', inside, noQuote] <;> rfl

/-- A quote ends a lexeme and starts another one. -/
theorem scanLine_open (ends : ¬ pending.takes char = true) (inside : (!isBoundary char) = true)
    (quote : (char == '"' || char == '\'') = true) :
    scanLine line (.code pending) (char :: rest) =
      before (pending.finish line) (scanLine line (.code (Pending.empty.push char)) rest) := by
  cases rest <;> simp only [scanLine, ends, inside, quote] <;> rfl

theorem scanLine_quote (inside : (!isBoundary char) = true)
    (quote : (char == '"' || char == '\'') = true) :
    scanLine line (.code .empty) (char :: rest) =
      scanLine line (.code (Pending.empty.push char)) rest :=
  scanLine_open line Bool.false_ne_true inside quote

/-- A boundary ends a lexeme. -/
theorem scanLine_end (ends : ¬ pending.takes char = true) (boundary : ¬ (!isBoundary char) = true) :
    scanLine line (.code pending) (char :: rest) =
      before (pending.finish line) (scanLine line (.code .empty) (char :: rest)) := by
  have start : Pending.empty.takes char = false := rfl
  cases rest <;> simp only [scanLine, start, ends, boundary] <;> rfl

theorem scanLine_space : scanLine line (.code .empty) (' ' :: rest) =
    scanLine line (.code .empty) rest := by
  cases rest <;> rfl

/-- Two characters that open a comment or make up an operator. -/
def Joins (first second : Char) : Prop :=
  (first == '/' && second == '*') = true ∨ (first == '/' && second == '/') = true ∨
    isOperatorPair first second = true

/-- A boundary that the next character does not go with stands alone. -/
theorem scanLine_alone (boundary : ¬ (!isBoundary char) = true)
    (alone : ∀ next ∈ rest.head?, ¬ Joins char next) :
    scanLine line (.code .empty) (char :: rest) =
      before (single line char) (scanLine line (.code .empty) rest) := by
  have start : Pending.empty.takes char = false := rfl
  cases rest with
  | nil =>
      simp only [scanLine, start, boundary]
      exact congrArg (·, false) (List.append_nil _).symm
  | cons next after =>
      obtain ⟨noBlock, noComment, noPair⟩ := by simpa only [Joins, not_or] using alone next rfl
      simp only [scanLine, start, boundary, noBlock, noComment, noPair]
      rfl

theorem scanLine_single (boundary : ¬ (!isBoundary char) = true) (separate : Separate rest) :
    scanLine line (.code .empty) (char :: rest) =
      before (single line char) (scanLine line (.code .empty) rest) := by
  apply scanLine_alone line boundary
  intro next first
  rw [separate next first]
  simp [Joins, isOperatorPair]

/-- Two characters that make up an operator are scanned together. -/
theorem scanLine_pair (boundary : ¬ (!isBoundary char) = true)
    (noBlock : ¬ (char == '/' && next == '*') = true)
    (noComment : ¬ (char == '/' && next == '/') = true)
    (pair : isOperatorPair char next = true) :
    scanLine line (.code .empty) (char :: next :: rest) =
      before [⟨String.ofList [char, next], .operator, line⟩]
        (scanLine line (.code .empty) rest) := by
  have start : Pending.empty.takes char = false := rfl
  simp only [scanLine, start, boundary, noBlock, noComment, pair]
  rfl

end

namespace State

/-- No lexeme goes on over the end of a line. -/
theorem next?_lineEnd (state : State) {char : Char} (lineEnd : char = '\n' ∨ char = '\r') :
    state.next? char = none := by
  rcases lineEnd with rfl | rfl <;> cases state <;> rfl

theorem not_mem_of_run? {state last : State} {chars : List Char}
    (reached : state.run? chars = some last) {char : Char} (lineEnd : char = '\n' ∨ char = '\r') :
    char ∉ chars := by
  induction chars generalizing state with
  | nil => exact List.not_mem_nil
  | cons first rest ih =>
      obtain ⟨after, step, later⟩ := Option.bind_eq_some_iff.mp reached
      rw [List.mem_cons, not_or]
      refine ⟨?_, ih later⟩
      rintro rfl
      rw [state.next?_lineEnd lineEnd] at step
      contradiction

/-- A space ends every lexeme that may end. -/
theorem takes_space {state : State} (accepts : state.kind? ≠ none) : state.takes ' ' = false := by
  cases state <;> first | rfl | exact absurd rfl accepts

end State

theorem accepts_of_kindOf {text : String} {state? : Option State}
    (lexeme : kindOf text state? ≠ .error) :
    ∃ state, state? = some state ∧ state.kind? ≠ none := by
  cases state? with
  | none => exact absurd rfl lexeme
  | some state =>
      refine ⟨state, rfl, ?_⟩
      intro rejects
      rw [kindOf, Option.bind_some, rejects] at lexeme
      exact absurd rfl lexeme

namespace Pending

/-- Scanning the characters of a pending lexeme leads back to it. -/
structure Replays (pending : Pending) : Prop where
  sound : pending.Sound
  replays : ∀ line rest,
    scanLine line (.code .empty) (pending.reversed.reverse ++ rest) =
      scanLine line (.code pending) rest

theorem Replays.empty : Replays .empty := ⟨Sound.empty, fun _ _ => rfl⟩

variable {pending : Pending} {char : Char}

/-- A character that the scanner pushes is pushed again. -/
theorem Replays.push (replays : pending.Replays)
    (pushes : ∀ line rest,
      scanLine line (.code pending) (char :: rest) = scanLine line (.code (pending.push char)) rest) :
    (pending.push char).Replays := by
  refine ⟨replays.sound.push char, ?_⟩
  intro line rest
  calc
    scanLine line (.code .empty) ((char :: pending.reversed).reverse ++ rest) =
        scanLine line (.code .empty) (pending.reversed.reverse ++ char :: rest) := by simp
    _ = scanLine line (.code pending) (char :: rest) := replays.replays line _
    _ = scanLine line (.code (pending.push char)) rest := pushes line rest

/-- The token of a finished lexeme is scanned again where the lexeme ends. -/
theorem Sound.rescanned {token : Token} {line : Nat} (sound : pending.Sound)
    (member : token ∈ pending.finish line) (lexeme : token.kind ≠ .error)
    (scans : ∀ rest, Separate rest →
      scanLine line (.code .empty) (pending.reversed.reverse ++ rest) =
        before (pending.finish line) (scanLine line (.code .empty) rest)) :
    Rescanned token := by
  rw [Pending.finish] at member scans
  split at member
  · contradiction
  · next something =>
      rw [if_neg something] at scans
      obtain rfl := List.mem_singleton.mp member
      obtain ⟨state, reached, -⟩ := accepts_of_kindOf lexeme
      rw [sound] at reached
      have value : (String.ofList pending.reversed.reverse).toList = pending.reversed.reverse :=
        String.toList_ofList
      constructor
      · simpa using something
      · rw [value]
        exact State.not_mem_of_run? reached (.inl rfl)
      · rw [value]
        exact State.not_mem_of_run? reached (.inr rfl)
      · rw [value]
        exact scans

theorem Replays.rescanned {token : Token} {line : Nat} (replays : pending.Replays)
    (member : token ∈ pending.finish line) (lexeme : token.kind ≠ .error) : Rescanned token := by
  apply replays.sound.rescanned member lexeme
  intro rest separate
  rw [replays.replays]
  cases rest with
  | nil =>
      rw [scanLine, scanLine]
      exact congrArg (·, false) (List.append_nil _).symm
  | cons first more =>
      obtain rfl := separate first rfl
      have ends : pending.takes ' ' = false := by
        rw [Pending.finish] at member
        split at member
        · contradiction
        · obtain rfl := List.mem_singleton.mp member
          obtain ⟨state, reached, accepts⟩ := accepts_of_kindOf lexeme
          rw [takes, reached]
          exact State.takes_space accepts
      rw [scanLine_end line (by rw [ends]; decide) (by decide), scanLine_space]

end Pending

theorem lineEnd_of_mark {char : Char} (mark : (isOperator char || isDelimiter char) = true) :
    char ≠ '\n' ∧ char ≠ '\r' := by
  constructor
  · rintro rfl
    contradiction
  · rintro rfl
    contradiction

/-- An operator or a delimiter is scanned again. -/
theorem single_rescanned {token : Token} {line : Nat} {char : Char}
    (member : token ∈ single line char) : Rescanned token := by
  have mark : (isOperator char || isDelimiter char) = true ∧
      ∃ kind, token = ⟨char.toString, kind, line⟩ ∧ single line char = [token] := by
    unfold single at member ⊢
    split at member
    · next operator =>
        obtain rfl := List.mem_singleton.mp member
        exact ⟨by rw [operator, Bool.true_or], _, rfl, if_pos operator⟩
    · split at member
      · next noOperator delimiter =>
          obtain rfl := List.mem_singleton.mp member
          exact ⟨by rw [delimiter, Bool.or_true], _, rfl,
            (if_neg noOperator).trans (if_pos delimiter)⟩
      · contradiction
  obtain ⟨marked, kind, rfl, alone⟩ := mark
  have value : char.toString.toList = [char] := by simp
  obtain ⟨noFeed, noReturn⟩ := lineEnd_of_mark marked
  have boundary : ¬ (!isBoundary char) = true := by
    simp [isBoundary, marked]
  constructor
  · simp
  · rw [value]
    simpa using noFeed.symm
  · rw [value]
    simpa using noReturn.symm
  · intro rest separate
    rw [value, ← alone]
    exact scanLine_single line boundary separate

theorem operators_of_pair {char next : Char} (pair : isOperatorPair char next = true) :
    isOperator char = true ∧ isOperator next = true := by
  have marks : (isOperator char && isOperator next) = true :=
    List.all_eq_true (p := fun pair : Char × Char => isOperator pair.1 && isOperator pair.2) |>.mp
      (by decide) _ (of_decide_eq_true pair)
  rwa [Bool.and_eq_true] at marks

/-- An operator of two characters is scanned again. -/
theorem pair_rescanned (line : Nat) {char next : Char}
    (boundary : ¬ (!isBoundary char) = true)
    (noBlock : ¬ (char == '/' && next == '*') = true)
    (noComment : ¬ (char == '/' && next == '/') = true)
    (pair : isOperatorPair char next = true) :
    Rescanned ⟨String.ofList [char, next], .operator, line⟩ := by
  have marks := operators_of_pair pair
  have first := lineEnd_of_mark (by rw [marks.1, Bool.true_or])
  have second := lineEnd_of_mark (by rw [marks.2, Bool.true_or])
  have value : (String.ofList [char, next]).toList = [char, next] := String.toList_ofList
  constructor
  · rw [value]
    exact List.cons_ne_nil _ _
  · rw [value]
    simpa using ⟨first.1.symm, second.1.symm⟩
  · rw [value]
    simpa using ⟨first.2.symm, second.2.symm⟩
  · intro rest _
    rw [value]
    exact scanLine_pair line boundary noBlock noComment pair

/-- A token stands on a line and is scanned again, if it is no error. -/
structure Kept (line : Nat) (token : Token) : Prop where
  line : token.line = line
  rescanned : token.kind ≠ .error → Rescanned token

/-- The lexeme that is pending is scanned again. -/
def Mode.Replays : Mode → Prop
  | .code pending => pending.Replays
  | .blockComment => True

variable {line : Nat}

theorem before_kept {tokens : List Token} {rest : List Token × Bool}
    (front : ∀ token ∈ tokens, Kept line token) (back : ∀ token ∈ rest.1, Kept line token) :
    ∀ token ∈ (before tokens rest).1, Kept line token := by
  intro token member
  rcases List.mem_append.mp member with first | later
  · exact front token first
  · exact back token later

theorem Pending.finish_line {pending : Pending} {token : Token}
    (member : token ∈ pending.finish line) : token.line = line := by
  rw [Pending.finish] at member
  split at member
  · contradiction
  · exact List.mem_singleton.mp member ▸ rfl

theorem single_line {char : Char} {token : Token} (member : token ∈ single line char) :
    token.line = line := by
  rw [single] at member
  repeat' split at member
  · exact List.mem_singleton.mp member ▸ rfl
  · exact List.mem_singleton.mp member ▸ rfl
  · contradiction

theorem Pending.Replays.kept {pending : Pending} (replays : pending.Replays) :
    ∀ token ∈ pending.finish line, Kept line token :=
  fun _ member => ⟨Pending.finish_line member, replays.rescanned member⟩

theorem single_kept (char : Char) : ∀ token ∈ single line char, Kept line token :=
  fun _ member => ⟨single_line member, fun _ => single_rescanned member⟩

/-- The tokens of a line are scanned again. -/
theorem scanLine_kept (line : Nat) (mode : Mode) (chars : List Char) (replays : mode.Replays) :
    ∀ token ∈ (scanLine line mode chars).1, Kept line token := by
  fun_induction scanLine line mode chars with
  | case1 => simp
  | case2 rest ih => exact ih .empty
  | case3 head rest _ ih => exact ih trivial
  | case4 pending => exact replays.kept
  | case5 pending char rest taken pushed closes ih =>
      apply before_kept _ (ih .empty)
      intro token member
      refine ⟨Pending.finish_line member, fun lexeme => ?_⟩
      apply (replays.sound.push char).rescanned member lexeme
      intro rest _
      calc
        scanLine line (.code .empty) ((char :: pending.reversed).reverse ++ rest) =
            scanLine line (.code .empty) (pending.reversed.reverse ++ char :: rest) := by simp
        _ = scanLine line (.code pending) (char :: rest) := replays.replays line _
        _ = before ((pending.push char).finish line) (scanLine line (.code .empty) rest) :=
            scanLine_close line taken closes
  | case6 pending char rest taken pushed goesOn ih =>
      exact ih (replays.push fun line _ => scanLine_take line taken goesOn)
  | case7 pending char rest _ inside quote ih =>
      exact before_kept replays.kept
        (ih (Pending.Replays.empty.push fun line _ => scanLine_quote line inside quote))
  | case8 pending char rest ends inside noQuote ih =>
      exact ih (replays.push fun line _ => scanLine_push line ends inside noQuote)
  | case9 pending char rest ends boundary ih =>
      apply before_kept replays.kept
      cases rest with
      | nil => exact single_kept char
      | cons next after =>
          obtain ⟨comment, paired, alone⟩ := ih
          dsimp only
          split
          · exact comment trivial
          next noBlock =>
            split
            · simp
            next noComment =>
              split
              · next pair =>
                  apply before_kept _ (paired .empty)
                  intro token member
                  obtain rfl := List.mem_singleton.mp member
                  exact ⟨rfl, fun _ => pair_rescanned line boundary noBlock noComment pair⟩
              · exact before_kept (single_kept char) (alone .empty)

end Lexeme

end StackLang
