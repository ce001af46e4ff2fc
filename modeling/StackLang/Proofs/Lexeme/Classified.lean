import StackLang.Proofs.Automaton.Language
import StackLang.Proofs.Lexeme.Layout

/-!
# The scanner classifies as the automaton

A word that the automaton accepts is scanned as one token of its kind, since no
boundary inside it ends the lexeme.  The other way round a token is a mark or has
been read by a run of the states, which is a run of the automaton.
-/

namespace StackLang

namespace Lexeme

namespace State

/-- Every lexeme begins in the first state, and no step leads back to it. -/
theorem next?_ne_start {state after : State} {char : Char} (step : state.next? char = some after) :
    after ≠ .start := by
  rintro rfl
  cases state <;> simp only [next?] at step <;> grind

/-- A boundary that goes on with a lexeme is one that the state takes. -/
theorem takes_of_isBoundary {state after : State} {char : Char}
    (boundary : isBoundary char = true) (step : state.next? char = some after) :
    state.takes char = true := by
  have checked (mark : Char) (untaken : ∀ state ∈ all, (state.takes mark || state.next? mark == none))
      (same : char = mark) : state.takes char = true := by
    subst same
    simpa [step] using untaken state state.mem_all
  simp only [isBoundary, isOperator, isDelimiter, isSpace, Bool.or_eq_true, decide_eq_true_eq,
    List.mem_cons, List.not_mem_nil, or_false, or_assoc] at boundary
  rcases boundary with same | same | same | same | same | same | same | same | same | same | same |
    same | same | same | same | same | same | same | same | same | same | same | same | same | same <;>
  exact checked _ (by decide) same

/-- A quote that goes on with a lexeme begins it, or the state takes it. -/
theorem start_of_quote {state after : State} {char : Char}
    (quote : (char == '"' || char == '\'') = true) (step : state.next? char = some after)
    (ends : ¬ state.takes char = true) : state = .start := by
  simp only [Bool.or_eq_true, beq_iff_eq] at quote
  rcases quote with rfl | rfl <;> cases state <;> first | rfl | contradiction

/-- No lexeme goes on behind a closing quote. -/
theorem run?_closed {state last : State} {chars : List Char} (closed : state.isClosed = true)
    (reached : state.run? chars = some last) : chars = [] := by
  cases chars with
  | nil => rfl
  | cons char rest => cases state <;> contradiction

end State

namespace Pending

variable {pending : Pending}

theorem takes_of_state? {state : State} (reading : pending.state? = some state) (char : Char) :
    pending.takes char = state.takes char := by
  rw [takes, reading, Option.any_some]

theorem push_state? {state after : State} {char : Char} (reading : pending.state? = some state)
    (step : state.next? char = some after) : (pending.push char).state? = some after := by
  rw [push, reading, Option.bind_some, step]

/-- Pushing characters runs the state over them. -/
theorem foldl_push (chars : List Char) (pending : Pending) :
    chars.foldl push pending =
      ⟨chars.reverse ++ pending.reversed, pending.state?.bind fun state => state.run? chars⟩ := by
  induction chars generalizing pending with
  | nil => simp [State.run?]
  | cons char rest ih =>
      rw [List.foldl_cons, ih, push, List.reverse_cons, List.append_assoc]
      cases pending.state? <;> rfl

end Pending

/-- One step of a run of the states is one push of the scanner, and the lexeme closes
at its last character only. -/
theorem scanLine_run? (line : Nat) {pending : Pending} {state last : State} {chars : List Char}
    (reading : pending.state? = some state) (begins : state = .start → pending = .empty)
    (reached : state.run? chars = some last) :
    scanLine line (.code pending) chars = ((chars.foldl Pending.push pending).finish line, false) := by
  induction chars generalizing pending state with
  | nil => rw [scanLine]; rfl
  | cons char rest ih =>
      obtain ⟨after, step, later⟩ := Option.bind_eq_some_iff.mp reached
      have pushed := Pending.push_state? reading step
      have goesOn := ih pushed (fun impossible => absurd impossible (State.next?_ne_start step)) later
      by_cases taken : pending.takes char = true
      · by_cases closes : (pending.push char).isClosed = true
        · have closed : after.isClosed = true := by
            rwa [Pending.isClosed, pushed, Option.any_some] at closes
          obtain rfl := State.run?_closed closed later
          rw [scanLine_close line taken closes, scanLine]
          exact congrArg (·, false) (List.append_nil _)
        · rw [scanLine_take line taken closes, goesOn, List.foldl_cons]
      · have ends : ¬ state.takes char = true := by
          rwa [Pending.takes_of_state? reading] at taken
        have inside : (!isBoundary char) = true := by
          rw [Bool.not_eq_true']
          exact Bool.eq_false_iff.mpr fun boundary => ends (State.takes_of_isBoundary boundary step)
        by_cases quote : (char == '"' || char == '\'') = true
        · obtain rfl := begins (State.start_of_quote quote step ends)
          rw [scanLine_quote line inside quote, goesOn, List.foldl_cons]
        · rw [scanLine_push line taken inside quote, goesOn, List.foldl_cons]

/-- The kind of the token of a word: reserved words are keywords. -/
def tokenKind (word : String) (kind : TokenKind) : TokenKind :=
  if kind = .identifier ∧ word ∈ keywords then .keyword else kind

theorem kindOf_of_kind? {word : String} {state? : Option State} {kind : TokenKind}
    (accepts : state?.bind State.kind? = some kind) : kindOf word state? = tokenKind word kind := by
  rw [kindOf, accepts, tokenKind]
  cases kind <;> simp

/-- The states accept no marks, no keywords and no errors. -/
theorem State.kind?_lexeme {state : State} {kind : TokenKind} (accepts : state.kind? = some kind) :
    kind ∉ [.operator, .delimiter, .error, .keyword] := by
  cases state <;> first | contradiction | (obtain rfl := Option.some_inj.mp accepts; decide)

end Lexeme

/-- A token agrees with an automaton: the automaton accepts its value with the kind of
the token, keywords being the reserved ones among the identifiers, and it accepts the
value of no error. -/
structure Automaton.Classifies (automaton : Automaton) (token : Token) : Prop where
  accepted : token.kind ∉ [.operator, .delimiter, .error] →
    automaton.accepted? token.value.toList =
      some (if token.kind = .keyword then .identifier else token.kind)
  keyword : automaton.accepted? token.value.toList = some .identifier →
    token.kind ∉ [.operator, .delimiter, .error] →
    (token.kind = .keyword ↔ token.value ∈ keywords)
  rejected : token.kind = .error → automaton.accepted? token.value.toList = none

/-- What has been read by a run of the states agrees with their table. -/
theorem Lexeme.Recognised.classifies {token : Token} (recognised : Recognised token) :
    Automaton.language.Classifies token := by
  cases recognised with
  | mark fixed =>
      have notError : token.kind ≠ .error := by
        rcases fixed with operator | delimiter
        · rw [operator]; decide
        · rw [delimiter]; decide
      have excluded : ¬ token.kind ∉ [TokenKind.operator, .delimiter, .error] := by
        rcases fixed with operator | delimiter
        · rw [operator]; decide
        · rw [delimiter]; decide
      exact ⟨fun lexeme => absurd lexeme excluded, fun _ lexeme => absurd lexeme excluded,
        fun error => absurd error notError⟩
  | lexeme _ kind =>
      cases accepts : (State.start.run? token.value.toList).bind State.kind? with
      | none =>
          have error : token.kind = .error := by rw [kind, kindOf, accepts]
          rw [← Automaton.accepted?_language] at accepts
          refine ⟨fun lexeme => ?_, fun impossible => ?_, fun _ => accepts⟩
          · rw [error] at lexeme
            exact absurd (by decide) lexeme
          · rw [accepts] at impossible
            contradiction
      | some accepted =>
          obtain ⟨state, -, ends⟩ := Option.bind_eq_some_iff.mp accepts
          have proper := State.kind?_lexeme ends
          rw [kindOf_of_kind? accepts, tokenKind] at kind
          rw [← Automaton.accepted?_language] at accepts
          constructor
          · intro lexeme
            rw [accepts, kind]
            grind
          · intro named _
            rw [accepts, Option.some_inj] at named
            rw [kind]
            grind
          · intro error
            rw [kind] at error
            grind

open Lexeme in
/-- A word that the automaton accepts is one token of its kind. -/
theorem tokenize_of_accepted? {word : String} {kind : TokenKind}
    (accepts : Automaton.language.accepted? word.toList = some kind) :
    tokenize word = [⟨word, tokenKind word kind, 1⟩] := by
  rw [Automaton.accepted?_language] at accepts
  obtain ⟨last, reached, ends⟩ := Option.bind_eq_some_iff.mp accepts
  have nonempty : word.toList ≠ [] := by
    intro empty
    rw [empty] at reached
    obtain rfl := Option.some_inj.mp reached
    contradiction
  have oneLine : Text.lineChars word.toList = [word.toList] := by
    have lines := Text.lineChars_word nonempty (State.not_mem_of_run? reached (.inl rfl))
      (State.not_mem_of_run? reached (.inr rfl)) []
    rwa [List.append_nil] at lines
  have finished : (word.toList.foldl Pending.push .empty).finish 1 =
      [⟨word, tokenKind word kind, 1⟩] := by
    have kept : ¬ (word.toList.reverse ++ Pending.empty.reversed).isEmpty = true := by
      simpa using fun empty => absurd (congrArg String.toList empty) nonempty
    rw [Pending.foldl_push, Pending.finish, if_neg kept]
    simp [Pending.empty, kindOf_of_kind? accepts]
  rw [tokenize, oneLine, scanLines]
  simp only [Bool.false_eq_true, if_false]
  rw [scanLine_run? 1 rfl (fun _ => rfl) reached, finished]
  rfl

/-- Scanning classifies exactly as the automaton: an accepted word is one token of its
kind, and every token of a source text agrees with the automaton. -/
theorem tokenize_classifies :
    (∀ (word : String) (kind : TokenKind),
      Automaton.language.accepted? word.toList = some kind →
        tokenize word = [⟨word, if kind = .identifier ∧ word ∈ keywords then .keyword else kind, 1⟩]) ∧
      ∀ (source : String), ∀ token ∈ tokenize source, Automaton.language.Classifies token :=
  ⟨fun _ _ => tokenize_of_accepted?,
    fun source token member => (tokenize_recognised source token member).classifies⟩

/-- A reserved word is accepted as an identifier and scanned as a keyword, and a point
that no digit stands before is cut from the number behind it. -/
theorem tokenize_classifies_while :
    tokenize "while" = [⟨"while", .keyword, 1⟩] ∧
      ∀ token ∈ tokenize "x=.5e-3", Automaton.language.Classifies token := by
  have accepts : Automaton.language.accepted? "while".toList = some .identifier := by
    rw [Automaton.accepted?_language]
    decide
  exact ⟨tokenize_classifies.1 "while" .identifier accepts, tokenize_classifies.2 "x=.5e-3"⟩

end StackLang
