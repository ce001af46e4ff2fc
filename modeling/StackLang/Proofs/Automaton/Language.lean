import StackLang.Automaton.Language
import StackLang.Proofs.Lexeme.Recognised

/-!
# What the table of the language accepts

The table lists the transition function of the states and nothing else, so a run
of the table is a run of the states under their numbers, and both accept the same
lexemes.
-/

namespace StackLang

namespace Lexeme.State

/-- The last ASCII character is not exceeded. -/
theorem toNat_lt_of_le {char last : Char} (below : char ≤ last) (ascii : last.toNat < 128) :
    char.toNat < 128 := by
  have values : char.val.toNat ≤ last.val.toNat := UInt32.le_iff_toNat_le.mp (Char.le_def.mp below)
  exact Nat.lt_of_le_of_lt values ascii

theorem ascii_of_isDigit {char : Char} (digit : char.isDigit = true) : char.toNat < 128 := by
  simp only [Char.isDigit, Bool.and_eq_true, decide_eq_true_eq] at digit
  have below : char ≤ '9' := Char.le_def.mpr digit.2
  exact toNat_lt_of_le below (by decide)

theorem ascii_of_isNameStart {char : Char} (name : isNameStart char = true) :
    char.toNat < 128 := by
  simp only [isNameStart, Bool.or_eq_true, Bool.and_eq_true, decide_eq_true_eq,
    beq_iff_eq] at name
  rcases name with ((lower | upper) | rfl) | rfl
  · exact toNat_lt_of_le lower.2 (by decide)
  · exact toNat_lt_of_le upper.2 (by decide)
  · decide
  · decide

theorem ascii_of_isPrintable {char : Char} (visible : isPrintable char = true) :
    char.toNat < 128 := by
  simp only [isPrintable, Bool.and_eq_true, decide_eq_true_eq] at visible
  exact toNat_lt_of_le visible.2 (by decide)

theorem ascii_of_isHexDigit {char : Char} (hex : isHexDigit char = true) :
    char.toNat < 128 := by
  simp only [isHexDigit, Bool.or_eq_true, Bool.and_eq_true, decide_eq_true_eq] at hex
  rcases hex with (digit | lower) | upper
  · exact ascii_of_isDigit digit
  · exact toNat_lt_of_le lower.2 (by decide)
  · exact toNat_lt_of_le upper.2 (by decide)

theorem ascii_of_isExponentMark {char : Char} (mark : isExponentMark char = true) :
    char.toNat < 128 := by
  simp only [isExponentMark, Bool.or_eq_true, beq_iff_eq] at mark
  rcases mark with rfl | rfl <;> decide

theorem ascii_of_isFloatMark {char : Char} (mark : isFloatMark char = true) :
    char.toNat < 128 := by
  simp only [isFloatMark, Bool.or_eq_true, beq_iff_eq] at mark
  rcases mark with rfl | rfl <;> decide

/-- No class of characters that a lexeme is made of goes beyond ASCII. -/
theorem next?_of_not_ascii (state : State) {char : Char} (beyond : 128 ≤ char.toNat) :
    state.next? char = none := by
  have outside {inClass : Char → Bool} (ascii : inClass char = true → char.toNat < 128) :
      inClass char = false :=
    Bool.eq_false_iff.mpr fun member => Nat.not_lt.mpr beyond (ascii member)
  have digit := outside ascii_of_isDigit
  have binary := outside fun member => ascii_of_isDigit (isDigit_of_isBinaryDigit member)
  have octal := outside fun member => ascii_of_isDigit (isDigit_of_isOctalDigit member)
  have nonzero := outside fun member => ascii_of_isDigit (isDigit_of_isNonzeroDigit member)
  have hex := outside ascii_of_isHexDigit
  have name := outside ascii_of_isNameStart
  have visible := outside ascii_of_isPrintable
  have exponent := outside ascii_of_isExponentMark
  have suffix := outside ascii_of_isFloatMark
  have other (mark : Char) (ascii : mark.toNat < 128) : char ≠ mark := by
    rintro rfl
    exact Nat.not_lt.mpr beyond ascii
  cases state <;>
    simp [next?, isNamePart, digit, binary, octal, nonzero, hex, name, visible, exponent, suffix,
      other]

/-- Only ASCII characters continue a lexeme. -/
theorem ascii_of_next? {state after : State} {char : Char}
    (step : state.next? char = some after) : char.toNat < 128 := by
  refine Nat.lt_of_not_le fun beyond => ?_
  rw [next?_of_not_ascii state beyond] at step
  contradiction

theorem number_injective {one other : State} (same : one.number = other.number) :
    one = other := by
  cases one <;> cases other <;> first | rfl | contradiction

theorem mem_all (state : State) : state ∈ all := by
  cases state <;> decide

end Lexeme.State

namespace Automaton

open Lexeme (State)

variable {α : Type}

theorem mem_alphabet {char : Char} : char ∈ alphabet ↔ char.toNat < 128 := by
  have codes : ∀ code < 128, (Char.ofNat code).toNat < 128 := by decide
  simp only [alphabet, List.mem_map, List.mem_range]
  constructor
  · rintro ⟨code, small, rfl⟩
    exact codes code small
  · exact fun small => ⟨char.toNat, small, Char.ofNat_toNat char⟩

/-- Edges out of one state whose targets are a function of their symbols. -/
theorem next?_addTransitions (target : Char → Option Nat) (number : Nat)
    (edges : List (Char × Nat)) (targets : ∀ edge ∈ edges, target edge.1 = some edge.2)
    (automaton : Automaton) (other : Nat) (char : Char) :
    (edges.foldl (fun automaton edge => automaton.addTransition number edge.1 edge.2)
        automaton).next? other char =
      if number = other ∧ char ∈ edges.map Prod.fst then target char
      else automaton.next? other char := by
  induction edges generalizing automaton with
  | nil => simp
  | cons edge rest ih =>
      have here := targets edge List.mem_cons_self
      rw [List.foldl_cons, ih fun other member => targets other (List.mem_cons_of_mem _ member),
        next?_addTransition]
      by_cases same : number = other
      · subst same
        by_cases first : edge.1 = char
        · simp [← first, here]
        · simp only [true_and, Prod.mk.injEq, if_neg first, List.map_cons, List.mem_cons,
            Ne.symm first, false_or]
      · simp [same]

theorem transitionsFrom_targets (state : State) : ∀ edge ∈ transitionsFrom state,
    (state.next? edge.1).map State.number = some edge.2 := by
  intro edge member
  obtain ⟨symbol, _, listed⟩ := List.mem_filterMap.mp member
  obtain ⟨next, step, rfl⟩ := Option.map_eq_some_iff.mp listed
  rw [step, Option.map_some]

theorem mem_transitionsFrom {state : State} {char : Char} :
    char ∈ (transitionsFrom state).map Prod.fst ↔ (state.next? char).isSome := by
  rw [List.mem_map]
  constructor
  · rintro ⟨edge, member, rfl⟩
    have targets := transitionsFrom_targets state edge member
    exact Option.isSome_map ▸ Option.isSome_of_eq_some targets
  · intro continues
    obtain ⟨next, step⟩ := Option.isSome_iff_exists.mp continues
    refine ⟨(char, next.number), List.mem_filterMap.mpr ⟨char, ?_, by rw [step]; rfl⟩, rfl⟩
    exact mem_alphabet.mpr (State.ascii_of_next? step)

theorem next?_addState (automaton : Automaton) (added state : State) (char : Char) :
    (automaton.addState added).next? state.number char =
      if added = state then ((state.next? char).map State.number).or
        (automaton.next? state.number char)
      else automaton.next? state.number char := by
  have linked := next?_addTransitions (fun char => (added.next? char).map State.number)
    added.number (transitionsFrom added) (transitionsFrom_targets added) automaton state.number char
  have marked : (automaton.addState added).next? state.number char =
      ((transitionsFrom added).foldl
        (fun automaton edge => automaton.addTransition added.number edge.1 edge.2)
        automaton).next? state.number char := by
    rw [addState]
    cases added.kind? <;> rfl
  rw [marked, linked]
  by_cases same : added = state
  · subst same
    cases step : added.next? char with
    | none => simp [mem_transitionsFrom, step]
    | some next => simp [mem_transitionsFrom, step]
  · simp [same, mt State.number_injective same]

theorem kind?_addTransitions (number : Nat) (edges : List (Char × Nat)) (automaton : Automaton)
    (other : Nat) :
    (edges.foldl (fun automaton edge => automaton.addTransition number edge.1 edge.2)
        automaton).kind? other = automaton.kind? other := by
  induction edges generalizing automaton with
  | nil => rfl
  | cons edge rest ih => exact ih _

theorem kind?_addState (automaton : Automaton) (added state : State) :
    (automaton.addState added).kind? state.number =
      if added = state then state.kind?.or (automaton.kind? state.number)
      else automaton.kind? state.number := by
  have linked := kind?_addTransitions added.number (transitionsFrom added) automaton state.number
  rw [addState]
  cases accepts : added.kind? with
  | none =>
      by_cases same : added = state
      · subst same
        simpa [accepts] using linked
      · simpa [same] using linked
  | some kind =>
      dsimp only
      rw [kind?_markAccept, linked]
      by_cases same : added = state
      · subst same
        simp [accepts]
      · simp [same, mt State.number_injective same]

/-- What all states together say about one of them is what that state says alone. -/
theorem foldl_addState (view : Automaton → Option α) {told : Option α} (state : State)
    (adds : ∀ automaton added, view (addState automaton added) =
      if added = state then told.or (view automaton) else view automaton)
    (states : List State) (automaton : Automaton) :
    view (states.foldl addState automaton) =
      if state ∈ states then told.or (view automaton) else view automaton := by
  induction states generalizing automaton with
  | nil => simp
  | cons added rest ih =>
      rw [List.foldl_cons, ih, adds]
      by_cases same : added = state
      · subst same
        cases told <;> simp
      · simp [same, Ne.symm same]

/-- The table continues a lexeme as its state does. -/
theorem next?_language (state : State) (char : Char) :
    language.next? state.number char = (state.next? char).map State.number := by
  have added := foldl_addState (fun automaton => automaton.next? state.number char) state
    (fun automaton added => next?_addState automaton added state char) State.all empty
  rw [language, added, if_pos state.mem_all]
  exact Option.or_none

/-- The table accepts what its states accept. -/
theorem kind?_language (state : State) : language.kind? state.number = state.kind? := by
  have added := foldl_addState (fun automaton => automaton.kind? state.number) state
    (fun automaton added => kind?_addState automaton added state) State.all empty
  rw [language, added, if_pos state.mem_all]
  exact Option.or_none

/-- A run of the table is a run of the states under their numbers. -/
theorem run?_language (state : State) (chars : List Char) :
    language.run? state.number chars = (state.run? chars).map State.number := by
  induction chars generalizing state with
  | nil => rfl
  | cons char rest ih =>
      rw [run?, State.run?, next?_language]
      cases state.next? char with
      | none => rfl
      | some next => exact ih next

/-- The kind that an automaton accepts the characters with, from its first state on. -/
def accepted? (automaton : Automaton) (chars : List Char) : Option TokenKind :=
  (automaton.run? 0 chars).bind automaton.kind?

theorem accepted?_language (chars : List Char) :
    language.accepted? chars = (State.start.run? chars).bind State.kind? := by
  rw [accepted?, show 0 = State.start.number from rfl, run?_language]
  cases State.start.run? chars with
  | none => rfl
  | some state => exact kind?_language state

end Automaton

end StackLang
