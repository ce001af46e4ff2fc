import StackLang.Proofs.Grammar.Opening

/-!
# Predicted derivations

A reader that never goes back has to choose between alternatives by the tokens
ahead of it, so it cannot follow every derivation.  `Phrase.Predicts` is
derivability by the choices that it makes: of a call and an expression that
starts with a call, the call is chosen, and a list of statements makes up a
program only if it starts with a token that can start nothing else.
-/

namespace StackLang

open Terminal (Opens)

namespace Phrase

/-- Whether a call is next: a name and a parenthesis. -/
def startsCall : List Token → Bool
  | name :: parenthesis :: _ => name.isIdentifier && parenthesis.spells "("
  | _ => false

/-- What a statement can start with, but not a program that is a list of statements. -/
def notBare : List Terminal :=
  .literal :: Nonterminal.words ["\x7b", "(", "!", "-"]

/-- Whether the alternative is chosen in front of the tokens, where others can start
there as well. -/
def isChosen : Phrase → List Token → Bool
  | .sequence [.category .expression, _], tokens => !startsCall tokens
  | .category .body, tokens => !Terminal.anyAccepts notBare tokens.head?
  | _, _ => true

/-- Whether an alternative is chosen whatever the tokens ahead are. -/
def isFree : Phrase → Bool
  | .sequence [.category .expression, _] | .category .body => false
  | _ => true

theorem isChosen_of_isFree {phrase : Phrase} (free : phrase.isFree = true) (tokens : List Token) :
    phrase.isChosen tokens = true := by
  unfold isFree at free
  unfold isChosen
  split <;> first | contradiction | rfl

/-- Where no call is next, none is next in the tokens up to some point. -/
theorem startsCall_eq_false {tokens rest : List Token}
    (silent : startsCall (tokens ++ rest) = false) : startsCall tokens = false := by
  match tokens with
  | [] | [_] => rfl
  | _ :: _ :: _ => exact silent

/-- The token lists that a phrase stands for by choices that the tokens ahead allow. -/
inductive Predicts : Phrase → List Token → Prop where
  | terminal {terminal : Terminal} {token : Token} :
      terminal.accepts (some token) = true → Predicts (.terminal terminal) [token]
  | category {category : Category} {tokens : List Token} :
      Predicts category.production tokens → Predicts (.category category) tokens
  | done : Predicts (.sequence []) []
  | next {part : Phrase} {parts : List Phrase} {first rest : List Token} :
      Predicts part first → Predicts (.sequence parts) rest →
      Predicts (.sequence (part :: parts)) (first ++ rest)
  | choice {alternative : Phrase} {alternatives : List Phrase} {tokens : List Token} :
      alternative ∈ alternatives → alternative.isChosen tokens = true →
      Predicts alternative tokens → Predicts (.choice alternatives) tokens
  | absent {phrase : Phrase} : Predicts (.optional phrase) []
  | present {phrase : Phrase} {tokens : List Token} :
      Predicts phrase tokens → Predicts (.optional phrase) tokens
  | none {phrase : Phrase} : Predicts (.many phrase) []
  | more {phrase : Phrase} {first rest : List Token} :
      Predicts phrase first → Predicts (.many phrase) rest →
      Predicts (.many phrase) (first ++ rest)

theorem predicts_word {text : String} {token : Token} (spelled : token.spells text = true) :
    Predicts (word text) [token] :=
  .terminal spelled

theorem predicts_identifier {token : Token} (named : token.isIdentifier = true) :
    Predicts identifier [token] :=
  .terminal named

theorem predicts_literal {token : Token} (denotes : token.isLiteral = true) :
    Predicts literal [token] :=
  .terminal denotes

theorem predicts_oneOf {texts : List String} {text : String} {token : Token}
    (listed : text ∈ texts) (spelled : token.spells text = true) :
    Predicts (oneOf texts) [token] :=
  .choice (List.mem_map_of_mem listed) rfl (predicts_word spelled)

/-- A part behind others. -/
theorem predicts_snoc {parts : List Phrase} {last : Phrase} {front back : List Token}
    (predicted : (sequence parts).Predicts front) (ended : last.Predicts back) :
    (sequence (parts ++ [last])).Predicts (front ++ back) := by
  induction parts generalizing front with
  | nil =>
      cases predicted
      simpa using Predicts.next ended .done
  | cons part parts ih =>
      cases predicted with
      | next first rest =>
          rw [List.append_assoc]
          exact .next first (ih rest)

namespace Predicts

variable {phrase : Phrase} {tokens rest : List Token} {next : List Terminal}

/-- What is predicted is derived. -/
theorem derives (predicted : phrase.Predicts tokens) : phrase.Derives tokens := by
  induction predicted with
  | terminal accepted => exact .terminal accepted
  | category _ ih => exact .category ih
  | done => exact .done
  | next _ _ firstIh restIh => exact .next firstIh restIh
  | choice member _ _ ih => exact .choice member ih
  | absent => exact .absent
  | present _ ih => exact .present ih
  | none => exact .none
  | more _ _ firstIh restIh => exact .more firstIh restIh

theorem opens_append (predicted : phrase.Predicts tokens) (follows : Opens next rest) :
    Opens (phrase.opening next) (tokens ++ rest) :=
  predicted.derives.opens_append follows

theorem length_pos (predicted : phrase.Predicts tokens) (solid : phrase.isSolid = true) :
    0 < tokens.length :=
  List.length_pos_iff.mpr (predicted.derives.ne_nil solid)

theorem of_terminal {symbol : Terminal} (predicted : (Phrase.terminal symbol).Predicts tokens) :
    ∃ token, tokens = [token] ∧ symbol.accepts (some token) = true := by
  cases predicted with
  | terminal accepted => exact ⟨_, rfl, accepted⟩

theorem of_category {label : Category} (predicted : (Phrase.category label).Predicts tokens) :
    label.production.Predicts tokens := by
  cases predicted with
  | category inner => exact inner

theorem of_done (predicted : (Phrase.sequence []).Predicts tokens) : tokens = [] := by
  cases predicted
  rfl

theorem of_next {part : Phrase} {parts : List Phrase}
    (predicted : (Phrase.sequence (part :: parts)).Predicts tokens) :
    ∃ front back, tokens = front ++ back ∧ part.Predicts front ∧
      (Phrase.sequence parts).Predicts back := by
  cases predicted with
  | next first rest => exact ⟨_, _, rfl, first, rest⟩

theorem of_last {part : Phrase} (predicted : (Phrase.sequence [part]).Predicts tokens) :
    part.Predicts tokens := by
  obtain ⟨front, back, rfl, last, nothing⟩ := predicted.of_next
  rw [nothing.of_done, List.append_nil]
  exact last

/-- A sequence in front of others is a part of the whole sequence. -/
theorem flatten {inner parts : List Phrase}
    (predicted : (Phrase.sequence (.sequence inner :: parts)).Predicts tokens) :
    (Phrase.sequence (inner ++ parts)).Predicts tokens := by
  obtain ⟨front, back, rfl, first, others⟩ := predicted.of_next
  induction inner generalizing front with
  | nil =>
      rw [first.of_done]
      exact others
  | cons part inner ih =>
      obtain ⟨head, tail, rfl, partPredicted, innerPredicted⟩ := first.of_next
      rw [List.append_assoc]
      exact .next partPredicted (ih tail (.next innerPredicted others) innerPredicted)

theorem of_choice {alternatives : List Phrase}
    (predicted : (Phrase.choice alternatives).Predicts tokens) :
    ∃ alternative ∈ alternatives, alternative.isChosen tokens = true ∧
      alternative.Predicts tokens := by
  cases predicted with
  | choice member chosen inner => exact ⟨_, member, chosen, inner⟩

theorem of_oneOf {texts : List String} (predicted : (oneOf texts).Predicts tokens) :
    ∃ token text, tokens = [token] ∧ text ∈ texts ∧ token.spells text = true := by
  obtain ⟨_, member, _, inner⟩ := predicted.of_choice
  obtain ⟨text, listed, rfl⟩ := List.mem_map.mp member
  obtain ⟨token, rfl, spelled⟩ := inner.of_terminal
  exact ⟨token, text, rfl, listed, spelled⟩

theorem of_optional (predicted : (Phrase.optional phrase).Predicts tokens) :
    tokens = [] ∨ phrase.Predicts tokens := by
  cases predicted with
  | absent => exact .inl rfl
  | present inner => exact .inr inner

theorem of_many (predicted : (Phrase.many phrase).Predicts tokens) :
    tokens = [] ∨ ∃ front back, tokens = front ++ back ∧ phrase.Predicts front ∧
      (Phrase.many phrase).Predicts back := by
  cases predicted with
  | none => exact .inl rfl
  | more first rest => exact .inr ⟨_, _, rfl, first, rest⟩

/-- Induction over the items of a repetition, along with a bound that is larger than the number
of their tokens. -/
theorem rounds {motive : Nat → List Token → Prop}
    (predicted : (Phrase.many phrase).Predicts tokens) (solid : phrase.isSolid = true)
    (stop : ∀ bound, motive (bound + 1) [])
    (step : ∀ bound front back, phrase.Predicts front → (Phrase.many phrase).Predicts back →
      motive bound back → motive (bound + 1) (front ++ back))
    (bound : Nat) (enough : tokens.length < bound) : motive bound tokens := by
  induction bound generalizing tokens with
  | zero => simp at enough
  | succ bound ih =>
      rcases predicted.of_many with rfl | ⟨front, back, rfl, item, others⟩
      · exact stop bound
      · have present := item.length_pos solid
        rw [List.length_append] at enough
        exact step bound front back item others (ih others (by omega))

end Predicts

end Phrase

end StackLang
