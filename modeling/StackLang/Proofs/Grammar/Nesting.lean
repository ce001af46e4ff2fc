import Mathlib.Data.Nat.PSub
import StackLang.Proofs.Grammar.Opening

/-!
# Nesting

How deep in brackets a list of tokens leads.  What a category derives leads back to the
depth it starts from and never below it, for every kind of brackets that the productions
respect.  So a closing symbol that stands behind such tokens is not one of theirs, and in
front of it the tokens are determined.
-/

namespace StackLang

/-- Symbols that open and the symbol that closes. -/
structure Brackets where
  openings : List String
  closing : String

namespace Brackets

open Terminal (allApart)
open Nonterminal (words)

variable (brackets : Brackets)

/-- The depth behind a token. -/
def behind (depth : Nat) (token : Token) : Option Nat :=
  if token.spells brackets.closing then depth.ppred
  else if brackets.openings.any token.spells then some (depth + 1)
  else some depth

/-- The depth behind a list of tokens. -/
def behindAll (depth : Nat) (tokens : List Token) : Option Nat :=
  tokens.foldlM brackets.behind depth

/-- Tokens that lead back to the depth they start from. -/
def Level (tokens : List Token) : Prop := ∀ depth, brackets.behindAll depth tokens = some depth

/-- The depth behind a terminal, if it is the same behind every token it stands for. -/
def behindTerminal (depth : Nat) (terminal : Terminal) : Option Nat :=
  if terminal = .word brackets.closing then depth.ppred
  else if terminal ∈ words brackets.openings then some (depth + 1)
  else if allApart [terminal] (words (brackets.closing :: brackets.openings)) then some depth
  else none

theorem behind_of_terminal {terminal : Terminal} {token : Token} {depth after : Nat}
    (accepted : terminal.accepts (some token) = true)
    (step : brackets.behindTerminal depth terminal = some after) (outer : Nat) :
    brackets.behind (outer + depth) token = some (outer + after) := by
  unfold behindTerminal at step
  unfold behind
  split at step
  · next closes =>
      subst closes
      have spelled : token.spells brackets.closing = true := accepted
      rw [if_pos spelled, Nat.ppred_eq_some]
      have := Nat.ppred_eq_some.mp step
      omega
  · next other =>
      split at step
      · next opens =>
          obtain ⟨text, listed, rfl⟩ := List.mem_map.mp opens
          have apart : (Terminal.word text).apart (.word brackets.closing) = true := by
            simpa [Terminal.apart] using other
          have spelled : token.spells text = true := accepted
          have unclosed : token.spells brackets.closing = false :=
            Terminal.accepts_eq_false apart accepted
          rw [unclosed, if_neg Bool.false_ne_true, if_pos (List.any_eq_true.mpr ⟨text, listed, spelled⟩),
            ← Option.some.inj step, Nat.add_assoc]
      · split at step
        · next apart =>
            have opens : Terminal.Opens [terminal] [token] := by
              simp [Terminal.Opens, Terminal.anyAccepts, accepted]
            have unread := opens.anyAccepts_eq_false apart
            simp only [Terminal.anyAccepts, words, List.map_cons, List.any_cons, List.head?_cons,
              List.any_map, Bool.or_eq_false_iff] at unread
            have unclosed : token.spells brackets.closing = false := unread.1
            have unopened : brackets.openings.any token.spells = false := unread.2
            rw [unclosed, unopened, if_neg Bool.false_ne_true, if_neg Bool.false_ne_true,
              Option.some.inj step]
        · contradiction

theorem behindAll_append (depth : Nat) (front back : List Token) :
    brackets.behindAll depth (front ++ back) =
      (brackets.behindAll depth front).bind fun middle => brackets.behindAll middle back :=
  List.foldlM_append

variable {brackets}

/-- Behind a closing symbol tokens do not lead back to their depth. -/
theorem Level.unclosed {front back : List Token} {close : Token} (level : brackets.Level front)
    (closes : close.spells brackets.closing = true) :
    ¬brackets.Level (front ++ close :: back) := by
  intro whole
  have ended := whole 0
  rw [behindAll_append, level 0, Option.bind_some, behindAll, List.foldlM_cons, behind,
    if_pos closes] at ended
  contradiction

/-- A closing symbol behind tokens that lead back to their depth ends them. -/
theorem Level.eq_of_closing {one other rest otherRest : List Token} {close otherClose : Token}
    (level : brackets.Level one) (otherLevel : brackets.Level other)
    (closes : close.spells brackets.closing = true)
    (otherCloses : otherClose.spells brackets.closing = true)
    (same : one ++ close :: rest = other ++ otherClose :: otherRest) :
    one = other ∧ close = otherClose ∧ rest = otherRest := by
  rcases List.append_eq_append_iff.mp same with ⟨more, whole, tail⟩ | ⟨more, whole, tail⟩
  · cases more with
    | nil => exact ⟨by rw [whole, List.append_nil], List.cons_eq_cons.mp tail⟩
    | cons token more =>
        obtain ⟨rfl, _⟩ := List.cons_eq_cons.mp tail
        exact absurd (whole ▸ otherLevel) (level.unclosed closes)
  · cases more with
    | nil =>
        obtain ⟨same, rest⟩ := List.cons_eq_cons.mp tail
        exact ⟨by rw [whole, List.append_nil], same.symm, rest.symm⟩
    | cons token more =>
        obtain ⟨rfl, _⟩ := List.cons_eq_cons.mp tail
        exact absurd (whole ▸ level) (otherLevel.unclosed otherCloses)

end Brackets

namespace Phrase

variable (brackets : Brackets) (calm : Category → Bool)

mutual

/-- The depth behind a phrase, if it can be told from the calm categories, which lead back
to the depth they start from. -/
def depthBehind (depth : Nat) : Phrase → Option Nat
  | .terminal symbol => brackets.behindTerminal depth symbol
  | .category label => if calm label then some depth else none
  | .sequence parts => depthThrough depth parts
  | .choice alternatives => if allLevel depth alternatives then some depth else none
  | .optional phrase => if depthBehind depth phrase = some depth then some depth else none
  | .many phrase => if depthBehind depth phrase = some depth then some depth else none

/-- The depth behind phrases in a row. -/
def depthThrough (depth : Nat) : List Phrase → Option Nat
  | [] => some depth
  | part :: parts =>
      match depthBehind depth part with
      | none => none
      | some middle => depthThrough middle parts

/-- Whether all of the phrases lead back to the depth they start from. -/
def allLevel (depth : Nat) : List Phrase → Bool
  | [] => true
  | alternative :: others => depthBehind depth alternative == some depth && allLevel depth others

end

variable {brackets calm}

theorem depthBehind_of_mem {depth : Nat} {alternatives : List Phrase}
    (level : allLevel brackets calm depth alternatives = true) :
    ∀ alternative ∈ alternatives, depthBehind brackets calm depth alternative = some depth := by
  induction alternatives with
  | nil => nofun
  | cons alternative others ih =>
      simp only [allLevel, Bool.and_eq_true, beq_iff_eq] at level
      simpa using ⟨level.1, ih level.2⟩

/-- The brackets are respected by the productions of the calm categories. -/
def Respects (brackets : Brackets) (calm : Category → Bool) : Prop :=
  ∀ label, calm label = true → depthBehind brackets calm 0 label.production = some 0

theorem Derives.behindAll {phrase : Phrase} {tokens : List Token} (derived : phrase.Derives tokens)
    (respects : Respects brackets calm) {depth after : Nat}
    (told : depthBehind brackets calm depth phrase = some after) (outer : Nat) :
    brackets.behindAll (outer + depth) tokens = some (outer + after) := by
  induction derived generalizing depth after outer with
  | terminal accepted =>
      rw [Brackets.behindAll, List.foldlM_cons, brackets.behind_of_terminal accepted told]
      rfl
  | @category label tokens _ ih =>
      rw [depthBehind] at told
      split at told
      · next isCalm =>
          cases told
          exact ih (respects label isCalm) (outer + depth)
      · contradiction
  | done =>
      rw [depthBehind, depthThrough] at told
      cases told
      rfl
  | @next part parts first rest _ _ firstIh restIh =>
      rw [depthBehind, depthThrough] at told
      split at told
      · contradiction
      · next middle found =>
          rw [Brackets.behindAll_append, firstIh found, Option.bind_some]
          exact restIh told outer
  | choice member _ ih =>
      rw [depthBehind] at told
      split at told
      · next level =>
          cases told
          exact ih (depthBehind_of_mem level _ member) outer
      · contradiction
  | absent =>
      rw [depthBehind] at told
      split at told
      · cases told
        rfl
      · contradiction
  | present _ ih =>
      rw [depthBehind] at told
      split at told
      · next level =>
          cases told
          exact ih level outer
      · contradiction
  | none =>
      rw [depthBehind] at told
      split at told
      · cases told
        rfl
      · contradiction
  | more _ _ firstIh restIh =>
      have whole := told
      rw [depthBehind] at told
      split at told
      · next level =>
          cases told
          rw [Brackets.behindAll_append, firstIh level, Option.bind_some]
          exact restIh whole outer
      · contradiction

theorem Derives.level {phrase : Phrase} {tokens : List Token} (derived : phrase.Derives tokens)
    (respects : Respects brackets calm)
    (told : depthBehind brackets calm 0 phrase = some 0) : brackets.Level tokens :=
  fun depth => derived.behindAll respects told depth

/-- Parentheses. -/
def parentheses : Brackets := ⟨["("], ")"⟩

/-- Braces. -/
def braces : Brackets := ⟨["\x7b"], "\x7d"⟩

/-- Semicolons, which nothing opens. -/
def semicolons : Brackets := ⟨[], ";"⟩

/-- The categories without semicolons. -/
def withoutSemicolons : List Category :=
  [.type, .variable, .assignment, .call, .expression, .conjunction, .inversion, .relation, .sum,
    .product, .negation, .primary]

theorem respects_parentheses : Respects parentheses fun _ => true := by
  intro label _
  cases label <;> decide

theorem respects_braces : Respects braces fun _ => true := by
  intro label _
  cases label <;> decide

theorem respects_semicolons : Respects semicolons fun label => label ∈ withoutSemicolons := by
  intro label calm
  cases label <;> revert calm <;> decide

end Phrase

end StackLang
