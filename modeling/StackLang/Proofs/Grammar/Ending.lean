import StackLang.Proofs.Grammar.Opening

/-!
# How phrases end

A statement ends with a semicolon or a closing brace, and so does a list of statements
unless it is empty.
-/

namespace StackLang

open Terminal (Opens)
open Nonterminal (words)

namespace Phrase

/-- The categories that end like a statement, or derive nothing. -/
def concluding : List Category :=
  [.body, .statement, .giveBack, .whileLoop, .choice, .doWhile, .forLoop, .switch, .block]

mutual

/-- Whether what a phrase derives ends like a statement, unless it is empty. -/
def concludes : Phrase → Bool
  | .terminal symbol => symbol ∈ words [";", "\x7d"]
  | .category label => label ∈ concluding
  | .sequence parts => lastConcludes parts
  | .choice alternatives => allConclude alternatives
  | .optional phrase => concludes phrase
  | .many phrase => concludes phrase

/-- Whether phrases in a row end like a statement: the last one does, and so does the one
in front of it if the last one may be empty. -/
def lastConcludes : List Phrase → Bool
  | [] => true
  | part :: parts => lastConcludes parts && (anySolid parts || concludes part)

/-- Whether all of the phrases end like a statement. -/
def allConclude : List Phrase → Bool
  | [] => true
  | alternative :: others => concludes alternative && allConclude others

end

theorem production_concludes {label : Category} (listed : label ∈ concluding) :
    label.production.concludes = true := by
  cases label <;> revert listed <;> decide

theorem concludes_of_mem {alternatives : List Phrase} (all : allConclude alternatives = true) :
    ∀ alternative ∈ alternatives, alternative.concludes = true := by
  induction alternatives with
  | nil => nofun
  | cons alternative others ih =>
      simp only [allConclude, Bool.and_eq_true] at all
      simpa using ⟨all.1, ih all.2⟩

/-- What ends like a statement ends with a semicolon or a closing brace. -/
theorem Derives.opens_getLast {phrase : Phrase} {tokens : List Token}
    (derived : phrase.Derives tokens) (concludes : phrase.concludes = true) :
    ∀ token, tokens.getLast? = some token → Opens (words [";", "\x7d"]) [token] := by
  induction derived with
  | @terminal symbol token accepted =>
      rintro _ ⟨⟩
      exact List.any_eq_true.mpr ⟨symbol, of_decide_eq_true concludes, accepted⟩
  | category _ ih => exact ih (production_concludes (by simpa [Phrase.concludes] using concludes))
  | done => nofun
  | @next part parts first rest _ restDerived firstIh restIh =>
      intro token last
      simp only [Phrase.concludes, lastConcludes, Bool.and_eq_true, Bool.or_eq_true] at concludes
      rw [List.getLast?_append] at last
      cases ended : rest.getLast? with
      | some final =>
          rw [ended] at last
          exact restIh concludes.1 token (ended.trans last)
      | none =>
          rw [ended, Option.none_or] at last
          refine firstIh (concludes.2.resolve_left fun solid => ?_) token last
          exact restDerived.ne_nil solid (List.getLast?_eq_none_iff.mp ended)
  | choice member _ ih => exact ih (concludes_of_mem concludes _ member)
  | absent => nofun
  | present _ ih => exact ih concludes
  | none => nofun
  | @more phrase first rest _ _ firstIh restIh =>
      intro token last
      rw [List.getLast?_append] at last
      cases ended : rest.getLast? with
      | some final =>
          rw [ended] at last
          exact restIh concludes token (ended.trans last)
      | none =>
          rw [ended, Option.none_or] at last
          exact firstIh concludes token last

end Phrase

end StackLang
