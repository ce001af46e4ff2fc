import StackLang.Proofs.Automaton.Patterns
import StackLang.Proofs.Numeral.Positional
import StackLang.Proofs.Typing.Literal

/-!
# Spelling of literals

The characters of a literal of a whole number are digits of its radix, behind the mark of
the radix if there is one, and perhaps before an exponent.  Those of a string or a char
stand between quotes.
-/

namespace StackLang

namespace Pattern

/-- Repeated characters are characters of the list, at least one. -/
theorem of_repeated_oneOf {chars word : List Char}
    (matched : word ∈ (oneOf chars).repeated.matches') :
    word ≠ [] ∧ ∀ char ∈ word, char ∈ chars := by
  obtain ⟨first, one, rest, more, rfl⟩ := matched
  obtain ⟨char, member, rfl⟩ := mem_oneOf.mp one
  obtain ⟨words, rfl, each⟩ := Language.mem_kstar.mp more
  refine ⟨List.cons_ne_nil _ _, List.forall_mem_cons.mpr ⟨member, fun other inside => ?_⟩⟩
  obtain ⟨single, listed, within⟩ := List.mem_flatten.mp inside
  obtain ⟨only, found, rfl⟩ := mem_oneOf.mp (each single listed)
  exact List.mem_singleton.mp within ▸ found

end Pattern

/-- The radix and the digits of a literal of a whole number without exponent. -/
def Token.digits? (token : Token) : Option (Nat × List Char) :=
  match token.kind with
  | .integer =>
      if token.value.toList.any fun char => char == 'e' || char == 'E' then none
      else some (10, token.value.toList)
  | .hexadecimal => some (16, token.value.toList.drop 2)
  | .binary => some (2, token.value.toList.drop 2)
  | .octal => some (8, token.value.toList)
  | _ => none

namespace Lexeme

open Numeral (Admitted)

variable {token : Token}

/-- The characters of a literal match the pattern of its kind. -/
theorem Recognised.matches (recognised : Recognised token)
    (noMark : token.kind ≠ .operator ∧ token.kind ≠ .delimiter)
    (noWord : token.kind ≠ .error ∧ token.kind ≠ .keyword) :
    token.value.toList ∈ token.kind.pattern.matches' := by
  cases recognised with
  | mark fixed =>
      rcases fixed with operator | delimiter
      · exact absurd operator noMark.1
      · exact absurd delimiter noMark.2
  | lexeme nonempty kind =>
      obtain ⟨state, reached, known⟩ := kind?_of_kindOf kind.symm noWord.1 noWord.2
      exact (TokenKind.mem_pattern_iff _ _).mpr
        ⟨state, (State.run?_eq_some_iff _ _).mp reached, known⟩

/-- Digits behind a zero and the mark of their radix. -/
theorem marked_digits {marks digits chars : List Char} {radix : Nat}
    (matched : chars ∈ (Pattern.oneOf ['0'] * Pattern.oneOf marks *
      (Pattern.oneOf digits).repeated).matches')
    (listed : ∀ char ∈ digits, (Numeral.digit? radix char).isSome) :
    ∃ mark ∈ marks, ∃ back, chars = '0' :: mark :: back ∧ Admitted radix back := by
  obtain ⟨front, ⟨zero, first, second, marked, rfl⟩, back, more, rfl⟩ := matched
  obtain ⟨char, only, rfl⟩ := Pattern.mem_oneOf.mp first
  obtain rfl := List.mem_singleton.mp only
  obtain ⟨mark, member, rfl⟩ := Pattern.mem_oneOf.mp marked
  obtain ⟨nonempty, inside⟩ := Pattern.of_repeated_oneOf more
  exact ⟨mark, member, back, rfl, nonempty, fun char within => listed char (inside char within)⟩

theorem Recognised.hexadecimal (recognised : Recognised token) (kind : token.kind = .hexadecimal) :
    ∃ mark ∈ ['x', 'X'], ∃ back, token.value.toList = '0' :: mark :: back ∧ Admitted 16 back := by
  have matched := recognised.matches (by rw [kind]; decide) (by rw [kind]; decide)
  rw [kind] at matched
  exact marked_digits matched (List.all_eq_true.mp (by decide))

theorem Recognised.binary (recognised : Recognised token) (kind : token.kind = .binary) :
    ∃ mark ∈ ['b', 'B'], ∃ back, token.value.toList = '0' :: mark :: back ∧ Admitted 2 back := by
  have matched := recognised.matches (by rw [kind]; decide) (by rw [kind]; decide)
  rw [kind] at matched
  exact marked_digits matched (List.all_eq_true.mp (by decide))

theorem Recognised.octal (recognised : Recognised token) (kind : token.kind = .octal) :
    Admitted 8 token.value.toList := by
  have matched := recognised.matches (by rw [kind]; decide) (by rw [kind]; decide)
  rw [kind] at matched
  obtain ⟨zero, first, back, more, chars⟩ := matched
  obtain ⟨char, only, rfl⟩ := Pattern.mem_oneOf.mp first
  obtain rfl := List.mem_singleton.mp only
  obtain ⟨-, inside⟩ := Pattern.of_repeated_oneOf more
  have listed : ∀ char ∈ Pattern.octalDigits, (Numeral.digit? 8 char).isSome :=
    List.all_eq_true.mp (by decide)
  rw [← chars]
  exact ⟨List.cons_ne_nil _ _, List.forall_mem_cons.mpr
    ⟨by decide, fun char within => listed char (inside char within)⟩⟩

/-- The shape of an integer: digits, perhaps with an exponent. -/
theorem Recognised.integer (recognised : Recognised token) (kind : token.kind = .integer) :
    Digits token.value.toList ∨ ∃ front mark sign digits, Digits front ∧
      Exponent mark sign digits ∧ token.value.toList = front ++ mark :: (sign ++ digits) := by
  obtain ⟨state, accepts, shape⟩ := recognised.state (by rw [kind]; decide) (by rw [kind]; decide)
  rw [kind] at accepts
  cases state with
  | zero | decimal => exact .inl shape
  | integerExponentDigits => exact .inr shape
  | _ => exact absurd accepts (by simp [State.kind?])

theorem Recognised.string (recognised : Recognised token) (kind : token.kind = .string) :
    ∃ content, token.value.toList = '"' :: (content ++ ['"']) := by
  obtain ⟨state, accepts, shape⟩ := recognised.state (by rw [kind]; decide) (by rw [kind]; decide)
  rw [kind] at accepts
  cases state with
  | stringEnd =>
      obtain ⟨content, -, chars⟩ := shape
      exact ⟨content, chars⟩
  | _ => exact absurd accepts (by simp [State.kind?])

theorem Recognised.char (recognised : Recognised token) (kind : token.kind = .char) :
    ∃ letter, token.value.toList = ['\'', letter, '\''] := by
  obtain ⟨state, accepts, shape⟩ := recognised.state (by rw [kind]; decide) (by rw [kind]; decide)
  rw [kind] at accepts
  cases state with
  | charEnd =>
      obtain ⟨letter, -, chars⟩ := shape
      exact ⟨letter, chars⟩
  | _ => exact absurd accepts (by simp [State.kind?])

end Lexeme

end StackLang
