import StackLang.Grammar.Preview
import StackLang.Proofs.Reading.Primitives

/-!
# What previews show

The runs of the primitive previews, and the tokens at which a preview steps over
the arguments of a call: reading a balanced phrase moves past no parenthesis that
the preview would stop at.
-/

namespace StackLang

namespace Token

variable {token : Token}

theorem not_spells_of_isIdentifier (named : token.isIdentifier = true) (symbol : String) :
    token.spells symbol = false := by
  have kind : token.kind = .identifier := by simpa [isIdentifier] using named
  simp [spells, isFixed, kind]

theorem not_spells_of_isLiteral (denotes : token.isLiteral = true) {symbol : String}
    (notTrue : symbol ≠ "true") (notFalse : symbol ≠ "false") :
    token.spells symbol = false := by
  simp only [isLiteral, Bool.or_eq_true] at denotes
  rcases denotes with (kind | spelled) | spelled
  · cases shape : token.kind <;> simp_all [TokenKind.isLiteral, spells, isFixed]
  · have value := Reading.value_of_spells spelled
    simp [spells, value, notTrue.symm]
  · have value := Reading.value_of_spells spelled
    simp [spells, value, notFalse.symm]

theorem not_isIdentifier_of_isLiteral (denotes : token.isLiteral = true) :
    token.isIdentifier = false := by
  by_contra named
  have named : token.kind = .identifier := by simpa [isIdentifier] using named
  simp [isLiteral, TokenKind.isLiteral, spells, isFixed, named] at denotes

theorem literalType?_isSome (denotes : token.isLiteral = true) :
    token.literalType?.isSome = true := by
  cases kind : token.kind <;>
    simp [isLiteral, TokenKind.isLiteral, spells, isFixed, literalType?, kind] at denotes ⊢
  all_goals exact denotes

end Token

namespace Preview

theorem run_bind {α β : Type} {first : Preview α} {next : α → Preview β}
    {tokens rest : List Token} {result : α} (run : first.run tokens = .ok (result, rest)) :
    (first >>= next).run tokens = (next result).run rest := by
  rw [StateT.run_bind, run]
  rfl

theorem eat?_run_some {operators : List BinaryOperator} {operator : BinaryOperator}
    {token : Token} {rest : List Token}
    (found : operators.find? (fun operator => token.spells operator.symbol) = some operator) :
    (eat? operators).run (token :: rest) = .ok (some (operator, token.line), rest) := by
  have got : (get : Preview (List Token)).run (token :: rest) =
      .ok (token :: rest, token :: rest) := rfl
  rw [eat?, run_bind got]
  dsimp only
  rw [found]
  rfl

theorem eat?_run_none {operators : List BinaryOperator} {tokens : List Token}
    (missing : operators.find?
      (fun operator => tokens.head?.any fun token => token.spells operator.symbol) = none) :
    (eat? operators).run tokens = .ok (none, tokens) := by
  cases tokens with
  | nil => rfl
  | cons token rest =>
      have got : (get : Preview (List Token)).run (token :: rest) =
          .ok (token :: rest, token :: rest) := rfl
      simp only [List.head?_cons, Option.any_some] at missing
      rw [eat?, run_bind got]
      dsimp only
      rw [missing]
      rfl

theorem symbol?_run_some {symbol : String} {token : Token} {rest : List Token}
    (spelled : token.spells symbol = true) :
    (symbol? symbol).run (token :: rest) = .ok (some token.line, rest) := by
  change StateT.run (if token.spells symbol = true then _ else _) (token :: rest) = _
  rw [if_pos spelled]
  rfl

theorem symbol?_run_none {symbol : String} {cursor : Cursor}
    (unseen : cursor.sees symbol = false) :
    (symbol? symbol).run cursor.rest = .ok (none, cursor.rest) := by
  cases rest : cursor.rest with
  | nil => rfl
  | cons token tail =>
      have missing : token.spells symbol = false := by
        simpa [Cursor.sees, Cursor.next?, rest] using unseen
      change StateT.run (if token.spells symbol = true then _ else _) (token :: tail) = _
      rw [missing]
      rfl

theorem symbol?_run_miss {symbol : String} {token : Token} {rest : List Token}
    (other : token.spells symbol = false) :
    (symbol? symbol).run (token :: rest) = .ok (none, token :: rest) := by
  have unseen : (Cursor.initial (token :: rest)).sees symbol = false := other
  exact symbol?_run_none unseen

section

variable {nested : Preview Expr} {token : Token} {rest : List Token}

theorem primary_run_word (notOpen : token.spells "(" = false) :
    (primary nested).run (token :: rest) =
      StateT.run (if token.isIdentifier then
          if rest.head?.any fun next => next.spells "(" then do
            set (afterArguments 0 rest)
            return .call token []
          else do
            set rest
            return .name token
        else if token.literalType?.isSome then do
          set rest
          return .literal token
        else throw .mismatch) (token :: rest) := by
  unfold primary
  rw [run_bind (symbol?_run_miss notOpen)]
  rfl

theorem primary_run_call (named : token.isIdentifier = true)
    (opens : rest.head?.any (fun next => next.spells "(") = true) :
    (primary nested).run (token :: rest) = .ok (.call token [], afterArguments 0 rest) := by
  rw [primary_run_word (Token.not_spells_of_isIdentifier named "("), if_pos named, if_pos opens]
  rfl

theorem primary_run_name (named : token.isIdentifier = true)
    (alone : rest.head?.any (fun next => next.spells "(") = false) :
    (primary nested).run (token :: rest) = .ok (.name token, rest) := by
  rw [primary_run_word (Token.not_spells_of_isIdentifier named "("), if_pos named, alone]
  rfl

theorem primary_run_literal (denotes : token.isLiteral = true) :
    (primary nested).run (token :: rest) = .ok (.literal token, rest) := by
  rw [primary_run_word (Token.not_spells_of_isLiteral denotes (by decide) (by decide)),
    if_neg (by simp [Token.not_isIdentifier_of_isLiteral denotes]),
    if_pos (Token.literalType?_isSome denotes)]
  rfl

end

theorem afterArguments_open {depth : Nat} {token : Token} {rest : List Token}
    (opens : token.spells "(" = true) :
    afterArguments depth (token :: rest) = afterArguments (depth + 1) rest := by
  rw [afterArguments, if_pos opens]

theorem afterArguments_close {depth : Nat} {token : Token} {rest : List Token}
    (closes : token.spells ")" = true) :
    afterArguments (depth + 2) (token :: rest) = afterArguments (depth + 1) rest := by
  have value := Reading.value_of_spells closes
  rw [afterArguments, if_neg (by simp [Token.spells, value]), if_pos closes,
    if_neg (by omega)]
  rfl

theorem afterArguments_last {token : Token} {rest : List Token}
    (closes : token.spells ")" = true) :
    afterArguments 1 (token :: rest) = rest := by
  have value := Reading.value_of_spells closes
  rw [afterArguments, if_neg (by simp [Token.spells, value]), if_pos closes, if_pos (by omega)]

theorem afterArguments_other {depth : Nat} {token : Token} {rest : List Token}
    (notOpen : token.spells "(" = false) (notClosed : token.spells ")" = false) :
    afterArguments depth (token :: rest) = afterArguments depth rest := by
  rw [afterArguments, if_neg (by simp [notOpen]), if_neg (by simp [notClosed])]

end Preview

namespace Cursor

/-- Stepping over arguments passes everything between the two cursors. -/
def Balances (before after : Cursor) : Prop :=
  ∀ depth, Preview.afterArguments (depth + 1) before.rest =
    Preview.afterArguments (depth + 1) after.rest

namespace Balances

theorem refl (cursor : Cursor) : cursor.Balances cursor := fun _ => rfl

theorem trans {first second third : Cursor} (front : first.Balances second)
    (back : second.Balances third) : first.Balances third :=
  fun depth => (front depth).trans (back depth)

end Balances

/-- The token that was read as a terminal. -/
theorem Reads.terminal_rest {before after : Cursor} {terminal : Terminal}
    (read : before.Reads (.terminal terminal) after) :
    ∃ token, before.rest = token :: after.rest ∧ terminal.accepts (some token) = true := by
  obtain ⟨tokens, consumed, derived⟩ := read
  cases derived with
  | terminal accepted => exact ⟨_, consumed.rest, accepted⟩

theorem Reads.word_balances {before after : Cursor} {symbol : String}
    (read : before.Reads (Phrase.word symbol) after) (notOpen : symbol ≠ "(")
    (notClosed : symbol ≠ ")") : before.Balances after := by
  obtain ⟨token, rest, spelled⟩ := read.terminal_rest
  have value : token.value = symbol := Reading.value_of_spells spelled
  intro depth
  rw [rest, Preview.afterArguments_other]
  · simp [Token.spells, value, notOpen]
  · simp [Token.spells, value, notClosed]

theorem Reads.identifier_balances {before after : Cursor}
    (read : before.Reads Phrase.identifier after) : before.Balances after := by
  obtain ⟨token, rest, named⟩ := read.terminal_rest
  intro depth
  rw [rest, Preview.afterArguments_other (Token.not_spells_of_isIdentifier named _)
    (Token.not_spells_of_isIdentifier named _)]

theorem Reads.literal_balances {before after : Cursor}
    (read : before.Reads Phrase.literal after) : before.Balances after := by
  obtain ⟨token, rest, denotes⟩ := read.terminal_rest
  intro depth
  rw [rest, Preview.afterArguments_other
    (Token.not_spells_of_isLiteral denotes (by decide) (by decide))
    (Token.not_spells_of_isLiteral denotes (by decide) (by decide))]

/-- What stands in balanced parentheses is balanced. -/
theorem Balances.parenthesized {before opened closing after : Cursor}
    (opening : before.Reads (Phrase.word "(") opened) (inside : opened.Balances closing)
    (closed : closing.Reads (Phrase.word ")") after) : before.Balances after := by
  obtain ⟨first, firstRest, opens⟩ := opening.terminal_rest
  obtain ⟨last, lastRest, closes⟩ := closed.terminal_rest
  intro depth
  calc
    Preview.afterArguments (depth + 1) before.rest
        = Preview.afterArguments (depth + 2) opened.rest := by
          rw [firstRest, Preview.afterArguments_open opens]
    _ = Preview.afterArguments (depth + 2) closing.rest := inside (depth + 1)
    _ = Preview.afterArguments (depth + 1) after.rest := by
          rw [lastRest, Preview.afterArguments_close closes]

/-- The preview of a call steps over its arguments. -/
theorem Balances.afterArguments {before opened closing after : Cursor}
    (opening : before.Reads (Phrase.word "(") opened) (inside : opened.Balances closing)
    (closed : closing.Reads (Phrase.word ")") after) :
    Preview.afterArguments 0 before.rest = after.rest := by
  obtain ⟨first, firstRest, opens⟩ := opening.terminal_rest
  obtain ⟨last, lastRest, closes⟩ := closed.terminal_rest
  calc
    Preview.afterArguments 0 before.rest
        = Preview.afterArguments 1 opened.rest := by
          rw [firstRest, Preview.afterArguments_open opens]
    _ = Preview.afterArguments 1 closing.rest := inside 0
    _ = after.rest := by rw [lastRest, Preview.afterArguments_last closes]

end Cursor

end StackLang
