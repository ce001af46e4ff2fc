import StackLang.Proofs.Numeral.Decimal
import StackLang.Token.Row

/-!
# Token tables that are read back

A row is cut at its last two tabs.  Neither the name of a kind nor a number holds one, so the
cuts are found whatever the value is, even if the value holds tabs, line feeds or whole rows.
-/

namespace StackLang

open Text

theorem TokenKind.text_injective : Function.Injective TokenKind.text := by
  intro one other same
  have kinds : some one = some other := by
    rw [← TokenKind.ofText?_text one, same, TokenKind.ofText?_text]
  exact Option.some.inj kinds

theorem TokenKind.text_whole (kind : TokenKind) : '\t' ∉ kind.text.toList := by
  cases kind <;> decide

namespace Token

/-- What stands in front of the line column. -/
def rowFront (token : Token) : List Char := token.value.toList ++ '\t' :: token.kind.text.toList

theorem toList_row (token : Token) :
    token.row.toList = token.rowFront ++ '\t' :: (toString token.line).toList := by
  simp [row, rowFront, String.toList_append]

theorem splitLast?_row (token : Token) :
    splitLast? '\t' token.row.toList = some (token.rowFront, (toString token.line).toList) := by
  have whole : '\t' ∉ (toString token.line).toList := by
    intro member
    rw [Numeral.toList_toString] at member
    exact absurd (Numeral.toDigits_isDigit token.line '\t' member) (by decide)
  rw [toList_row, splitLast?_append whole]

theorem splitLast?_rowFront (token : Token) :
    splitLast? '\t' token.rowFront = some (token.value.toList, token.kind.text.toList) := by
  rw [rowFront, splitLast?_append token.kind.text_whole]

theorem kindOfColumn_text (kind : TokenKind) : kindOfColumn kind.text.toList = .ok kind := by
  rw [kindOfColumn, String.ofList_toList, TokenKind.ofText?_text]

/-- The line column is read back as long as the number fits into 64 bits. -/
theorem lineOfColumn_toString (line : Nat) :
    lineOfColumn (toString line).toList =
      if line < UInt64.size then .ok line else .error .invalidLine := by
  rw [lineOfColumn, trimChars_tight (Numeral.toString_tight line), String.ofList_toList,
    Numeral.natural64?_toString]
  by_cases fits : line < UInt64.size
  · simp [fits]
  · simp [fits]

theorem ofRow_row (token : Token) :
    ofRow token.row = if token.line < UInt64.size then .ok token else .error .invalidLine := by
  rw [ofRow, splitLast?_row]
  dsimp only
  rw [lineOfColumn_toString, splitLast?_rowFront]
  by_cases fits : token.line < UInt64.size
  · rw [if_pos fits, if_pos fits]
    show (do let kind ← kindOfColumn token.kind.text.toList; _) = _
    rw [kindOfColumn_text, String.ofList_toList]
    rfl
  · rw [if_neg fits, if_neg fits]
    rfl

theorem row_injective : Function.Injective row := by
  intro one other same
  have parts : some (one.rowFront, (toString one.line).toList) =
      some (other.rowFront, (toString other.line).toList) := by
    rw [← splitLast?_row, same, splitLast?_row]
  obtain ⟨front, line⟩ := Prod.mk.inj (Option.some.inj parts)
  have columns : some (one.value.toList, one.kind.text.toList) =
      some (other.value.toList, other.kind.text.toList) := by
    rw [← splitLast?_rowFront, front, splitLast?_rowFront]
  obtain ⟨value, kind⟩ := Prod.mk.inj (Option.some.inj columns)
  have sameValue : one.value = other.value := String.toList_injective value
  have sameKind : one.kind = other.kind :=
    TokenKind.text_injective (String.toList_injective kind)
  have sameLine : one.line = other.line :=
    Numeral.toString_injective (String.toList_injective line)
  cases one
  cases other
  simp_all

/-- A token whose line number is a 64-bit number is read back from its row, whatever its value
is; only such a number is a line number for the reader.  Different tokens have different rows. -/
theorem row_round_trip (token : Token) :
    (ofRow token.row = .ok token ↔ token.line < UInt64.size) ∧
    ∀ other : Token, other ≠ token → other.row ≠ token.row := by
  constructor
  · rw [ofRow_row]
    by_cases fits : token.line < UInt64.size
    · simp [fits]
    · simp [fits]
  · intro other different same
    exact different (row_injective same)

end Token

end StackLang
