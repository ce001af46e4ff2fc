import StackLang.Numeral.FloatText
import StackLang.Proofs.Numeral.Decimal
import StackLang.Proofs.Text.Lines

/-!
# Characters of written numbers

The text of a number has no blanks.
-/

namespace StackLang.Numeral

open Text

/-- A character of a written number. -/
def isNumberMark (char : Char) : Bool := char.isDigit || char == '-' || char == '.'

theorem isBlank_of_isNumberMark {char : Char} (mark : isNumberMark char = true) :
    isBlank char = false := by
  simp only [isNumberMark, Bool.or_eq_true, beq_iff_eq] at mark
  rcases mark with (digit | rfl) | rfl
  · exact isBlank_of_isDigit digit
  · decide
  · decide

theorem isNumberMark_of_isDigit {char : Char} (digit : char.isDigit = true) :
    isNumberMark char = true := by
  rw [isNumberMark, digit, Bool.true_or, Bool.true_or]

theorem toDigits_marks (number : Nat) :
    ∀ char ∈ Nat.toDigits 10 number, isNumberMark char = true := by
  intro char member
  exact isNumberMark_of_isDigit (toDigits_isDigit number char member)

theorem toString_marks (number : Int) :
    ∀ char ∈ (toString number).toList, isNumberMark char = true := by
  cases number with
  | ofNat magnitude =>
      show ∀ char ∈ (toString magnitude).toList, _
      rw [toList_toString]
      exact toDigits_marks magnitude
  | negSucc less =>
      show ∀ char ∈ ("-" ++ Nat.repr (less + 1)).toList, _
      rw [String.toList_append, Nat.toList_repr, List.forall_mem_append]
      exact ⟨forall_of_all (by decide), toDigits_marks _⟩

theorem signText_marks (negative : Bool) :
    ∀ char ∈ (signText negative).toList, isNumberMark char = true := by
  cases negative <;> exact forall_of_all (by decide)

theorem positional_marks (multiple : Nat) (place : Int) :
    ∀ char ∈ (positional multiple place).toList, isNumberMark char = true := by
  have zeros (count : Nat) : ∀ char ∈ List.replicate count '0', isNumberMark char = true := by
    intro char member
    rw [List.eq_of_mem_replicate member]
    rfl
  rw [positional]
  split
  · rw [String.toList_ofList, List.forall_mem_append]
    exact ⟨toDigits_marks multiple, zeros _⟩
  · have padded := List.forall_mem_append.mpr
      ⟨zeros ((-place).toNat + 1 - (Nat.toDigits 10 multiple).length), toDigits_marks multiple⟩
    rw [String.toList_ofList, List.forall_mem_append, List.forall_mem_cons]
    refine ⟨?_, rfl, ?_⟩
    · intro char member
      exact padded char (List.mem_of_mem_take member)
    · intro char member
      exact padded char (List.mem_of_mem_drop member)

theorem Binary64.text_visible (number : Binary64) :
    ∀ char ∈ number.text.toList, isBlank char = false := by
  have sign (negative : Bool) : ∀ char ∈ (signText negative).toList, isBlank char = false :=
    fun char member => isBlank_of_isNumberMark (signText_marks negative char member)
  cases number with
  | notANumber => exact forall_of_all (by decide)
  | infinite negative =>
      rw [Binary64.text, String.toList_append, List.forall_mem_append]
      exact ⟨sign negative, forall_of_all (by decide)⟩
  | zero negative =>
      rw [Binary64.text, String.toList_append, List.forall_mem_append]
      exact ⟨sign negative, forall_of_all (by decide)⟩
  | finite negative mantissa exponent =>
      rw [Binary64.text]
      split
      · rw [String.toList_append, String.toList_append, toList_toString, List.forall_mem_append,
          List.forall_mem_append]
        refine ⟨⟨sign negative, ?_⟩, forall_of_all (by decide)⟩
        intro char member
        exact isBlank_of_isNumberMark (toDigits_marks _ char member)
      · rw [String.toList_append, List.forall_mem_append]
        refine ⟨sign negative, ?_⟩
        intro char member
        exact isBlank_of_isNumberMark (positional_marks _ _ char member)

end StackLang.Numeral
