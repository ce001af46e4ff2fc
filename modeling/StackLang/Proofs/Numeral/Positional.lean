import StackLang.Proofs.Numeral.FloatReading

/-!
# Positional notation

Digits of a radix are read as the number that they write, and an exponent behind digits
as a power of ten.
-/

namespace StackLang.Numeral

/-- The number that digits write in a radix. -/
def numeralValue (radix : Nat) (digits : List Char) : Nat :=
  digits.foldl (fun value char => value * radix + (digitValue? char).getD 0) 0

/-- Digits that the radix admits, at least one. -/
structure Admitted (radix : Nat) (digits : List Char) : Prop where
  nonempty : digits ≠ []
  admitted : ∀ char ∈ digits, (digit? radix char).isSome

section

variable {radix other : Nat} {digits : List Char} {text : String}

theorem extend?_eq_foldl (admitted : ∀ char ∈ digits, (digit? radix char).isSome) (value : Nat) :
    extend? radix value digits =
      some (digits.foldl (fun value char => value * radix + (digitValue? char).getD 0) value) := by
  induction digits generalizing value with
  | nil => rfl
  | cons char rest ih =>
      obtain ⟨digit, read⟩ := Option.isSome_iff_exists.mp (admitted char List.mem_cons_self)
      have known : digitValue? char = some digit := (Option.filter_eq_some_iff.mp read).1
      rw [extend?, read, List.foldl_cons, known]
      exact ih (fun later member => admitted later (List.mem_cons_of_mem char member)) _

theorem Admitted.natural? (admitted : Admitted radix digits) :
    natural? radix digits = some (numeralValue radix digits) := by
  rw [Numeral.natural?, if_neg (by simpa using admitted.nonempty)]
  exact extend?_eq_foldl admitted.admitted 0

/-- Digits have no sign in front of them. -/
theorem Admitted.integer? (admitted : Admitted radix digits) :
    integer? radix digits = some (numeralValue radix digits : Int) := by
  have noSign {sign : Char} (other : digitValue? sign = none) : sign ∉ digits := by
    intro member
    have known := admitted.admitted sign member
    rw [digit?, other] at known
    contradiction
  unfold Numeral.integer?
  split
  · exact absurd List.mem_cons_self (noSign (by decide))
  · exact absurd List.mem_cons_self (noSign (by decide))
  · rw [admitted.natural?]
    rfl

theorem foldl_mono (ordered : radix ≤ other) {value larger : Nat} (grown : value ≤ larger) :
    digits.foldl (fun value char => value * radix + (digitValue? char).getD 0) value ≤
      digits.foldl (fun value char => value * other + (digitValue? char).getD 0) larger := by
  induction digits generalizing value larger with
  | nil => exact grown
  | cons char rest ih => exact ih (Nat.add_le_add_right (Nat.mul_le_mul grown ordered) _)

/-- The same digits write no smaller number in a larger radix. -/
theorem numeralValue_mono (ordered : radix ≤ other) (digits : List Char) :
    numeralValue radix digits ≤ numeralValue other digits :=
  foldl_mono ordered (Nat.le_refl 0)

theorem Admitted.mono (admitted : Admitted radix digits) (ordered : radix ≤ other) :
    Admitted other digits := by
  refine ⟨admitted.nonempty, fun char member => ?_⟩
  obtain ⟨digit, read⟩ := Option.isSome_iff_exists.mp (admitted.admitted char member)
  obtain ⟨known, small⟩ := Option.filter_eq_some_iff.mp read
  have small : digit < radix := by simpa using small
  rw [digit?, known, Option.filter_some, if_pos (by simpa using Nat.lt_of_lt_of_le small ordered)]
  rfl

theorem admitted_of_digits (nonempty : digits ≠ []) (decimal : AllDigits digits) :
    Admitted 10 digits := by
  refine ⟨nonempty, fun char member => ?_⟩
  rw [digit?_of_isDigit (decimal char member)]
  rfl

/-- Digits are read as the number that they write, if it fits. -/
theorem Admitted.int64OfRadix? (admitted : Admitted radix text.toList) :
    int64OfRadix? radix text =
      if numeralValue radix text.toList < 2 ^ 63 then
        some (Int64.ofNat (numeralValue radix text.toList))
      else none := by
  have fits : FitsInt64 (numeralValue radix text.toList : Int) ↔
      numeralValue radix text.toList < 2 ^ 63 := by
    rw [FitsInt64]
    omega
  rw [Numeral.int64OfRadix?, admitted.integer?]
  simp only [fits, Int64.ofInt_eq_ofNat]

end

/-! ### Exponents -/

section

variable {digits exponent : List Char} {mark : Char}

/-- Digits with an exponent behind them. -/
theorem decimal?_exponent (whole : digits ≠ []) (wholeDigits : AllDigits digits)
    (isMark : mark = 'e' ∨ mark = 'E') (power : exponent ≠ []) (powerDigits : AllDigits exponent) :
    decimal? (digits ++ mark :: exponent) =
      some ⟨numeralValue 10 digits, (numeralValue 10 exponent : Nat)⟩ := by
  have noDigit : (mark :: exponent).takeWhile Char.isDigit = [] := by
    rcases isMark with rfl | rfl
    · rfl
    · rfl
  obtain ⟨front, back⟩ := takeWhile_digits wholeDigits (mark :: exponent) noDigit
  have mantissa := (admitted_of_digits whole wholeDigits).natural?
  have tail : exponentPart? (mark :: exponent) = some (numeralValue 10 exponent : Int) := by
    rw [exponentPart?, if_pos isMark, (admitted_of_digits power powerDigits).integer?]
  rw [decimal?]
  simp only [front, back]
  rcases isMark with rfl | rfl
  · simp [mantissa, tail]
  · simp [mantissa, tail]

/-- What starts with a digit is no word for a special value. -/
theorem magnitude?_of_digit {first : Char} {rest : List Char} (digit : first.isDigit = true) :
    magnitude? (first :: rest) = (decimal? (first :: rest)).map Decimal.toFloat := by
  have same : first.toLower = first := by
    have bounds : '0' ≤ first ∧ first ≤ '9' := by simpa [Char.isDigit, Char.le_def] using digit
    have low : ¬ (first.val ≥ 'A'.val ∧ first.val ≤ 'Z'.val) := by
      rintro ⟨above, -⟩
      exact absurd (UInt32.le_trans above bounds.2) (by decide)
    exact dif_neg low
  have noWord {word : String} {letter : Char} (begins : word.toList.head? = some letter)
      (isLetter : letter.isDigit = false) :
      String.ofList ((first :: rest).map Char.toLower) ≠ word := by
    rintro rfl
    rw [String.toList_ofList, List.map_cons, List.head?_cons, same] at begins
    obtain rfl := Option.some.inj begins
    rw [digit] at isLetter
    contradiction
  rw [magnitude?, if_neg (not_or.mpr ⟨noWord rfl rfl, noWord rfl rfl⟩), if_neg (noWord rfl rfl)]

theorem float?_exponent {text : String} (chars : text.toList = digits ++ mark :: exponent)
    (whole : digits ≠ []) (wholeDigits : AllDigits digits) (isMark : mark = 'e' ∨ mark = 'E')
    (power : exponent ≠ []) (powerDigits : AllDigits exponent) :
    float? text =
      some (Decimal.toFloat ⟨numeralValue 10 digits, (numeralValue 10 exponent : Nat)⟩) := by
  have reads := decimal?_exponent whole wholeDigits isMark power powerDigits
  obtain ⟨first, rest, rfl⟩ := List.exists_cons_of_ne_nil whole
  have digit := wholeDigits first List.mem_cons_self
  rw [float?_of_digit chars digit]
  show magnitude? (first :: rest ++ mark :: exponent) = _
  rw [List.cons_append, magnitude?_of_digit digit, ← List.cons_append, reads]
  rfl

end

end StackLang.Numeral
