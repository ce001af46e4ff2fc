import StackLang.Proofs.Checking.Faults
import StackLang.Proofs.Completeness.Judgement
import StackLang.Proofs.Lexeme.Spelling
import StackLang.Proofs.Machine.Instructions
import StackLang.Proofs.Numeral.Conversion

/-!
# Values of literals

A literal of a source keeps its value up to the stack of the machine, or is reported.  Only
an integer with an exponent may come out as a neighbour, since it is read as a double.
-/

namespace StackLang

open Lexeme Numeral

/-! ### Numbers that bytecode writes -/

theorem toInt_ofNat {number : Nat} (small : number < 2 ^ 63) :
    (Int64.ofNat number).toInt = number := by
  rw [← Int64.ofInt_eq_ofNat]
  exact Int64.toInt_ofInt_of_le (by omega) (by omega)

/-- What has a letter in it writes no integer. -/
theorem int64?_of_letter {text : String} {letter : Char} (unsigned : Unsigned text.toList)
    (member : letter ∈ text.toList) (noDigit : letter.isDigit = false) : int64? text = none := by
  have nothing : natural? 10 text.toList = none := by
    cases read : natural? 10 text.toList with
    | none => rfl
    | some number =>
        rw [(digits_of_natural? read).2 letter member] at noDigit
        contradiction
  rw [int64?, int64OfRadix?, unsigned.integer?, nothing]
  rfl

/-- A number in another radix is written in decimal if it fits. -/
theorem radixText_eq {value : String} {markSize radix : Nat} {digits : List Char}
    (dropped : Text.dropBytes markSize value.toList = digits) (admitted : Admitted radix digits) :
    radixText value markSize radix =
      if numeralValue radix digits < 2 ^ 63 then toString (numeralValue radix digits) else value := by
  have chars : (String.ofList digits).toList = digits := String.toList_ofList
  have reads := (chars.symm ▸ admitted).int64OfRadix?
  rw [chars] at reads
  rw [radixText, dropped, reads]
  by_cases small : numeralValue radix digits < 2 ^ 63
  · simp only [if_pos small, int64Text, toInt_ofNat small]
    rfl
  · simp only [if_neg small]

/-- The spelling in bytecode is read as the number of the source, if it fits. -/
theorem int64?_radixText {value : String} {markSize radix : Nat} {digits : List Char}
    (dropped : Text.dropBytes markSize value.toList = digits) (admitted : Admitted radix digits)
    (overflow : 2 ^ 63 ≤ numeralValue radix digits → int64? value = none) :
    int64? (radixText value markSize radix) =
      if numeralValue radix digits < 2 ^ 63 then some (Int64.ofNat (numeralValue radix digits))
      else none := by
  rw [radixText_eq dropped admitted]
  by_cases small : numeralValue radix digits < 2 ^ 63
  · rw [if_pos small, if_pos small, int64?_toString_nat small]
  · rw [if_neg small, if_neg small, overflow (Nat.le_of_not_lt small)]

/-- A number behind the mark of its radix. -/
theorem int64?_marked {value : String} {marks back : List Char} {mark : Char} {radix : Nat}
    (marked : mark ∈ marks) (letters : ∀ letter ∈ marks, letter.utf8Size = 1 ∧ letter.isDigit = false)
    (chars : value.toList = '0' :: mark :: back) (admitted : Admitted radix back) :
    int64? (radixText value 2 radix) =
      if numeralValue radix back < 2 ^ 63 then some (Int64.ofNat (numeralValue radix back))
      else none := by
  obtain ⟨size, noDigit⟩ := letters mark marked
  have dropped : Text.dropBytes 2 value.toList = back := by
    have zero : '0'.utf8Size = 1 := rfl
    simp [chars, Text.dropBytes, zero, size]
  have unsigned : Unsigned value.toList := by
    rw [chars]
    rintro first ⟨⟩
    rfl
  have member : mark ∈ value.toList := by
    rw [chars]
    exact List.mem_cons_of_mem _ List.mem_cons_self
  exact int64?_radixText dropped admitted fun _ => int64?_of_letter unsigned member noDigit

/-- Every literal without an exponent is written in bytecode as a decimal numeral of its value,
or as a text that is no integer. -/
theorem Lexeme.Recognised.int64?_literalText {token : Token} (recognised : Recognised token)
    {radix : Nat} {digits : List Char} (known : token.digits? = some (radix, digits)) :
    int64? token.literalText =
      if numeralValue radix digits < 2 ^ 63 then some (Int64.ofNat (numeralValue radix digits))
      else none := by
  rw [Token.digits?] at known
  rw [Token.literalText]
  cases kind : token.kind with
  | hexadecimal =>
      obtain ⟨mark, marked, back, chars, admitted⟩ := recognised.hexadecimal kind
      simp only [kind, chars, List.drop_succ_cons, List.drop_zero, Option.some_inj, Prod.mk.injEq] at known
      obtain ⟨rfl, rfl⟩ := known
      have letters : ∀ letter ∈ ['x', 'X'], letter.utf8Size = 1 ∧ letter.isDigit = false :=
        List.forall_mem_cons.mpr ⟨by decide, List.forall_mem_singleton.mpr (by decide)⟩
      exact int64?_marked marked letters chars admitted
  | binary =>
      obtain ⟨mark, marked, back, chars, admitted⟩ := recognised.binary kind
      simp only [kind, chars, List.drop_succ_cons, List.drop_zero, Option.some_inj, Prod.mk.injEq] at known
      obtain ⟨rfl, rfl⟩ := known
      have letters : ∀ letter ∈ ['b', 'B'], letter.utf8Size = 1 ∧ letter.isDigit = false :=
        List.forall_mem_cons.mpr ⟨by decide, List.forall_mem_singleton.mpr (by decide)⟩
      exact int64?_marked marked letters chars admitted
  | octal =>
      have admitted := recognised.octal kind
      simp only [kind, Option.some_inj, Prod.mk.injEq] at known
      obtain ⟨rfl, rfl⟩ := known
      refine int64?_radixText (by rw [Text.dropBytes]) admitted fun large => ?_
      rw [int64?, (admitted.mono (by decide : 8 ≤ 10)).int64OfRadix?, if_neg]
      exact Nat.not_lt.mpr (Nat.le_trans large (numeralValue_mono (by decide) _))
  | integer =>
      simp only [kind] at known ⊢
      split at known
      · contradiction
      · next noMark =>
          simp only [Option.some_inj, Prod.mk.injEq] at known
          obtain ⟨rfl, rfl⟩ := known
          rw [if_neg noMark]
          rcases recognised.integer kind with digits | ⟨front, mark, sign, back, _, exponent, chars⟩
          · exact (admitted_of_digits digits.nonempty digits.digits).int64OfRadix?
          · refine absurd (List.any_eq_true.mpr ⟨mark, ?_, exponent.mark⟩) noMark
            rw [chars]
            exact List.mem_append_right _ List.mem_cons_self
  | float | char | string | identifier | keyword | operator | delimiter | error =>
      simp [kind] at known

/-! ### From the source to the machine -/

/-- Where an operand is read, the token is read as a literal, and checking that literal
reports the faults, whatever is known. -/
structure Token.Reports (token : Token) (faults : List SemanticError) : Prop where
  read : ∀ (nested : Reading Expr) (rest : List Token),
    Reading.Takes (Reading.primary nested) [token] rest (· = .literal token)
  checked : ∀ analyzer : Analyzer,
    Analysis.Diagnoses analyzer (Expr.literal token).check token.literalType? faults

/-- The instruction that the literal is compiled to is read back from its line, and then it
pushes the value. -/
def Token.Pushes (token : Token) (value : Value) : Prop :=
  ∃ instruction, Instruction.ofText (Instruction.literal token.literalText).text = .ok instruction ∧
    ∀ (size : Nat) (state : MachineState),
      state.execute size instruction = .ok (.next, state.push value)

/-- A literal in the range of the machine arrives there as its number, and any other one is
reported once. -/
def Token.KeepsValue (token : Token) (number : Nat) : Prop :=
  if number ≤ 2 ^ 63 - 1 then
    token.Reports [] ∧ ∃ value : Int64, value.toInt = number ∧
      Value.ofLiteral token.literalText = .int value ∧ token.Pushes (.int value)
  else token.Reports [.integerOutOfRange token.value token.line]

section

open Reading

variable {token : Token}

/-- A literal is read as such where an operand is read. -/
theorem takes_literal (denotes : token.isLiteral = true) (nested : Reading Expr)
    (rest : List Token) : Takes (primary nested) [token] rest (· = .literal token) := by
  have opens : Terminal.Opens [.literal] ([token] ++ rest) :=
    Expr.opens_of_mem (List.mem_singleton_self _) denotes
  refine .rule (.expect (opens.mono (by decide)) ?_)
  refine .declined opens (by decide) (.no asks_seesIdentifier opens (by decide) ?_)
  refine .after (.take _) ?_
  rintro _ rfl
  have cut : Takes (cutMark token) [] rest anything := fun _ position => ⟨trivial, position, rfl⟩
  exact cut.before fun _ _ => .pure rfl

theorem reports_literal (denotes : token.isLiteral = true) :
    token.Reports (if token.isOutOfRange then [.integerOutOfRange token.value token.line] else []) := by
  refine ⟨takes_literal denotes, fun analyzer => ?_⟩
  rw [Expr.check]
  exact .lastIf (token.isOutOfRange = true) _ token.literalType?

theorem Lexeme.Recognised.pushes (recognised : Recognised token) (denotes : token.isLiteral = true) :
    token.Pushes (Value.ofLiteral token.literalText) := by
  have writable : (Instruction.literal token.literalText).Writable :=
    ⟨recognised.carried denotes, .inl rfl⟩
  exact ⟨_, Instruction.ofText_text writable, fun _ _ => rfl⟩

/-- What a literal of a whole number comes to, by what its spelling in bytecode is read as. -/
theorem Lexeme.Recognised.keepsValue {number : Nat} (recognised : Recognised token)
    (whole : token.kind.isWhole = true)
    (reads : int64? token.literalText =
      if number < 2 ^ 63 then some (Int64.ofNat number) else none) : token.KeepsValue number := by
  have typed : token.literalType? = some .int := by
    rw [Token.literalType?]
    cases kind : token.kind <;> rw [kind] at whole <;> first | rfl | contradiction
  have denotes : token.isLiteral = true := by
    rw [Token.isLiteral]
    cases kind : token.kind <;> rw [kind] at whole <;> first | rfl | contradiction
  have reported := reports_literal denotes
  rw [Token.isOutOfRange, typed, reads] at reported
  by_cases small : number < 2 ^ 63
  · rw [if_pos small] at reads reported
    have value := Value.ofLiteral_int reads (recognised.literalText_unsigned whole)
    rw [Token.KeepsValue, if_pos (Nat.le_sub_one_of_lt small)]
    exact ⟨reported, _, toInt_ofNat small, value, value ▸ recognised.pushes denotes⟩
  · rw [if_neg small] at reported
    rw [Token.KeepsValue, if_neg (fun fits => small (Nat.lt_of_le_sub_one (by decide) fits))]
    exact reported

end

/-- Literals keep their value from the source to the machine.  A number in any radix arrives as
the integer that its digits write if that fits into 64 bits and is reported once otherwise; a
string and a char arrive as what stands between their quotes. -/
theorem literal_keeps_value {source : String} {token : Token} (scanned : token ∈ tokenize source) :
    (∀ radix digits, token.digits? = some (radix, digits) →
      token.KeepsValue (numeralValue radix digits)) ∧
    (token.kind = .string → ∃ content, token.value.toList = '"' :: (content ++ ['"']) ∧
      token.Pushes (.string (String.ofList content))) ∧
    (token.kind = .char → ∃ letter, token.value.toList = ['\'', letter, '\''] ∧
      token.Pushes (.char letter)) := by
  have recognised := tokenize_recognised source token scanned
  refine ⟨?_, ?_, ?_⟩
  · intro radix digits known
    apply recognised.keepsValue _ (recognised.int64?_literalText known)
    rw [Token.digits?] at known
    cases kind : token.kind <;> rw [kind] at known <;> first | rfl | contradiction
  · intro kind
    obtain ⟨content, chars⟩ := recognised.string kind
    have pushed := recognised.pushes (by rw [Token.isLiteral, kind]; rfl)
    rw [Token.literalText, kind, Value.ofLiteral_string chars] at pushed
    exact ⟨content, chars, pushed⟩
  · intro kind
    obtain ⟨letter, chars⟩ := recognised.char kind
    have pushed := recognised.pushes (by rw [Token.isLiteral, kind]; rfl)
    rw [Token.literalText, kind, Value.ofLiteral_char chars] at pushed
    exact ⟨letter, chars, pushed⟩

/-- A hexadecimal literal arrives as its number. -/
theorem literal_keeps_value_hexadecimal :
    (⟨"0x1F", .hexadecimal, 1⟩ : Token) ∈ tokenize "x = 0x1F;" ∧
      (⟨"0x1F", .hexadecimal, 1⟩ : Token).KeepsValue 31 := by
  have scanned : (⟨"0x1F", .hexadecimal, 1⟩ : Token) ∈ tokenize "x = 0x1F;" := by decide +kernel
  exact ⟨scanned, (literal_keeps_value scanned).1 16 ['1', 'F'] (by decide +kernel)⟩

/-! ### Integers with an exponent -/

section

variable {digits exponent : List Char} {mark : Char}

/-- The parts of an integer with an exponent that has no sign. -/
theorem Lexeme.Recognised.exponent_parts {token : Token} (recognised : Recognised token)
    (kind : token.kind = .integer) (chars : token.value.toList = digits ++ mark :: exponent)
    (isMark : mark = 'e' ∨ mark = 'E') (front : AllDigits digits) (back : AllDigits exponent) :
    digits ≠ [] ∧ exponent ≠ [] := by
  have noDigit {letter : Char} (marks : letter = 'e' ∨ letter = 'E') (rest : List Char) :
      (letter :: rest).takeWhile Char.isDigit = [] := by
    rcases marks with rfl | rfl
    · rfl
    · rfl
  have split := takeWhile_digits front (mark :: exponent) (noDigit isMark exponent)
  rcases recognised.integer kind with plain | ⟨whole, letter, sign, power, number, tail, spelled⟩
  · have letter := plain.digits mark (chars ▸ List.mem_append_right _ List.mem_cons_self)
    rcases isMark with rfl | rfl <;> contradiction
  · have marked : letter = 'e' ∨ letter = 'E' := by simpa [isExponentMark] using tail.mark
    have parts := takeWhile_digits number.digits (letter :: (sign ++ power)) (noDigit marked _)
    rw [← chars, spelled, parts.1, parts.2] at split
    obtain ⟨rfl, behind⟩ := split
    obtain ⟨-, rfl⟩ := List.cons.inj behind
    exact ⟨number.nonempty, List.append_ne_nil_of_right_ne_nil _ tail.digits.nonempty⟩

/-- An integer with an exponent is written in bytecode as the nearest double. -/
theorem exponentText_eq {value : String} (chars : value.toList = digits ++ mark :: exponent)
    (whole : digits ≠ []) (wholeDigits : AllDigits digits) (isMark : mark = 'e' ∨ mark = 'E')
    (power : exponent ≠ []) (powerDigits : AllDigits exponent) :
    exponentText value =
      if nearest (numeralValue 10 digits * 10 ^ numeralValue 10 exponent) < 2 ^ 63 then
        toString (nearest (numeralValue 10 digits * 10 ^ numeralValue 10 exponent))
      else value := by
  have noMinus : value.toList.head? ≠ some '-' := by
    obtain ⟨first, rest, rfl⟩ := List.exists_cons_of_ne_nil whole
    rw [chars, List.cons_append, List.head?_cons]
    intro minus
    exact (not_sign_of_isDigit (wholeDigits first List.mem_cons_self)).2 (Option.some.inj minus)
  have larger {size : Nat} (more : 63 ≤ size) : 2 ^ 63 ≤ 2 ^ size :=
    Nat.pow_le_pow_right (by decide) more
  have smaller := larger (by decide : 63 ≤ 1024)
  rw [exponentText, float?_exponent chars whole wholeDigits isMark power powerDigits,
    Option.bind_some, truncated?_toFloat]
  generalize nearest (numeralValue 10 digits * 10 ^ numeralValue 10 exponent) = rounded
  by_cases finite : rounded < 2 ^ 1024
  · rw [if_pos finite]
    dsimp only
    rw [Int.natAbs_natCast, Nat.pow_eq, if_neg noMinus]
  · rw [if_neg finite, if_neg (fun small => finite (Nat.lt_of_lt_of_le small smaller))]

/-- An integer with an exponent arrives as the double nearest to its number if that double is
below `2 ^ 63`, and is reported otherwise.  So a number of at most 53 binary digits before the
zeros at its end is exact, and every number that does not fit is reported. -/
theorem exponent_rounded {source : String} {token : Token} (scanned : token ∈ tokenize source)
    (kind : token.kind = .integer) (spelled : token.value.toList = digits ++ mark :: exponent)
    (isMark : mark = 'e' ∨ mark = 'E') (front : AllDigits digits) (back : AllDigits exponent) :
    (token.literalText =
        if nearest (numeralValue 10 digits * 10 ^ numeralValue 10 exponent) < 2 ^ 63 then
          toString (nearest (numeralValue 10 digits * 10 ^ numeralValue 10 exponent))
        else token.value) ∧
      token.KeepsValue (nearest (numeralValue 10 digits * 10 ^ numeralValue 10 exponent)) ∧
      (2 ^ 63 ≤ numeralValue 10 digits * 10 ^ numeralValue 10 exponent →
        token.Reports [.integerOutOfRange token.value token.line]) ∧
      (HasRoom (numeralValue 10 digits * 10 ^ numeralValue 10 exponent) →
        nearest (numeralValue 10 digits * 10 ^ numeralValue 10 exponent) =
          numeralValue 10 digits * 10 ^ numeralValue 10 exponent) := by
  have recognised := tokenize_recognised source token scanned
  obtain ⟨whole, power⟩ := recognised.exponent_parts kind spelled isMark front back
  have marked : token.value.toList.any (fun char => char == 'e' || char == 'E') = true := by
    refine List.any_eq_true.mpr ⟨mark, ?_, by simpa using isMark⟩
    rw [spelled]
    exact List.mem_append_right _ List.mem_cons_self
  have text : token.literalText = exponentText token.value := by
    rw [Token.literalText, kind]
    exact if_pos marked
  have rounded := exponentText_eq spelled whole front isMark power back
  have letter : mark ∈ token.value.toList ∧ mark.isDigit = false := by
    refine ⟨spelled ▸ List.mem_append_right _ List.mem_cons_self, ?_⟩
    rcases isMark with rfl | rfl <;> rfl
  have unsigned : Unsigned token.value.toList := by
    have digits : Digits digits := ⟨whole, front⟩
    exact spelled ▸ digits.unsigned _
  have reads : int64? token.literalText =
      if nearest (numeralValue 10 digits * 10 ^ numeralValue 10 exponent) < 2 ^ 63 then
        some (Int64.ofNat (nearest (numeralValue 10 digits * 10 ^ numeralValue 10 exponent)))
      else none := by
    rw [text, rounded]
    split
    · next small => exact int64?_toString_nat small
    · exact int64?_of_letter unsigned letter.1 letter.2
  have kept := recognised.keepsValue (by rw [kind]; rfl) reads
  refine ⟨text.trans rounded, kept, fun large => ?_, nearest_of_hasRoom⟩
  have beyond := two_pow_le_nearest large
  rwa [Token.KeepsValue, if_neg (by omega)] at kept

/-- A short number with an exponent is exact. -/
theorem exponent_rounded_short :
    (⟨"2e3", .integer, 1⟩ : Token) ∈ tokenize "x = 2e3;" ∧
      (⟨"2e3", .integer, 1⟩ : Token).literalText = "2000" ∧
      (⟨"2e3", .integer, 1⟩ : Token).KeepsValue 2000 := by
  have scanned : (⟨"2e3", .integer, 1⟩ : Token) ∈ tokenize "x = 2e3;" := by decide +kernel
  have spelled : (⟨"2e3", .integer, 1⟩ : Token).value.toList = ['2'] ++ 'e' :: ['3'] := by
    decide +kernel
  have rounded := exponent_rounded scanned rfl spelled (.inl rfl) (by simp [AllDigits])
    (by simp [AllDigits])
  have value : numeralValue 10 ['2'] * 10 ^ numeralValue 10 ['3'] = 2000 := by decide
  have exactly := rounded.2.2.2 (value ▸ hasRoom_of_le (by decide))
  rw [exactly, value] at rounded
  exact ⟨scanned, rounded.1, rounded.2.1⟩

/-- A number that fits into 64 bits may arrive as a neighbour, or be reported although it fits. -/
theorem not_exponent_exact :
    ((⟨"9007199254740993e1", .integer, 1⟩ : Token) ∈ tokenize "x = 9007199254740993e1;" ∧
      9007199254740993 * 10 ^ 1 ≤ 2 ^ 63 - 1 ∧
      (⟨"9007199254740993e1", .integer, 1⟩ : Token).literalText = "90071992547409936" ∧
      toString (9007199254740993 * 10 ^ 1) = "90071992547409930") ∧
    (⟨"922337203685477580e1", .integer, 1⟩ : Token) ∈ tokenize "x = 922337203685477580e1;" ∧
      922337203685477580 * 10 ^ 1 ≤ 2 ^ 63 - 1 ∧
      (⟨"922337203685477580e1", .integer, 1⟩ : Token).Reports
        [.integerOutOfRange "922337203685477580e1" 1] := by
  have outOfRange : (⟨"922337203685477580e1", .integer, 1⟩ : Token).isOutOfRange = true := by
    decide +kernel
  have reported := reports_literal (rfl : (⟨"922337203685477580e1", .integer, 1⟩ : Token).isLiteral = true)
  rw [if_pos outOfRange] at reported
  exact ⟨by decide +kernel, by decide +kernel, by decide, reported⟩

end

end StackLang
