import StackLang.Proofs.Loading.Operands
import StackLang.Proofs.Numeral.FloatReading
import StackLang.Proofs.Reading.Primitives
import StackLang.Proofs.Typing.Value

/-!
# Types of literals

The machine takes the spelling of a literal for a value of the type that the checker
gives to the literal, unless an integer is out of range.
-/

namespace StackLang

namespace Numeral

theorem isDigit_of_digit? {char : Char} {digit : Nat} (read : digit? 10 char = some digit) :
    char.isDigit = true := by
  obtain ⟨value, small⟩ := Option.filter_eq_some_iff.mp read
  have small : digit < 10 := by simpa using small
  rw [digitValue?] at value
  split at value
  · next decimal => simpa [Char.isDigit, Char.le_def] using decimal
  · repeat' split at value
    · obtain rfl := Option.some.inj value
      omega
    · obtain rfl := Option.some.inj value
      omega
    · contradiction

theorem allDigits_of_extend? {chars : List Char} {value number : Nat}
    (read : extend? 10 value chars = some number) : AllDigits chars := by
  intro char member
  obtain ⟨digit, value⟩ := Option.isSome_iff_exists.mp (isSome_digit?_of_extend? read char member)
  exact isDigit_of_digit? value

/-- The text of a natural number is made of digits. -/
theorem digits_of_natural? {chars : List Char} {number : Nat}
    (read : natural? 10 chars = some number) : chars ≠ [] ∧ AllDigits chars := by
  rw [natural?] at read
  split at read
  · contradiction
  · next present =>
      constructor
      · rintro rfl
        exact present rfl
      · exact allDigits_of_extend? read

end Numeral

namespace Lexeme

/-- The first character is a digit or a letter, not a sign. -/
def Unsigned (chars : List Char) : Prop := ∀ first ∈ chars.head?, isAlphanumeric first = true

variable {chars front back : List Char}

theorem Unsigned.of_all (all : ∀ char ∈ chars, isAlphanumeric char = true) : Unsigned chars :=
  fun first member => all first (List.mem_of_mem_head? member)

theorem Digits.unsigned (digits : Digits front) (back : List Char) : Unsigned (front ++ back) := by
  obtain ⟨char, rest, rfl⟩ := List.exists_cons_of_ne_nil digits.nonempty
  rintro first ⟨⟩
  exact isAlphanumeric_of_isDigit (digits.digits char List.mem_cons_self)

theorem Digits.unsigned_self (digits : Digits chars) : Unsigned chars := by
  have unsigned := digits.unsigned []
  rwa [List.append_nil] at unsigned

theorem unsigned_toString (number : Nat) : Unsigned (toString number).toList := by
  rw [Numeral.toList_toString]
  exact .of_all fun char member =>
    isAlphanumeric_of_isDigit (Numeral.toDigits_isDigit number char member)

/-- What has no sign is read as a natural number. -/
theorem Unsigned.integer? (unsigned : Unsigned chars) (radix : Nat) :
    Numeral.integer? radix chars = (Numeral.natural? radix chars).map Int.ofNat := by
  unfold Numeral.integer?
  split
  · exact absurd (unsigned '+' rfl) (by decide)
  · exact absurd (unsigned '-' rfl) (by decide)
  · rfl

/-- The characters of a literal of a whole number. -/
theorem State.Shape.unsigned {state : State} {kind : TokenKind} (shape : state.Shape chars)
    (accepts : state.kind? = some kind)
    (whole : kind ∈ [TokenKind.integer, .hexadecimal, .binary, .octal]) : Unsigned chars := by
  cases state with
  | zero | decimal | octal => exact Digits.unsigned_self shape
  | binary | hex => exact .of_all shape
  | integerExponentDigits =>
      obtain ⟨front, mark, sign, digits, first, exponent, rfl⟩ := shape
      exact first.unsigned _
  | identifier | stringEnd | charEnd | point | fraction | floatExponentDigits | floatSuffix =>
      obtain rfl := Option.some.inj accepts
      exact absurd whole (by decide)
  | _ => exact absurd accepts (by simp [State.kind?])

/-- The characters of a literal in another radix. -/
theorem State.Shape.alphanumeric {state : State} {kind : TokenKind} (shape : state.Shape chars)
    (accepts : state.kind? = some kind) (radix : kind ∈ [TokenKind.hexadecimal, .binary, .octal]) :
    ∀ char ∈ chars, isAlphanumeric char = true := by
  cases state with
  | octal =>
      have digits : Digits chars := shape
      exact fun char member => isAlphanumeric_of_isDigit (digits.digits char member)
  | binary | hex => exact shape
  | zero | decimal | integerExponentDigits | identifier | stringEnd | charEnd | point | fraction
    | floatExponentDigits | floatSuffix =>
      obtain rfl := Option.some.inj accepts
      exact absurd radix (by decide)
  | _ => exact absurd accepts (by simp [State.kind?])

/-! ### Numbers with a fraction -/

theorem Exponent.endsNumber {mark : Char} {sign digits : List Char}
    (exponent : Exponent mark sign digits) : Numeral.EndsNumber (mark :: (sign ++ digits)) := by
  have marked := exponent.mark
  simp only [isExponentMark, Bool.or_eq_true, beq_iff_eq] at marked
  apply Numeral.EndsNumber.exponentPart marked
  have nonempty := exponent.digits.nonempty
  rcases exponent.sign with rfl | rfl
  · rw [List.nil_append, Numeral.integer?_of_digits nonempty exponent.digits.digits]
    rfl
  · rw [List.singleton_append, Numeral.integer?,
      Numeral.natural?_of_digits nonempty exponent.digits.digits]
    rfl

/-- A number before its last mark. -/
def Decimal (chars : List Char) : Prop := Digits chars ∨ Fractional chars

theorem Decimal.reads (decimal : Decimal chars) : (Numeral.decimal? chars).isSome := by
  rcases decimal with digits | ⟨whole, fraction, digits, more, rfl⟩ |
    ⟨_, mark, sign, exponents, ⟨whole, fraction, digits, more, rfl⟩, exponent, rfl⟩
  · exact Numeral.decimal?_whole digits.nonempty digits.digits
  · have reads := Numeral.decimal?_pointed digits.nonempty digits.digits more .nothing
    rwa [List.append_nil] at reads
  · have reads := Numeral.decimal?_pointed digits.nonempty digits.digits more exponent.endsNumber
    rwa [List.append_assoc, List.cons_append]

theorem Decimal.first (decimal : Decimal chars) :
    ∃ first rest, chars = first :: rest ∧ first.isDigit = true := by
  have digitsFirst {whole : List Char} (digits : Digits whole) (back : List Char) :
      ∃ first rest, whole ++ back = first :: rest ∧ first.isDigit = true := by
    obtain ⟨first, rest, rfl⟩ := List.exists_cons_of_ne_nil digits.nonempty
    exact ⟨first, rest ++ back, rfl, digits.digits first List.mem_cons_self⟩
  rcases decimal with digits | ⟨whole, fraction, digits, more, rfl⟩ |
    ⟨_, mark, sign, exponents, ⟨whole, fraction, digits, more, rfl⟩, exponent, rfl⟩
  · have found := digitsFirst digits []
    rwa [List.append_nil] at found
  · exact digitsFirst digits _
  · rw [List.append_assoc]
    exact digitsFirst digits _

theorem isFloatMark_of_isDigit {char : Char} (digit : char.isDigit = true) :
    isFloatMark char = false := by
  apply Bool.eq_false_iff.mpr
  intro marked
  simp only [isFloatMark, Bool.or_eq_true, beq_iff_eq] at marked
  rcases marked with rfl | rfl
  · exact absurd digit (by decide)
  · exact absurd digit (by decide)

/-- The mark of a floating point number stands behind its end. -/
theorem Decimal.last (decimal : Decimal chars) :
    ∀ last ∈ chars.getLast?, isFloatMark last = false := by
  have inBack {front back : List Char} (nonempty : back ≠ []) :
      ∀ last ∈ (front ++ back).getLast?, last ∈ back := by
    intro last member
    rw [List.getLast?_append, List.getLast?_eq_some_getLast nonempty] at member
    exact Option.some.inj member ▸ List.getLast_mem nonempty
  intro last member
  rcases decimal with digits | ⟨whole, fraction, digits, more, rfl⟩ |
    ⟨front, mark, sign, exponents, _, exponent, rfl⟩
  · exact isFloatMark_of_isDigit (digits.digits last (List.mem_of_getLast? member))
  · rcases List.mem_cons.mp (inBack (List.cons_ne_nil _ _) last member) with rfl | behind
    · rfl
    · exact isFloatMark_of_isDigit (more last behind)
  · rw [← List.cons_append, ← List.append_assoc] at member
    exact isFloatMark_of_isDigit
      (exponent.digits.digits last (inBack exponent.digits.nonempty last member))

/-- The characters of a literal with a fraction or a mark. -/
theorem State.Shape.decimal {state : State} (shape : state.Shape chars)
    (accepts : state.kind? = some .float) :
    ∃ front marks, Decimal front ∧ (∀ mark ∈ marks, isFloatMark mark = true) ∧
      chars = front ++ marks := by
  cases state with
  | point | fraction => exact ⟨chars, [], .inr (.inl shape), nofun, (List.append_nil _).symm⟩
  | floatExponentDigits => exact ⟨chars, [], .inr (.inr shape), nofun, (List.append_nil _).symm⟩
  | floatSuffix =>
      obtain ⟨front, mark, number, marked, rfl⟩ := shape
      exact ⟨front, [mark], number, by simpa using marked, rfl⟩
  | _ => exact absurd accepts (by decide)

end Lexeme

/-! ### What the machine makes of a spelling -/

namespace Value

open Lexeme

variable {text : String}

theorem ne_word {word : String} {first : Char} (begins : word.toList.head? = some first)
    (other : first ∉ text.toList.head?) : text ≠ word := by
  rintro rfl
  exact other begins

/-- Digits in the range of the machine. -/
theorem ofLiteral_int {number : Int64} (reads : Numeral.int64? text = some number)
    (unsigned : Unsigned text.toList) : ofLiteral text = .int number := by
  obtain ⟨natural, read⟩ : ∃ natural, Numeral.natural? 10 text.toList = some natural := by
    rw [Numeral.int64?, Numeral.int64OfRadix?, unsigned.integer?] at reads
    cases found : Numeral.natural? 10 text.toList with
    | none =>
        rw [found] at reads
        contradiction
    | some natural => exact ⟨natural, rfl⟩
  obtain ⟨nonempty, digits⟩ := Numeral.digits_of_natural? read
  have noLetter (letter : Char) (isLetter : letter.isDigit = false) :
      letter ∉ text.toList.head? := by
    intro first
    rw [digits letter (List.mem_of_mem_head? first)] at isLetter
    contradiction
  have allDigits : (!text.toList.isEmpty && text.toList.all Char.isDigit) = true := by
    rw [Bool.and_eq_true, Bool.not_eq_true', List.isEmpty_eq_false_iff, List.all_eq_true]
    exact ⟨nonempty, digits⟩
  unfold ofLiteral
  dsimp only
  rw [if_neg (ne_word rfl (noLetter 't' rfl)),
    if_neg (ne_word rfl (noLetter 'f' rfl)), if_pos allDigits, reads]

/-- Neither a truth value nor digits alone. -/
structure Other (text : String) : Prop where
  truth : 't' ∉ text.toList.head?
  falsehood : 'f' ∉ text.toList.head?
  broken : ∃ char ∈ text.toList, char.isDigit = false

theorem Other.ofLiteral (other : Other text) :
    ofLiteral text =
      match unquoted? '"' text.toList with
      | some inner => .string (String.ofList inner)
      | none =>
          match unquoted? '\'' text.toList with
          | some inner => .char (inner.head?.getD '\x00')
          | none => floatOrString text := by
  have someOther : ¬ (!text.toList.isEmpty && text.toList.all Char.isDigit) = true := by
    obtain ⟨char, member, noDigit⟩ := other.broken
    rw [Bool.and_eq_true, List.all_eq_true]
    rintro ⟨-, digits⟩
    rw [digits char member] at noDigit
    contradiction
  unfold Value.ofLiteral
  dsimp only
  rw [if_neg (ne_word rfl other.truth), if_neg (ne_word rfl other.falsehood)]
  exact if_neg someOther

theorem other_of_quote {quote : Char} {rest : List Char} (chars : text.toList = quote :: rest)
    (isQuote : quote = '"' ∨ quote = '\'') : Other text := by
  constructor
  · rw [chars, List.head?_cons, Option.mem_some_iff]
    rcases isQuote with rfl | rfl <;> decide
  · rw [chars, List.head?_cons, Option.mem_some_iff]
    rcases isQuote with rfl | rfl <;> decide
  · refine ⟨quote, chars ▸ List.mem_cons_self, ?_⟩
    rcases isQuote with rfl | rfl <;> rfl

theorem ofLiteral_string {body : List Char} (chars : text.toList = '"' :: (body ++ ['"'])) :
    ofLiteral text = .string (String.ofList body) := by
  have inner : unquoted? '"' ('"' :: (body ++ ['"'])) = some body := by simp [unquoted?]
  rw [(other_of_quote chars (.inl rfl)).ofLiteral, chars, inner]

theorem ofLiteral_char {letter : Char} (chars : text.toList = ['\'', letter, '\'']) :
    ofLiteral text = .char letter := by
  have noString : unquoted? '"' ['\'', letter, '\''] = none := by simp [unquoted?]
  have inner : unquoted? '\'' ['\'', letter, '\''] = some [letter] := by simp [unquoted?]
  rw [(other_of_quote chars (.inr rfl)).ofLiteral, chars, noString, inner]
  rfl

theorem unquoted?_of_first {quote : Char} {chars : List Char} (other : quote ∉ chars.head?) :
    unquoted? quote chars = none := by
  cases chars with
  | nil => rfl
  | cons first rest =>
      have differs : first ≠ quote := by
        rintro rfl
        exact other rfl
      rw [unquoted?, if_neg (by simp [differs])]

theorem ofLiteral_float (reads : (Numeral.float? text).isSome) (other : Other text)
    (noString : '"' ∉ text.toList.head?) (noChar : '\'' ∉ text.toList.head?) :
    ∃ number, ofLiteral text = .float number := by
  obtain ⟨number, read⟩ := Option.isSome_iff_exists.mp reads
  refine ⟨number, ?_⟩
  rw [other.ofLiteral, unquoted?_of_first noString, unquoted?_of_first noChar]
  simp only [floatOrString, read]

/-- A point behind digits, with a sign in front of a negative number. -/
theorem ofLiteral_pointed (negative : Bool) {whole fraction : List Char} (nonempty : whole ≠ [])
    (wholeDigits : Numeral.AllDigits whole) (fractionDigits : Numeral.AllDigits fraction)
    (chars : text.toList = whole ++ '.' :: fraction) :
    ∃ number, ofLiteral (Numeral.signText negative ++ text) = .float number := by
  obtain ⟨first, rest, rfl⟩ := List.exists_cons_of_ne_nil nonempty
  have digit := wholeDigits first List.mem_cons_self
  have decimal := Numeral.decimal?_pointed nonempty wholeDigits fractionDigits .nothing
  rw [List.append_nil] at decimal
  have reads := Numeral.float?_signText chars digit decimal negative
  have begins : ∀ char ∈ (Numeral.signText negative ++ text).toList.head?,
      char = '-' ∨ char.isDigit = true := by
    rw [String.toList_append, chars]
    cases negative with
    | true =>
        rintro char ⟨⟩
        exact .inl rfl
    | false =>
        rintro char ⟨⟩
        exact .inr digit
  have noOther {char : Char} (noSign : char ≠ '-') (noDigit : char.isDigit = false) :
      char ∉ (Numeral.signText negative ++ text).toList.head? := by
    intro member
    rcases begins char member with sign | digit
    · exact noSign sign
    · rw [digit] at noDigit
      contradiction
  have point : ∃ char ∈ (Numeral.signText negative ++ text).toList, char.isDigit = false :=
    ⟨'.', by simp [chars], rfl⟩
  exact ofLiteral_float reads
    ⟨noOther (by decide) rfl, noOther (by decide) rfl, point⟩
    (noOther (by decide) rfl) (noOther (by decide) rfl)

/-- The text of a floating point number is taken for such a number. -/
theorem ofLiteral_floatText (number : Numeral.Binary64) :
    ∃ read, ofLiteral number.text = .float read := by
  have oneZero : Numeral.AllDigits ['0'] := by simp [Numeral.AllDigits]
  cases number with
  | notANumber =>
      refine ofLiteral_float (by decide) ⟨by decide, by decide, 'N', by decide, rfl⟩ ?_ ?_
      · decide
      · decide
  | infinite negative =>
      cases negative
      all_goals
        refine ofLiteral_float (by decide) ⟨by decide, by decide, 'n', by decide, rfl⟩ ?_ ?_
      all_goals decide
  | zero negative => exact ofLiteral_pointed negative (List.cons_ne_nil _ _) oneZero oneZero rfl
  | finite negative mantissa exponent =>
      rw [Numeral.Binary64.text]
      split
      · rw [String.append_assoc]
        have digits := Numeral.toDigits_isDigit (Numeral.Binary64.wholePart mantissa exponent)
        refine ofLiteral_pointed negative Nat.toDigits_ne_nil digits oneZero ?_
        rw [String.toList_append, Numeral.toList_toString]
        rfl
      · next broken =>
          have fine := Numeral.shortest_place_neg (Bool.not_eq_true _ ▸ broken)
          obtain ⟨whole, fraction, nonempty, wholeDigits, fractionDigits, chars⟩ :=
            Numeral.positional_pointed (Numeral.shortest mantissa exponent).1 fine
          exact ofLiteral_pointed negative nonempty wholeDigits fractionDigits chars

end Value

/-! ### Literals of a source -/

section

open Lexeme

theorem Text.mem_of_mem_dropBytes {char : Char} {size : Nat} {chars : List Char}
    (member : char ∈ Text.dropBytes size chars) : char ∈ chars := by
  fun_induction Text.dropBytes size chars with
  | case1 => exact member
  | case2 => contradiction
  | case3 size first rest ih => exact List.mem_cons_of_mem first (ih member)

/-- A number in another radix has no sign when it is written in decimal. -/
theorem radixText_unsigned {value : String} (markSize radix : Nat)
    (all : ∀ char ∈ value.toList, isAlphanumeric char = true) :
    Unsigned (radixText value markSize radix).toList := by
  have dropped : Unsigned (Text.dropBytes markSize value.toList) :=
    .of_all fun char member => all char (Text.mem_of_mem_dropBytes member)
  rw [radixText]
  split
  · next number read =>
      rw [Numeral.int64OfRadix?, String.toList_ofList, dropped.integer?] at read
      cases found : Numeral.natural? radix (Text.dropBytes markSize value.toList) with
      | none =>
          rw [found] at read
          contradiction
      | some natural =>
          rw [found] at read
          dsimp only [Option.map_some] at read
          split at read
          · next fits =>
              obtain rfl := Option.some.inj read
              have same : (Int64.ofInt (Int.ofNat natural)).toInt = natural :=
                Int64.toInt_ofInt_of_le fits.1 fits.2
              rw [Numeral.int64Text, same]
              exact unsigned_toString natural
          · contradiction
  · exact .of_all all

theorem exponentText_unsigned {value : String} (unsigned : Unsigned value.toList) :
    Unsigned (exponentText value).toList := by
  have noMinus : value.toList.head? ≠ some '-' :=
    fun minus => absurd (unsigned '-' minus) (by decide)
  rw [exponentText]
  split
  · next whole _ =>
      dsimp only
      rw [if_neg noMinus]
      split
      · exact unsigned_toString _
      · exact unsigned
  · exact unsigned

/-- The marks at the end of a floating point number do not count. -/
theorem floatLiteralText_float {value : String} {front marks : List Char}
    (decimal : Lexeme.Decimal front) (isMark : ∀ mark ∈ marks, isFloatMark mark = true)
    (chars : value.toList = front ++ marks) :
    ∃ number, Value.ofLiteral (floatLiteralText value) = .float number := by
  have stripped : (value.toList.reverse.dropWhile isFloatMark).reverse = front := by
    rw [chars, List.reverse_append, List.dropWhile_append_of_pos, Text.dropWhile_of_head,
      List.reverse_reverse]
    · rw [List.head?_reverse]
      exact decimal.last
    · exact fun mark member => isMark mark (List.mem_reverse.mp member)
  obtain ⟨first, rest, rfl, digit⟩ := decimal.first
  have reads : (Numeral.float? (String.ofList (first :: rest))).isSome :=
    Numeral.float?_of_decimal? (String.toList_ofList) digit decimal.reads
  obtain ⟨number, read⟩ := Option.isSome_iff_exists.mp reads
  have text : floatLiteralText value = Numeral.floatText number := by
    unfold floatLiteralText
    unfold isFloatMark at stripped
    simp only [stripped, read]
  rw [text]
  exact Value.ofLiteral_floatText _

/-- The kinds of literals of whole numbers. -/
def TokenKind.isWhole (kind : TokenKind) : Bool :=
  kind ∈ [TokenKind.integer, .hexadecimal, .binary, .octal]

theorem Lexeme.Recognised.literalText_unsigned {token : Token} (recognised : Recognised token)
    (whole : token.kind.isWhole = true) : Unsigned token.literalText.toList := by
  have noFixed : ∀ kind ∈ [TokenKind.operator, .delimiter, .error, .keyword],
      token.kind ≠ kind := by
    rintro kind member rfl
    revert whole member
    cases token.kind <;> decide
  obtain ⟨state, accepts, shape⟩ := recognised.state
    ⟨noFixed _ (by decide), noFixed _ (by decide)⟩ ⟨noFixed _ (by decide), noFixed _ (by decide)⟩
  have unsigned := shape.unsigned accepts (of_decide_eq_true whole)
  rw [Token.literalText]
  split
  · next kind => exact radixText_unsigned 2 16 (shape.alphanumeric accepts (by rw [kind]; decide))
  · next kind => exact radixText_unsigned 2 2 (shape.alphanumeric accepts (by rw [kind]; decide))
  · next kind => exact radixText_unsigned 0 8 (shape.alphanumeric accepts (by rw [kind]; decide))
  · split
    · exact exponentText_unsigned unsigned
    · exact unsigned
  · next kind =>
      rw [kind] at whole
      contradiction
  · exact unsigned

/-- A literal of a whole number in the range of the machine. -/
theorem Lexeme.Recognised.literal_int {token : Token} (recognised : Recognised token)
    (whole : token.kind.isWhole = true) (inRange : token.isOutOfRange = false) :
    token.literalType? = some .int ∧ ∃ number, Value.ofLiteral token.literalText = .int number := by
  have typed : token.literalType? = some .int := by
    rw [Token.literalType?]
    revert whole
    cases token.kind <;> first | exact fun _ => rfl | exact fun impossible => absurd impossible nofun
  refine ⟨typed, ?_⟩
  rw [Token.isOutOfRange, typed, beq_self_eq_true, Bool.true_and, Option.isNone_eq_false_iff] at inRange
  obtain ⟨number, reads⟩ := Option.isSome_iff_exists.mp inRange
  exact ⟨number, Value.ofLiteral_int reads (recognised.literalText_unsigned whole)⟩

/-- The machine takes a literal of a source for a value of its type. -/
theorem Lexeme.Recognised.literal_hasType {token : Token} {type : TypeName}
    (recognised : Recognised token) (typed : token.literalType? = some type)
    (inRange : token.isOutOfRange = false) :
    (Value.ofLiteral token.literalText).HasType type := by
  by_cases whole : token.kind.isWhole = true
  · obtain ⟨known, number, value⟩ := recognised.literal_int whole inRange
    rw [known] at typed
    obtain rfl := Option.some.inj typed
    rw [value]
    exact .int number
  have shaped (noMark : token.kind ≠ .operator ∧ token.kind ≠ .delimiter)
      (noWord : token.kind ≠ .error ∧ token.kind ≠ .keyword) := recognised.state noMark noWord
  cases kind : token.kind with
  | integer | hexadecimal | binary | octal =>
      rw [kind] at whole
      exact absurd rfl whole
  | float =>
      obtain ⟨state, accepts, shape⟩ := shaped (by simp [kind]) (by simp [kind])
      obtain ⟨front, marks, decimal, isMark, chars⟩ := shape.decimal (kind ▸ accepts)
      obtain ⟨number, value⟩ := floatLiteralText_float decimal isMark chars
      rw [Token.literalType?, kind] at typed
      obtain rfl := Option.some.inj typed
      rw [Token.literalText, kind, value]
      exact .float number
  | char =>
      obtain ⟨state, accepts, shape⟩ := shaped (by simp [kind]) (by simp [kind])
      rw [kind] at accepts
      cases state with
      | charEnd =>
          obtain ⟨letter, -, chars⟩ := shape
          rw [Token.literalType?, kind] at typed
          obtain rfl := Option.some.inj typed
          rw [Token.literalText, kind, Value.ofLiteral_char chars]
          exact .char letter
      | _ => exact absurd accepts (by decide)
  | string =>
      obtain ⟨state, accepts, shape⟩ := shaped (by simp [kind]) (by simp [kind])
      rw [kind] at accepts
      cases state with
      | stringEnd =>
          obtain ⟨body, -, chars⟩ := shape
          rw [Token.literalType?, kind] at typed
          obtain rfl := Option.some.inj typed
          rw [Token.literalText, kind, Value.ofLiteral_string chars]
          exact .string _
      | _ => exact absurd accepts (by decide)
  | identifier | keyword | operator | delimiter | error =>
      rw [Token.literalType?, kind] at typed
      rw [Token.literalText, kind]
      dsimp only at typed ⊢
      split at typed
      · next truth =>
          obtain rfl := Option.some.inj typed
          rcases Bool.or_eq_true_iff.mp truth with yes | no
          · rw [Reading.value_of_spells yes]
            exact .boolean true
          · rw [Reading.value_of_spells no]
            exact .boolean false
      · contradiction

end

end StackLang
