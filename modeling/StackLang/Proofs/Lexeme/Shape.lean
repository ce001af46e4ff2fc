import StackLang.Lexeme.State
import StackLang.Text.Blank

/-!
# Shapes of lexemes

What the characters read so far look like in every state.  The shapes are an
invariant of the transition function.
-/

namespace StackLang.Lexeme

/-- One or more decimal digits. -/
structure Digits (chars : List Char) : Prop where
  nonempty : chars ≠ []
  digits : ∀ char ∈ chars, char.isDigit = true

/-- Digits with a point, which further digits may follow. -/
def Pointed (chars : List Char) : Prop :=
  ∃ whole fraction, Digits whole ∧ (∀ char ∈ fraction, char.isDigit = true) ∧
    chars = whole ++ '.' :: fraction

/-- An exponent behind its mark. -/
structure Exponent (mark : Char) (sign digits : List Char) : Prop where
  mark : isExponentMark mark = true
  sign : sign = [] ∨ sign = ['-']
  digits : Digits digits

/-- A number with a point that may have an exponent. -/
def Fractional (chars : List Char) : Prop :=
  Pointed chars ∨ ∃ front mark sign digits, Pointed front ∧ Exponent mark sign digits ∧
    chars = front ++ mark :: (sign ++ digits)

/-- A character of a number in any radix. -/
def isAlphanumeric (char : Char) : Bool := char.isDigit || isNameStart char

namespace State

/-- What has been read in a state. -/
def Shape : State → List Char → Prop
  | .start, chars => chars = []
  | .zero, chars | .octal, chars | .decimal, chars => Digits chars
  | .identifier, chars =>
      ∃ first rest, isNameStart first = true ∧ (∀ char ∈ rest, isNamePart char = true) ∧
        chars = first :: rest
  | .binaryPrefix, chars | .binary, chars | .hexPrefix, chars | .hex, chars =>
      ∀ char ∈ chars, isAlphanumeric char = true
  | .stringBody, chars => ∃ body, (∀ char ∈ body, isPrintable char = true) ∧ chars = '"' :: body
  | .stringEnd, chars =>
      ∃ body, (∀ char ∈ body, isPrintable char = true) ∧ chars = '"' :: (body ++ ['"'])
  | .charOpen, chars => chars = ['\'']
  | .charBody, chars => ∃ char, isPrintable char = true ∧ chars = ['\'', char]
  | .charEnd, chars => ∃ char, isPrintable char = true ∧ chars = ['\'', char, '\'']
  | .point, chars | .fraction, chars => Pointed chars
  | .integerExponent, chars =>
      ∃ front mark, Digits front ∧ isExponentMark mark = true ∧ chars = front ++ [mark]
  | .integerExponentSign, chars =>
      ∃ front mark, Digits front ∧ isExponentMark mark = true ∧ chars = front ++ [mark, '-']
  | .integerExponentDigits, chars =>
      ∃ front mark sign digits, Digits front ∧ Exponent mark sign digits ∧
        chars = front ++ mark :: (sign ++ digits)
  | .floatExponent, chars =>
      ∃ front mark, Pointed front ∧ isExponentMark mark = true ∧ chars = front ++ [mark]
  | .floatExponentSign, chars =>
      ∃ front mark, Pointed front ∧ isExponentMark mark = true ∧ chars = front ++ [mark, '-']
  | .floatExponentDigits, chars =>
      ∃ front mark sign digits, Pointed front ∧ Exponent mark sign digits ∧
        chars = front ++ mark :: (sign ++ digits)
  | .floatSuffix, chars =>
      ∃ front mark, (Digits front ∨ Fractional front) ∧ isFloatMark mark = true ∧
        chars = front ++ [mark]

end State

theorem isDigit_of_between {low high char : Char} (within : low ≤ char ∧ char ≤ high)
    (zero : '0' ≤ low) (nine : high ≤ '9') : char.isDigit = true :=
  Char.isDigit_iff_toNat.mpr ⟨UInt32.le_iff_toNat_le.mp (Char.le_trans zero within.1),
    UInt32.le_iff_toNat_le.mp (Char.le_trans within.2 nine)⟩

theorem isDigit_of_isNonzeroDigit {char : Char} (nonzero : isNonzeroDigit char = true) :
    char.isDigit = true :=
  isDigit_of_between (by simpa [isNonzeroDigit] using nonzero) (by decide) (by decide)

theorem isDigit_of_isOctalDigit {char : Char} (octal : isOctalDigit char = true) :
    char.isDigit = true :=
  isDigit_of_between (by simpa [isOctalDigit] using octal) (by decide) (by decide)

theorem forall_mem_snoc {holds : Char → Prop} {front : List Char} {last : Char}
    (before : ∀ char ∈ front, holds char) (added : holds last) :
    ∀ char ∈ front ++ [last], holds char := by
  intro char member
  rcases List.mem_append.mp member with inside | same
  · exact before char inside
  · exact List.mem_singleton.mp same ▸ added

namespace Digits

theorem single {char : Char} (digit : char.isDigit = true) : Digits [char] :=
  ⟨List.cons_ne_nil _ _, by simpa using digit⟩

theorem snoc {chars : List Char} {char : Char} (before : Digits chars)
    (digit : char.isDigit = true) : Digits (chars ++ [char]) :=
  ⟨by simp, forall_mem_snoc before.digits digit⟩

theorem point {chars : List Char} (before : Digits chars) : Pointed (chars ++ ['.']) :=
  ⟨chars, [], before, by simp, rfl⟩

end Digits

theorem Pointed.snoc {chars : List Char} {char : Char} (before : Pointed chars)
    (digit : char.isDigit = true) : Pointed (chars ++ [char]) := by
  obtain ⟨whole, fraction, digits, more, rfl⟩ := before
  exact ⟨whole, fraction ++ [char], digits, forall_mem_snoc more digit, by simp⟩

theorem Exponent.single {mark char : Char} {sign : List Char}
    (marked : isExponentMark mark = true) (signed : sign = [] ∨ sign = ['-'])
    (digit : isNonzeroDigit char = true) : Exponent mark sign [char] :=
  ⟨marked, signed, .single (isDigit_of_isNonzeroDigit digit)⟩

theorem Exponent.snoc {mark char : Char} {sign digits : List Char}
    (before : Exponent mark sign digits) (digit : char.isDigit = true) :
    Exponent mark sign (digits ++ [char]) :=
  ⟨before.mark, before.sign, before.digits.snoc digit⟩

theorem isAlphanumeric_of_isDigit {char : Char} (digit : char.isDigit = true) :
    isAlphanumeric char = true := by
  rw [isAlphanumeric, digit, Bool.true_or]

theorem isDigit_of_isBinaryDigit {char : Char} (binary : isBinaryDigit char = true) :
    char.isDigit = true := by
  simp only [isBinaryDigit, Bool.or_eq_true, beq_iff_eq] at binary
  rcases binary with rfl | rfl
  · rfl
  · rfl

theorem isAlphanumeric_of_isHexDigit {char : Char} (hex : isHexDigit char = true) :
    isAlphanumeric char = true := by
  simp only [isHexDigit, isAlphanumeric, isNameStart, Bool.or_eq_true, Bool.and_eq_true,
    decide_eq_true_eq, Char.le_def] at hex ⊢
  rcases hex with (digit | lower) | upper
  · exact .inl digit
  · exact .inr (.inl (.inl (.inl ⟨lower.1, UInt32.le_trans lower.2 (by decide)⟩)))
  · exact .inr (.inl (.inl (.inr ⟨upper.1, UInt32.le_trans upper.2 (by decide)⟩)))

namespace State

/-- One more character keeps the shape. -/
theorem Shape.next {state after : State} {chars : List Char} {char : Char}
    (shape : state.Shape chars) (step : state.next? char = some after) :
    after.Shape (chars ++ [char]) := by
  cases state with
  | start =>
      obtain rfl : chars = [] := shape
      simp only [next?] at step
      repeat' split at step
      all_goals cases step
      · next zero =>
          rw [beq_iff_eq] at zero
          exact .single (zero ▸ rfl)
      · next nonzero => exact .single (isDigit_of_isNonzeroDigit nonzero)
      · next name => exact ⟨char, [], name, by simp, rfl⟩
      · next quote =>
          rw [beq_iff_eq] at quote
          exact ⟨[], by simp, by rw [quote]; rfl⟩
      · next quote =>
          rw [beq_iff_eq] at quote
          exact congrArg ([·]) quote
  | zero =>
      have digits : Digits chars := shape
      have numeral : ∀ char ∈ chars, isAlphanumeric char = true := fun char member =>
        isAlphanumeric_of_isDigit (digits.digits char member)
      simp only [next?, Bool.or_eq_true, beq_iff_eq] at step
      repeat' split at step
      all_goals cases step
      · next mark =>
          apply forall_mem_snoc numeral
          rcases mark with rfl | rfl <;> rfl
      · next mark =>
          apply forall_mem_snoc numeral
          rcases mark with rfl | rfl <;> rfl
      · next octal => exact digits.snoc (isDigit_of_isOctalDigit octal)
      · next high =>
          apply digits.snoc
          rcases high with rfl | rfl <;> rfl
      · next point =>
          subst point
          exact digits.point
      · next mark => exact ⟨chars, char, .inl digits, mark, rfl⟩
  | binaryPrefix | binary =>
      simp only [next?] at step
      split at step
      all_goals cases step
      next binary =>
          exact forall_mem_snoc shape (isAlphanumeric_of_isDigit (isDigit_of_isBinaryDigit binary))
  | decimal =>
      have digits : Digits chars := shape
      simp only [next?, beq_iff_eq] at step
      repeat' split at step
      all_goals cases step
      · next digit => exact digits.snoc digit
      · next point =>
          subst point
          exact digits.point
      · next mark => exact ⟨chars, char, digits, mark, rfl⟩
      · next mark => exact ⟨chars, char, .inl digits, mark, rfl⟩
  | identifier =>
      obtain ⟨first, rest, name, parts, rfl⟩ := shape
      simp only [next?] at step
      split at step
      all_goals cases step
      next part => exact ⟨first, rest ++ [char], name, forall_mem_snoc parts part, rfl⟩
  | stringBody =>
      obtain ⟨body, printable, rfl⟩ := shape
      simp only [next?, beq_iff_eq] at step
      repeat' split at step
      all_goals cases step
      · next quote =>
          subst quote
          exact ⟨body, printable, rfl⟩
      · next visible => exact ⟨body ++ [char], forall_mem_snoc printable visible, rfl⟩
  | hexPrefix | hex =>
      simp only [next?] at step
      split at step
      all_goals cases step
      next hex => exact forall_mem_snoc shape (isAlphanumeric_of_isHexDigit hex)
  | octal =>
      have digits : Digits chars := shape
      simp only [next?, Bool.or_eq_true, beq_iff_eq] at step
      repeat' split at step
      all_goals cases step
      · next octal => exact digits.snoc (isDigit_of_isOctalDigit octal)
      · next high =>
          apply digits.snoc
          rcases high with rfl | rfl <;> rfl
      · next point =>
          subst point
          exact digits.point
  | point =>
      have pointed : Pointed chars := shape
      simp only [next?] at step
      repeat' split at step
      all_goals cases step
      · next digit => exact pointed.snoc digit
      · next mark => exact ⟨chars, char, .inr (.inl pointed), mark, rfl⟩
  | fraction =>
      have pointed : Pointed chars := shape
      simp only [next?] at step
      repeat' split at step
      all_goals cases step
      · next digit => exact pointed.snoc digit
      · next mark => exact ⟨chars, char, pointed, mark, rfl⟩
      · next mark => exact ⟨chars, char, .inr (.inl pointed), mark, rfl⟩
  | integerExponent =>
      obtain ⟨front, mark, digits, marked, rfl⟩ := shape
      simp only [next?, beq_iff_eq] at step
      repeat' split at step
      all_goals cases step
      · next minus =>
          subst minus
          exact ⟨front, mark, digits, marked, by simp⟩
      · next digit =>
          exact ⟨front, mark, [], [char], digits, .single marked (.inl rfl) digit, by simp⟩
  | integerExponentSign =>
      obtain ⟨front, mark, digits, marked, rfl⟩ := shape
      simp only [next?] at step
      split at step
      all_goals cases step
      next digit =>
          exact ⟨front, mark, ['-'], [char], digits, .single marked (.inr rfl) digit, by simp⟩
  | integerExponentDigits =>
      obtain ⟨front, mark, sign, digits, whole, exponent, rfl⟩ := shape
      simp only [next?] at step
      split at step
      all_goals cases step
      next digit =>
          exact ⟨front, mark, sign, digits ++ [char], whole, exponent.snoc digit, by simp⟩
  | floatExponent =>
      obtain ⟨front, mark, pointed, marked, rfl⟩ := shape
      simp only [next?, beq_iff_eq] at step
      repeat' split at step
      all_goals cases step
      · next minus =>
          subst minus
          exact ⟨front, mark, pointed, marked, by simp⟩
      · next digit =>
          exact ⟨front, mark, [], [char], pointed, .single marked (.inl rfl) digit, by simp⟩
  | floatExponentSign =>
      obtain ⟨front, mark, pointed, marked, rfl⟩ := shape
      simp only [next?] at step
      split at step
      all_goals cases step
      next digit =>
          exact ⟨front, mark, ['-'], [char], pointed, .single marked (.inr rfl) digit, by simp⟩
  | floatExponentDigits =>
      obtain ⟨front, mark, sign, digits, pointed, exponent, rfl⟩ := shape
      simp only [next?] at step
      repeat' split at step
      all_goals cases step
      · next digit =>
          exact ⟨front, mark, sign, digits ++ [char], pointed, exponent.snoc digit, by simp⟩
      · next suffix =>
          exact ⟨_, char, .inr (.inr ⟨front, mark, sign, digits, pointed, exponent, rfl⟩), suffix,
            rfl⟩
  | charOpen =>
      obtain rfl : chars = ['\''] := shape
      simp only [next?] at step
      split at step
      all_goals cases step
      next open' =>
          rw [Bool.and_eq_true] at open'
          exact ⟨char, open'.2, rfl⟩
  | charBody =>
      obtain ⟨body, printable, rfl⟩ := shape
      simp only [next?, beq_iff_eq] at step
      split at step
      all_goals cases step
      next quote =>
          subst quote
          exact ⟨body, printable, rfl⟩
  | stringEnd | floatSuffix | charEnd => cases step

theorem Shape.run {state last : State} {front chars : List Char} (shape : state.Shape front)
    (reached : state.run? chars = some last) : last.Shape (front ++ chars) := by
  induction chars generalizing state front with
  | nil =>
      obtain rfl := Option.some.inj reached
      simpa using shape
  | cons char rest ih =>
      obtain ⟨after, step, later⟩ := Option.bind_eq_some_iff.mp reached
      simpa using ih (shape.next step) later

/-- What has been read from the start on has the shape of the state reached. -/
theorem shape_of_run? {state : State} {chars : List Char}
    (reached : State.start.run? chars = some state) : state.Shape chars := by
  have nothing : State.start.Shape [] := rfl
  exact nothing.run reached

end State

end StackLang.Lexeme
