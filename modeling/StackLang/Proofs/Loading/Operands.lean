import StackLang.Code.Literal
import StackLang.Proofs.Lexeme.Recognised
import StackLang.Proofs.Loading.Line
import StackLang.Proofs.Numeral.FloatText

/-!
# Tokens in lines of bytecode

Identifiers of a source can be declared, and the spelling of every literal can
stand as the operand of an instruction.
-/

namespace StackLang

open Text

namespace Lexeme

theorem visible_of_isNamePart {char : Char} (part : isNamePart char = true) :
    isBlank char = false ∧ char ≠ ',' ∧ char ≠ '#' := by
  have code : 36 ≤ char.toNat ∧ char.toNat ≤ 122 ∧ char.toNat ≠ 44 := by
    simp only [isNamePart, isNameStart, Char.isDigit, Bool.or_eq_true, Bool.and_eq_true,
      decide_eq_true_eq, beq_iff_eq, Char.le_def, UInt32.le_iff_toNat_le] at part
    rcases part with (((lower | upper) | rfl) | rfl) | digit
    · have range : 97 ≤ char.toNat ∧ char.toNat ≤ 122 := lower
      omega
    · have range : 65 ≤ char.toNat ∧ char.toNat ≤ 90 := upper
      omega
    · decide
    · decide
    · have range : 48 ≤ char.toNat ∧ char.toNat ≤ 57 := digit
      omega
  refine ⟨isBlank_of_range (by omega) (by omega), ?_, ?_⟩
  · intro comma
    exact code.2.2 (congrArg Char.toNat comma)
  · intro hash
    have low := code.1
    rw [hash] at low
    exact absurd low (by decide)

theorem kind?_of_kindOf {text : String} {state? : Option State} {kind : TokenKind}
    (found : kindOf text state? = kind) (noError : kind ≠ .error) (noKeyword : kind ≠ .keyword) :
    ∃ state, state? = some state ∧ state.kind? = some kind := by
  rw [kindOf] at found
  split at found
  · next known =>
      obtain ⟨state, same, identifier⟩ := Option.bind_eq_some_iff.mp known
      split at found
      · exact absurd found.symm noKeyword
      · exact ⟨state, same, found ▸ identifier⟩
  · next other _ known =>
      obtain ⟨state, same, accepted⟩ := Option.bind_eq_some_iff.mp known
      exact ⟨state, same, found ▸ accepted⟩
  · exact absurd found.symm noError

/-- The last state of a lexeme that is neither an error nor a keyword, with the
shape of its characters. -/
theorem Recognised.state {token : Token} (recognised : Recognised token)
    (noMark : token.kind ≠ .operator ∧ token.kind ≠ .delimiter)
    (noWord : token.kind ≠ .error ∧ token.kind ≠ .keyword) :
    ∃ state : State, state.kind? = some token.kind ∧ state.Shape token.value.toList := by
  cases recognised with
  | mark fixed =>
      rcases fixed with operator | delimiter
      · exact absurd operator noMark.1
      · exact absurd delimiter noMark.2
  | lexeme nonempty kind =>
      obtain ⟨state, reached, known⟩ := kind?_of_kindOf kind.symm noWord.1 noWord.2
      exact ⟨state, known, State.shape_of_run? reached⟩

/-- An identifier of a source is made of the characters of names. -/
theorem Recognised.name_parts {token : Token} (recognised : Recognised token)
    (named : token.isIdentifier = true) :
    token.value.toList ≠ [] ∧ ∀ char ∈ token.value.toList, isNamePart char = true := by
  have kind : token.kind = .identifier := by simpa [Token.isIdentifier] using named
  obtain ⟨state, accepts, shape⟩ := recognised.state (by rw [kind]; decide) (by rw [kind]; decide)
  rw [kind] at accepts
  cases state with
  | identifier =>
      obtain ⟨first, rest, start, parts, chars⟩ := shape
      rw [chars, List.forall_mem_cons]
      exact ⟨List.cons_ne_nil _ _, by rw [isNamePart, start, Bool.true_or], parts⟩
  | _ => simp [State.kind?] at accepts

/-- An identifier of a source can be declared. -/
theorem Recognised.declarable {token : Token} (recognised : Recognised token)
    (named : token.isIdentifier = true) : Declarable token.value := by
  obtain ⟨nonempty, parts⟩ := recognised.name_parts named
  have visible (char : Char) (member : char ∈ token.value.toList) :=
    visible_of_isNamePart (parts char member)
  constructor
  · exact nonempty
  · intro char member
    exact ⟨(visible char member).1, (visible char member).2.1⟩
  · intro hash
    exact (visible '#' (List.mem_of_mem_head? hash)).2.2 rfl

theorem Digits.visible {chars : List Char} (digits : Digits chars) :
    ∀ char ∈ chars, isBlank char = false := fun char member =>
  isBlank_of_isDigit (digits.digits char member)

theorem Pointed.visible {chars : List Char} (pointed : Pointed chars) :
    ∀ char ∈ chars, isBlank char = false := by
  obtain ⟨whole, fraction, digits, more, rfl⟩ := pointed
  rw [List.forall_mem_append, List.forall_mem_cons]
  exact ⟨digits.visible, by decide, fun char member => isBlank_of_isDigit (more char member)⟩

theorem Exponent.visible {mark : Char} {sign digits : List Char}
    (exponent : Exponent mark sign digits) :
    ∀ char ∈ mark :: (sign ++ digits), isBlank char = false := by
  have marked := exponent.mark
  simp only [isExponentMark, Bool.or_eq_true, beq_iff_eq] at marked
  rw [List.forall_mem_cons, List.forall_mem_append]
  refine ⟨?_, ?_, exponent.digits.visible⟩
  · rcases marked with rfl | rfl
    · decide
    · decide
  · rcases exponent.sign with rfl | rfl
    · exact List.forall_mem_nil _
    · exact forall_of_all (by decide)

theorem Fractional.visible {chars : List Char} (fractional : Fractional chars) :
    ∀ char ∈ chars, isBlank char = false := by
  rcases fractional with pointed | ⟨front, mark, sign, digits, pointed, exponent, rfl⟩
  · exact pointed.visible
  · exact List.forall_mem_append.mpr ⟨pointed.visible, exponent.visible⟩

theorem isBlank_of_isAlphanumeric {char : Char} (alphanumeric : isAlphanumeric char = true) :
    isBlank char = false := by
  apply (visible_of_isNamePart _).1
  rw [isNamePart, Bool.or_comm]
  exact alphanumeric

/-- The kinds of literals between quotes. -/
def isQuoted (kind : TokenKind) : Bool := kind == .char || kind == .string

/-- The characters of a number. -/
theorem State.Shape.visible {state : State} {chars : List Char} {kind : TokenKind}
    (shape : state.Shape chars) (accepts : state.kind? = some kind) (unquoted : isQuoted kind = false) :
    ∀ char ∈ chars, isBlank char = false := by
  cases state with
  | zero | decimal | octal => exact Digits.visible shape
  | binary | hex => exact fun char member => isBlank_of_isAlphanumeric (shape char member)
  | identifier =>
      obtain ⟨first, rest, start, parts, rfl⟩ := shape
      rw [List.forall_mem_cons]
      refine ⟨(visible_of_isNamePart ?_).1, fun char member =>
        (visible_of_isNamePart (parts char member)).1⟩
      rw [isNamePart, start, Bool.true_or]
  | point | fraction => exact Pointed.visible shape
  | integerExponentDigits =>
      obtain ⟨front, mark, sign, digits, whole, exponent, rfl⟩ := shape
      exact List.forall_mem_append.mpr ⟨whole.visible, exponent.visible⟩
  | floatExponentDigits =>
      obtain ⟨front, mark, sign, digits, pointed, exponent, rfl⟩ := shape
      exact List.forall_mem_append.mpr ⟨pointed.visible, exponent.visible⟩
  | floatSuffix =>
      obtain ⟨front, mark, number, marked, rfl⟩ := shape
      simp only [isFloatMark, Bool.or_eq_true, beq_iff_eq] at marked
      rw [List.forall_mem_append, List.forall_mem_singleton]
      constructor
      · rcases number with digits | fractional
        · exact digits.visible
        · exact fractional.visible
      · rcases marked with rfl | rfl
        · decide
        · decide
  | charEnd | stringEnd =>
      obtain rfl := Option.some.inj accepts
      contradiction
  | _ => exact absurd accepts (by simp [kind?])

/-- The ends of a literal between quotes are its quotes. -/
theorem carried_of_quoted {value : String} {quote : Char} {body : List Char}
    (visible : isBlank quote = false) (printable : ∀ char ∈ body, isPrintable char = true)
    (chars : value.toList = quote :: (body ++ [quote])) : Carried value := by
  constructor
  · rw [chars]
    constructor
    · simpa using visible
    · rw [← List.cons_append, List.getLast?_append]
      simpa using visible
  · rw [chars, List.mem_cons, List.mem_append, List.mem_singleton]
    have noQuote : '\n' ≠ quote := by
      intro same
      rw [← same] at visible
      contradiction
    intro broken
    rcases broken with first | inside | last
    · exact noQuote first
    · exact absurd (printable '\n' inside) (by decide)
    · exact noQuote last

theorem State.Shape.quoted {state : State} {value : String} {kind : TokenKind}
    (shape : state.Shape value.toList) (accepts : state.kind? = some kind)
    (quoted : isQuoted kind = true) : Carried value := by
  cases state with
  | charEnd =>
      obtain ⟨char, printable, chars⟩ := shape
      have body : ∀ other ∈ [char], isPrintable other = true := by simpa using printable
      exact carried_of_quoted (by decide) body chars
  | stringEnd =>
      obtain ⟨body, printable, chars⟩ := shape
      exact carried_of_quoted (by decide) printable chars
  | _ => cases accepts <;> contradiction

end Lexeme

theorem carried_of_visible {operand : String}
    (visible : ∀ char ∈ operand.toList, isBlank char = false) : Carried operand := by
  constructor
  · exact tight_of_all visible
  · intro broken
    exact absurd (visible '\n' broken) (by decide)

theorem Declarable.carried {name : String} (declarable : Declarable name) : Carried name :=
  carried_of_visible fun char member => (declarable.visible char member).1

theorem carried_toString (number : Int) : Carried (toString number) :=
  carried_of_visible fun char member =>
    Numeral.isBlank_of_isNumberMark (Numeral.toString_marks number char member)

theorem carried_radixText {value : String} (carried : Carried value) (markSize radix : Nat) :
    Carried (radixText value markSize radix) := by
  rw [radixText]
  split
  · exact carried_toString _
  · exact carried

theorem carried_exponentText {value : String} (carried : Carried value) :
    Carried (exponentText value) := by
  rw [exponentText]
  split
  · next whole _ =>
      dsimp only
      split
      · split
        · exact carried_toString _
        · exact carried_toString (whole.natAbs : Int)
      · exact carried
  · exact carried

theorem carried_floatLiteralText {value : String} (carried : Carried value) :
    Carried (floatLiteralText value) := by
  rw [floatLiteralText]
  split
  · exact carried_of_visible (Numeral.Binary64.text_visible _)
  · exact carried

/-- The spelling of a literal can be carried if its source text can. -/
theorem Token.carried_literalText {token : Token} (carried : Carried token.value) :
    Carried token.literalText := by
  rw [Token.literalText]
  split
  · exact carried_radixText carried 2 16
  · exact carried_radixText carried 2 2
  · exact carried_radixText carried 0 8
  · split
    · exact carried_exponentText carried
    · exact carried
  · exact carried_floatLiteralText carried
  · exact carried

/-- The spelling of a literal of a source can be carried. -/
theorem Lexeme.Recognised.carried {token : Token} (recognised : Recognised token)
    (denotes : token.isLiteral = true) : Carried token.literalText := by
  apply Token.carried_literalText
  rw [Token.isLiteral, Bool.or_eq_true, Bool.or_eq_true] at denotes
  have spelled {word : String} (same : token.spells word = true) : token.value = word := by
    simpa using (Bool.and_eq_true_iff.mp same).2
  rcases denotes with (literal | yes) | no
  · obtain ⟨state, accepts, shape⟩ := recognised.state
      (by constructor <;> intro kind <;> rw [kind] at literal <;> contradiction)
      (by constructor <;> intro kind <;> rw [kind] at literal <;> contradiction)
    by_cases quoted : isQuoted token.kind = true
    · exact shape.quoted accepts quoted
    · exact carried_of_visible (shape.visible accepts (Bool.not_eq_true _ ▸ quoted))
  · rw [spelled yes]
    exact carried_of_visible (forall_of_all (by decide))
  · rw [spelled no]
    exact carried_of_visible (forall_of_all (by decide))

end StackLang
