import Mathlib.Computability.RegularExpressions
import Mathlib.Algebra.Order.Kleene
import Mathlib.Order.CompletePartialOrder
import StackLang.Proofs.Automaton.Language

/-!
# The words that the automaton accepts

Every kind of lexeme has a regular expression, and so has what has been read in a
state.  `State.run?_eq_some_iff` says that a word leads to a state if and only if it
matches the expression of the state: matches are closed under the arrows between
the states, and by the rules of `State.Leads` every match leads there.  The words
accepted with a kind are then the matches of the expression of this kind.
-/

namespace StackLang

open Lexeme (State)
open scoped Computability

/-- A regular expression over characters. -/
abbrev Pattern := RegularExpression Char

namespace Pattern

/-- The ASCII characters from the first to the last one. -/
def between (first last : Char) : List Char :=
  Automaton.alphabet.filter fun char => first ≤ char && char ≤ last

/-- Any one of the characters. -/
def oneOf (chars : List Char) : Pattern := (chars.map .char).sum

/-- The pattern once or more. -/
def repeated (pattern : Pattern) : Pattern := pattern * pattern.star

/-- The pattern once or not at all. -/
def optional (pattern : Pattern) : Pattern := 1 + pattern

/-- The digits `0` to `9`. -/
def digits : List Char := between '0' '9'

/-- The digits `1` to `9`. -/
def nonzeroDigits : List Char := between '1' '9'

/-- The digits `0` to `7`. -/
def octalDigits : List Char := between '0' '7'

/-- The digits of a hexadecimal number. -/
def hexDigits : List Char := digits ++ between 'a' 'f' ++ between 'A' 'F'

/-- The characters that a name can start with. -/
def nameStarts : List Char := between 'A' 'Z' ++ between 'a' 'z' ++ ['_', '$']

/-- The printable ASCII characters other than one. -/
def printableBut (quote : Char) : List Char := (between ' ' '~').filter fun char => char != quote

/-- One or more digits. -/
def numeral : Pattern := (oneOf digits).repeated

/-- A decimal number: it starts with no zero, or its leading zero is made decimal by
an `8` or a `9`. -/
def decimalNumber : Pattern :=
  oneOf nonzeroDigits * (oneOf digits).star +
    oneOf ['0'] * (oneOf octalDigits).star * oneOf ['8', '9'] * (oneOf digits).star

/-- An exponent with its mark. -/
def exponent : Pattern :=
  oneOf ['e', 'E'] * (oneOf ['-']).optional * oneOf nonzeroDigits * (oneOf digits).star

/-- The mark at the end of a floating point number. -/
def floatMark : Pattern := oneOf ['f', 'F']

end Pattern

open Pattern

/-- The words of a kind. -/
def TokenKind.pattern : TokenKind → Pattern
  | .integer => oneOf ['0'] + decimalNumber + decimalNumber * exponent
  | .octal => oneOf ['0'] * (oneOf octalDigits).repeated
  | .binary => oneOf ['0'] * oneOf ['b', 'B'] * (oneOf ['0', '1']).repeated
  | .hexadecimal => oneOf ['0'] * oneOf ['x', 'X'] * (oneOf hexDigits).repeated
  | .float =>
      numeral * oneOf ['.'] * ((oneOf digits).star + numeral * exponent) * floatMark.optional +
        (oneOf ['0'] + decimalNumber) * floatMark
  | .identifier => oneOf nameStarts * (oneOf (nameStarts ++ digits)).star
  | .string => oneOf ['"'] * (oneOf (printableBut '"')).star * oneOf ['"']
  | .char => oneOf ['\''] * oneOf (printableBut '\'') * oneOf ['\'']
  | .keyword | .operator | .delimiter | .error => 0

namespace Lexeme.State

/-- The words that lead to a state. -/
def pattern : State → Pattern
  | .start => 1
  | .zero => oneOf ['0']
  | .binaryPrefix => oneOf ['0'] * oneOf ['b', 'B']
  | .binary => oneOf ['0'] * oneOf ['b', 'B'] * (oneOf ['0', '1']).repeated
  | .decimal => decimalNumber
  | .identifier => oneOf nameStarts * (oneOf (nameStarts ++ digits)).star
  | .stringBody => oneOf ['"'] * (oneOf (printableBut '"')).star
  | .stringEnd => oneOf ['"'] * (oneOf (printableBut '"')).star * oneOf ['"']
  | .hexPrefix => oneOf ['0'] * oneOf ['x', 'X']
  | .hex => oneOf ['0'] * oneOf ['x', 'X'] * (oneOf hexDigits).repeated
  | .octal => oneOf ['0'] * (oneOf octalDigits).repeated
  | .point => numeral * oneOf ['.']
  | .fraction => numeral * oneOf ['.'] * numeral
  | .integerExponent => decimalNumber * oneOf ['e', 'E']
  | .integerExponentSign => decimalNumber * oneOf ['e', 'E'] * oneOf ['-']
  | .integerExponentDigits => decimalNumber * exponent
  | .floatExponent => numeral * oneOf ['.'] * numeral * oneOf ['e', 'E']
  | .floatExponentSign => numeral * oneOf ['.'] * numeral * oneOf ['e', 'E'] * oneOf ['-']
  | .floatExponentDigits => numeral * oneOf ['.'] * numeral * exponent
  | .floatSuffix =>
      (oneOf ['0'] + decimalNumber + numeral * oneOf ['.'] + numeral * oneOf ['.'] * numeral +
        numeral * oneOf ['.'] * numeral * exponent) * floatMark
  | .charOpen => oneOf ['\'']
  | .charBody => oneOf ['\''] * oneOf (printableBut '\'')
  | .charEnd => oneOf ['\''] * oneOf (printableBut '\'') * oneOf ['\'']

/-- The arrows out of a state, with the characters that they are labelled with. -/
def arrows : State → List (List Char × State)
  | .start =>
      [(['0'], .zero), (nonzeroDigits, .decimal), (nameStarts, .identifier), (['"'], .stringBody),
        (['\''], .charOpen)]
  | .zero =>
      [(['b', 'B'], .binaryPrefix), (['x', 'X'], .hexPrefix), (octalDigits, .octal),
        (['8', '9'], .decimal), (['.'], .point), (['f', 'F'], .floatSuffix)]
  | .binaryPrefix | .binary => [(['0', '1'], .binary)]
  | .decimal =>
      [(digits, .decimal), (['.'], .point), (['e', 'E'], .integerExponent),
        (['f', 'F'], .floatSuffix)]
  | .identifier => [(nameStarts ++ digits, .identifier)]
  | .stringBody => [(printableBut '"', .stringBody), (['"'], .stringEnd)]
  | .hexPrefix | .hex => [(hexDigits, .hex)]
  | .octal => [(octalDigits, .octal), (['8', '9'], .decimal), (['.'], .point)]
  | .point => [(digits, .fraction), (['f', 'F'], .floatSuffix)]
  | .fraction => [(digits, .fraction), (['e', 'E'], .floatExponent), (['f', 'F'], .floatSuffix)]
  | .integerExponent =>
      [(['-'], .integerExponentSign), (nonzeroDigits, .integerExponentDigits)]
  | .integerExponentSign => [(nonzeroDigits, .integerExponentDigits)]
  | .integerExponentDigits => [(digits, .integerExponentDigits)]
  | .floatExponent => [(['-'], .floatExponentSign), (nonzeroDigits, .floatExponentDigits)]
  | .floatExponentSign => [(nonzeroDigits, .floatExponentDigits)]
  | .floatExponentDigits => [(digits, .floatExponentDigits), (['f', 'F'], .floatSuffix)]
  | .charOpen => [(printableBut '\'', .charBody)]
  | .charBody => [(['\''], .charEnd)]
  | .stringEnd | .floatSuffix | .charEnd => []

end Lexeme.State

namespace Pattern

variable {chars word : List Char} {pattern inner outer front back wider : Pattern}

theorem mem_oneOf : word ∈ (oneOf chars).matches' ↔ ∃ char ∈ chars, word = [char] := by
  induction chars with
  | nil => simp [oneOf]
  | cons char rest ih =>
      have split : (oneOf (char :: rest)).matches' = {[char]} + (oneOf rest).matches' := rfl
      have first : word ∈ ({[char]} : Language Char) ↔ word = [char] := Iff.rfl
      rw [split, Language.mem_add, first, ih, List.exists_mem_cons_iff]

/-- All matches of one pattern are matches of the other one. -/
def Within (inner outer : Pattern) : Prop := inner.matches' ≤ outer.matches'

namespace Within

theorem refl (pattern : Pattern) : Within pattern pattern := le_refl _

theorem trans {middle : Pattern} (first : Within inner middle) (second : Within middle outer) :
    Within inner outer :=
  le_trans first second

theorem oneOf {fewer more : List Char} (within : fewer ⊆ more) :
    Within (oneOf fewer) (oneOf more) := by
  intro word matched
  obtain ⟨char, member, same⟩ := mem_oneOf.mp matched
  exact mem_oneOf.mpr ⟨char, within member, same⟩

theorem left (one other : Pattern) : Within one (one + other) := le_sup_left

theorem right (one other : Pattern) : Within other (one + other) := le_sup_right

theorem sum (one : Within front outer) (other : Within back outer) : Within (front + back) outer :=
  sup_le one other

theorem mul {frontOuter backOuter : Pattern} (first : Within front frontOuter)
    (second : Within back backOuter) : Within (front * back) (frontOuter * backOuter) :=
  mul_le_mul' first second

/-- Nothing in front changes nothing. -/
theorem one_mul_left (pattern : Pattern) : Within (1 * pattern) pattern :=
  le_of_eq (one_mul pattern.matches')

theorem assoc (front middle back : Pattern) :
    Within (front * middle * back) (front * (middle * back)) :=
  le_of_eq (mul_assoc _ _ _)

/-- A repetition may be empty. -/
theorem noMore (front pattern : Pattern) : Within front (front * pattern.star) :=
  le_mul_of_one_le_right' one_le_kstar

/-- A repetition may go on. -/
theorem oneMore (front pattern : Pattern) :
    Within (front * pattern.star * pattern) (front * pattern.star) :=
  calc
    front.matches' * pattern.matches'∗ * pattern.matches' =
        front.matches' * (pattern.matches'∗ * pattern.matches') := mul_assoc _ _ _
    _ ≤ front.matches' * pattern.matches'∗ := mul_le_mul_right kstar_mul_le_kstar _

theorem distrib (one other back : Pattern) :
    Within ((one + other) * back) (one * back + other * back) :=
  le_of_eq (add_mul _ _ _)

theorem star {inner outer : Pattern} (within : Within inner outer) : Within inner.star outer.star :=
  kstar_mono within

/-- Two repetitions are one. -/
theorem starStar (front pattern : Pattern) :
    Within (front * pattern.star * pattern.star) (front * pattern.star) := by
  refine .trans (.assoc _ _ _) (.mul (.refl _) (le_of_eq ?_))
  exact kstar_mul_kstar pattern.matches'

theorem repeated_star (pattern : Pattern) : Within pattern.repeated pattern.star :=
  mul_kstar_le_kstar

/-- What is repeated stands there once more. -/
theorem onceMore (front pattern : Pattern) :
    Within (front * pattern.repeated * pattern) (front * pattern.repeated) :=
  .trans (.assoc _ _ _) (.mul (.refl _) (.oneMore _ _))

/-- What is optional is left out. -/
theorem absent (front pattern : Pattern) : Within front (front * pattern.optional) :=
  calc
    front.matches' = front.matches' * 1 := (mul_one _).symm
    _ ≤ front.matches' * pattern.optional.matches' := mul_le_mul_right (left 1 pattern) _

/-- What is optional is there. -/
theorem present (pattern : Pattern) : Within pattern pattern.optional := right 1 pattern

end Within

/-! ## Matches along the arrows -/

theorem zero_within_numeral : Within (oneOf ['0']) numeral :=
  .trans (.oneOf (by decide)) (.noMore _ _)

theorem octal_within_numeral : Within (oneOf ['0'] * (oneOf octalDigits).repeated) numeral := by
  have zero : Within (oneOf ['0']) (oneOf digits) := .oneOf (by decide)
  have octal : Within (oneOf octalDigits) (oneOf digits) := .oneOf (by decide)
  exact .mul zero (.trans (.repeated_star _) octal.star)

theorem decimal_within_numeral : Within decimalNumber numeral := by
  have nonzero : Within (oneOf nonzeroDigits) (oneOf digits) := .oneOf (by decide)
  have zero : Within (oneOf ['0']) (oneOf digits) := .oneOf (by decide)
  have octal : Within (oneOf octalDigits) (oneOf digits) := .oneOf (by decide)
  have high : Within (oneOf ['8', '9']) (oneOf digits) := .oneOf (by decide)
  have front : Within (oneOf ['0'] * (oneOf octalDigits).star * oneOf ['8', '9']) numeral :=
    .trans (.mul (.mul zero octal.star) high) (.oneMore _ _)
  exact .sum (.mul nonzero (.refl _)) (.trans (.mul front (.refl _)) (.starStar _ _))

section

variable (front : Pattern)

theorem exponent_unsigned :
    Within (front * oneOf ['e', 'E'] * oneOf nonzeroDigits) (front * exponent) :=
  .trans (.assoc _ _ _) (.mul (.refl _) (.trans (.mul (.absent _ _) (.refl _)) (.noMore _ _)))

theorem exponent_signed :
    Within (front * oneOf ['e', 'E'] * oneOf ['-'] * oneOf nonzeroDigits) (front * exponent) := by
  have marked : Within (oneOf ['e', 'E'] * oneOf ['-'] * oneOf nonzeroDigits) exponent :=
    .trans (.mul (.mul (.refl _) (.present _)) (.refl _)) (.noMore _ _)
  exact .trans (.mul (.assoc _ _ _) (.refl _)) (.trans (.assoc _ _ _) (.mul (.refl _) marked))

theorem exponent_more : Within (front * exponent * oneOf digits) (front * exponent) :=
  .trans (.assoc _ _ _) (.mul (.refl _) (.oneMore _ _))

end

end Pattern

namespace Lexeme.State

/-- The states in which a number may end with the mark of a floating point number. -/
def markable : List State := [.zero, .decimal, .point, .fraction, .floatExponentDigits]

theorem markable_within (state : State) (listed : state ∈ markable) :
    Within (state.pattern * oneOf ['f', 'F']) State.floatSuffix.pattern := by
  suffices inside : Within state.pattern
      (oneOf ['0'] + decimalNumber + numeral * oneOf ['.'] + numeral * oneOf ['.'] * numeral +
        numeral * oneOf ['.'] * numeral * exponent) from .mul inside (.refl _)
  simp only [markable, List.mem_cons, List.not_mem_nil, or_false] at listed
  rcases listed with rfl | rfl | rfl | rfl | rfl
  · exact .trans (.left _ _) (.trans (.left _ _) (.trans (.left _ _) (.left _ _)))
  · exact .trans (.right _ _) (.trans (.left _ _) (.trans (.left _ _) (.left _ _)))
  · exact .trans (.right _ _) (.trans (.left _ _) (.left _ _))
  · exact .trans (.right _ _) (.left _ _)
  · exact .right _ _

/-- One more character along an arrow leads to a match of the next state. -/
theorem pattern_arrow (state : State) : ∀ arrow ∈ state.arrows,
    Within (state.pattern * oneOf arrow.1) arrow.2.pattern := by
  have marked := markable_within state
  cases state <;>
    simp only [arrows, List.forall_mem_cons, List.not_mem_nil, false_imp_iff, implies_true,
      and_true]
  case start =>
      exact ⟨.one_mul_left _,
        .trans (.one_mul_left _) (.trans (.noMore _ _) (.left _ _)),
        .trans (.one_mul_left _) (.noMore _ _),
        .trans (.one_mul_left _) (.noMore _ _),
        .one_mul_left _⟩
  case zero =>
      have decimal : Within (oneOf ['0'] * oneOf ['8', '9']) decimalNumber :=
        .trans (.mul (.noMore _ _) (.refl _)) (.trans (.noMore _ _) (.right _ _))
      exact ⟨.refl _, .refl _, .mul (.refl _) (.noMore _ _), decimal,
        .mul zero_within_numeral (.refl _), marked (by decide)⟩
  case binaryPrefix | hexPrefix => exact .mul (.refl _) (.noMore _ _)
  case binary | hex => exact .onceMore _ _
  case decimal =>
      have longer : Within (decimalNumber * oneOf digits) decimalNumber :=
        .trans (.distrib _ _ _)
          (.sum (.trans (.oneMore _ _) (.left _ _)) (.trans (.oneMore _ _) (.right _ _)))
      exact ⟨longer, .mul decimal_within_numeral (.refl _), .refl _, marked (by decide)⟩
  case identifier => exact .oneMore _ _
  case stringBody => exact ⟨.oneMore _ _, .refl _⟩
  case octal =>
      have decimal : Within (oneOf ['0'] * (oneOf octalDigits).repeated * oneOf ['8', '9'])
          decimalNumber :=
        .trans (.mul (.mul (.refl _) (.repeated_star _)) (.refl _))
          (.trans (.noMore _ _) (.right _ _))
      exact ⟨.onceMore _ _, decimal, .mul octal_within_numeral (.refl _)⟩
  case point => exact ⟨.mul (.refl _) (.noMore _ _), marked (by decide)⟩
  case fraction => exact ⟨.onceMore _ _, .refl _, marked (by decide)⟩
  case integerExponent | floatExponent => exact ⟨.refl _, exponent_unsigned _⟩
  case integerExponentSign | floatExponentSign => exact exponent_signed _
  case integerExponentDigits => exact exponent_more _
  case floatExponentDigits => exact ⟨exponent_more _, marked (by decide)⟩
  case charOpen | charBody => exact .refl _

/-- Every step follows an arrow. -/
theorem exists_arrow {state after : State} {char : Char} (step : state.next? char = some after) :
    ∃ arrow ∈ state.arrows, char ∈ arrow.1 ∧ arrow.2 = after := by
  -- a Boolean check runs over the alphabet only, not over all characters
  have checked : (all.all fun state => Automaton.alphabet.all fun char =>
      decide (∀ after ∈ state.next? char,
        ∃ arrow ∈ state.arrows, char ∈ arrow.1 ∧ arrow.2 = after)) = true := by
    decide +kernel
  have ascii := Automaton.mem_alphabet.mpr (ascii_of_next? step)
  have listed := List.all_eq_true.mp (List.all_eq_true.mp checked state state.mem_all) char ascii
  exact of_decide_eq_true listed after step

/-- What has been read matches the pattern of the state. -/
theorem pattern_run? {state last : State} {front word : List Char}
    (matched : front ∈ state.pattern.matches') (reached : state.run? word = some last) :
    front ++ word ∈ last.pattern.matches' := by
  induction word generalizing state front with
  | nil =>
      obtain rfl := Option.some.inj reached
      rwa [List.append_nil]
  | cons char rest ih =>
      obtain ⟨after, step, later⟩ := Option.bind_eq_some_iff.mp reached
      obtain ⟨arrow, listed, member, rfl⟩ := exists_arrow step
      have single : [char] ∈ (oneOf arrow.1).matches' := mem_oneOf.mpr ⟨char, member, rfl⟩
      have longer := state.pattern_arrow arrow listed (Language.append_mem_mul matched single)
      simpa using ih longer later

/-! ## Matches lead to the states -/

/-- Every match of the pattern leads from each of the sources to one of the targets. -/
def Leads (sources : List State) (pattern : Pattern) (targets : List State) : Prop :=
  ∀ source ∈ sources, ∀ word ∈ pattern.matches',
    ∃ target ∈ targets, source.run? word = some target

namespace Leads

variable {sources middle targets : List State} {chars : List Char}
  {front back pattern : Pattern}

theorem nothing (states : List State) : Leads states 1 states := by
  intro source listed word matched
  obtain rfl : word = [] := matched
  exact ⟨source, listed, rfl⟩

/-- One character leads from each of the sources to one of the targets. -/
theorem oneOf (steps : (sources.all fun source => chars.all fun char =>
      targets.any fun target => source.next? char == some target) = true) :
    Leads sources (Pattern.oneOf chars) targets := by
  intro source listed word matched
  obtain ⟨char, member, rfl⟩ := mem_oneOf.mp matched
  have onward := List.all_eq_true.mp (List.all_eq_true.mp steps source listed) char member
  obtain ⟨target, found, step⟩ := List.any_eq_true.mp onward
  exact ⟨target, found, by rw [run?, beq_iff_eq.mp step]; rfl⟩

theorem mul (first : Leads sources front middle) (second : Leads middle back targets) :
    Leads sources (front * back) targets := by
  intro source listed word matched
  obtain ⟨start, startMatched, rest, restMatched, rfl⟩ := Language.mem_mul.mp matched
  obtain ⟨between, passed, begun⟩ := first source listed start startMatched
  obtain ⟨target, found, ended⟩ := second between passed rest restMatched
  exact ⟨target, found, by rw [run?_append, begun, Option.bind_some, ended]⟩

theorem sum (one : Leads sources front targets) (other : Leads sources back targets) :
    Leads sources (front + back) targets := by
  intro source listed word matched
  rcases matched with first | second
  · exact one source listed word first
  · exact other source listed word second

/-- A repetition stays among states that its pattern does not leave. -/
theorem star (stays : Leads targets pattern targets) : Leads targets pattern.star targets := by
  intro source listed word matched
  obtain ⟨parts, rfl, each⟩ := Language.mem_kstar.mp matched
  clear matched
  induction parts generalizing source with
  | nil => exact ⟨source, listed, rfl⟩
  | cons part rest ih =>
      rw [List.forall_mem_cons] at each
      obtain ⟨after, passed, begun⟩ := stays source listed part each.1
      obtain ⟨target, found, ended⟩ := ih after passed each.2
      refine ⟨target, found, ?_⟩
      rw [List.flatten_cons, run?_append, begun, Option.bind_some, ended]

theorem mono {fewer more : List State} (leads : Leads sources pattern targets)
    (before : fewer ⊆ sources) (after : targets ⊆ more) : Leads fewer pattern more := by
  intro source listed word matched
  obtain ⟨target, found, reached⟩ := leads source (before listed) word matched
  exact ⟨target, after found, reached⟩

theorem repeated (first : Leads sources pattern targets) (more : Leads targets pattern targets) :
    Leads sources pattern.repeated targets :=
  .mul first more.star

/-- An exponent is read by way of two states in front of its digits. -/
theorem exponent {source mark sign last : State}
    (marked : Leads [source] (Pattern.oneOf ['e', 'E']) [mark])
    (signed : Leads [mark] (Pattern.oneOf ['-']) [sign])
    (first : Leads [mark, sign] (Pattern.oneOf nonzeroDigits) [last])
    (more : Leads [last] (Pattern.oneOf digits) [last]) :
    Leads [source] Pattern.exponent [last] := by
  have unsigned : Leads [mark] 1 [mark, sign] := (nothing [mark]).mono (by simp) (by simp)
  have optional : Leads [mark] (Pattern.oneOf ['-']).optional [mark, sign] :=
    .sum unsigned (signed.mono (List.Subset.refl _) (by simp))
  exact .mul (.mul (.mul marked optional) first) more.star

theorem numeral : Leads [.start] Pattern.numeral [.zero, .octal, .decimal] :=
  .repeated (.oneOf (by decide)) (.oneOf (by decide))

theorem decimalNumber : Leads [.start] Pattern.decimalNumber [.decimal] := by
  have more : Leads [.decimal] (Pattern.oneOf digits).star [.decimal] :=
    .star (.oneOf (by decide))
  have first : Leads [.start] (Pattern.oneOf nonzeroDigits) [.decimal] :=
    .oneOf (by decide)
  have zero : Leads [.start] (Pattern.oneOf ['0']) [.zero, .octal] := .oneOf (by decide)
  have octal : Leads [.zero, .octal] (Pattern.oneOf octalDigits).star [.zero, .octal] :=
    .star (.oneOf (by decide))
  have high : Leads [.zero, .octal] (Pattern.oneOf ['8', '9']) [.decimal] := .oneOf (by decide)
  exact .sum (.mul first more) (.mul (.mul (.mul zero octal) high) more)

theorem point : Leads [.start] (Pattern.numeral * Pattern.oneOf ['.']) [.point] :=
  .mul numeral (.oneOf (by decide))

theorem fraction :
    Leads [.start] (Pattern.numeral * Pattern.oneOf ['.'] * Pattern.numeral) [.fraction] :=
  .mul point (.repeated (.oneOf (by decide)) (.oneOf (by decide)))

theorem integerExponent : Leads [.decimal] Pattern.exponent [.integerExponentDigits] := by
  have marked : Leads [.decimal] (Pattern.oneOf ['e', 'E']) [.integerExponent] :=
    .oneOf (by decide)
  have signed : Leads [.integerExponent] (Pattern.oneOf ['-']) [.integerExponentSign] :=
    .oneOf (by decide)
  exact .exponent marked signed (.oneOf (by decide)) (.oneOf (by decide))

theorem floatExponent : Leads [.fraction] Pattern.exponent [.floatExponentDigits] := by
  have marked : Leads [.fraction] (Pattern.oneOf ['e', 'E']) [.floatExponent] :=
    .oneOf (by decide)
  have signed : Leads [.floatExponent] (Pattern.oneOf ['-']) [.floatExponentSign] :=
    .oneOf (by decide)
  exact .exponent marked signed (.oneOf (by decide)) (.oneOf (by decide))

theorem floatSuffix : Leads [.start] State.floatSuffix.pattern [.floatSuffix] := by
  have mark : Leads markable floatMark [.floatSuffix] := .oneOf (by decide)
  have zero : Leads [.start] (Pattern.oneOf ['0']) [.zero] := .oneOf (by decide)
  have anywhere {state : State} {pattern : Pattern} (leads : Leads [.start] pattern [state])
      (listed : state ∈ markable) : Leads [.start] pattern markable :=
    leads.mono (List.Subset.refl _) (by simpa using listed)
  have number : Leads [.start] (Pattern.oneOf ['0'] + Pattern.decimalNumber) markable :=
    .sum (anywhere zero (by decide)) (anywhere decimalNumber (by decide))
  have pointed := anywhere fraction (by decide)
  have exponent := anywhere (.mul fraction floatExponent) (by decide)
  exact .mul (.sum (.sum (.sum number (anywhere point (by decide))) pointed) exponent) mark

end Leads

/-- Every match of a state's pattern leads there. -/
theorem pattern_leads (state : State) : Leads [.start] state.pattern [state] := by
  have zero : Leads [.start] (oneOf ['0']) [.zero] := .oneOf (by decide)
  have name : Leads [.start] (oneOf nameStarts) [.identifier] := .oneOf (by decide)
  have quotes : Leads [.start] (oneOf ['"']) [.stringBody] := .oneOf (by decide)
  have string : Leads [.start] State.stringBody.pattern [.stringBody] :=
    .mul quotes (.star (.oneOf (by decide)))
  have quote : Leads [.start] (oneOf ['\'']) [.charOpen] := .oneOf (by decide)
  have char : Leads [.start] State.charBody.pattern [.charBody] :=
    .mul quote (.oneOf (by decide))
  have whole : Leads [.start] State.integerExponent.pattern [.integerExponent] :=
    .mul .decimalNumber (.oneOf (by decide))
  have part : Leads [.start] State.floatExponent.pattern [.floatExponent] :=
    .mul .fraction (.oneOf (by decide))
  cases state with
  | start => exact .nothing _
  | zero => exact zero
  | binaryPrefix => exact .mul zero (.oneOf (by decide))
  | binary =>
      have mark : Leads [.zero] (oneOf ['b', 'B']) [.binaryPrefix] := .oneOf (by decide)
      exact .mul (.mul zero mark) (.repeated (.oneOf (by decide)) (.oneOf (by decide)))
  | decimal => exact .decimalNumber
  | identifier => exact .mul name (.star (.oneOf (by decide)))
  | stringBody => exact string
  | stringEnd => exact .mul string (.oneOf (by decide))
  | hexPrefix => exact .mul zero (.oneOf (by decide))
  | hex =>
      have mark : Leads [.zero] (oneOf ['x', 'X']) [.hexPrefix] := .oneOf (by decide)
      exact .mul (.mul zero mark)
        (.repeated (.oneOf (by decide)) (.oneOf (by decide)))
  | octal =>
      exact .mul zero (.repeated (.oneOf (by decide)) (.oneOf (by decide)))
  | point => exact .point
  | fraction => exact .fraction
  | integerExponent => exact whole
  | integerExponentSign => exact .mul whole (.oneOf (by decide))
  | integerExponentDigits => exact .mul .decimalNumber .integerExponent
  | floatExponent => exact part
  | floatExponentSign => exact .mul part (.oneOf (by decide))
  | floatExponentDigits => exact .mul .fraction .floatExponent
  | floatSuffix => exact .floatSuffix
  | charOpen => exact quote
  | charBody => exact char
  | charEnd => exact .mul char (.oneOf (by decide))

/-- A word leads to a state if and only if it matches the pattern of the state. -/
theorem run?_eq_some_iff (word : List Char) (state : State) :
    State.start.run? word = some state ↔ word ∈ state.pattern.matches' := by
  constructor
  · intro reached
    have nothing : [] ∈ State.start.pattern.matches' := rfl
    exact pattern_run? nothing reached
  · intro matched
    obtain ⟨target, found, reached⟩ :=
      state.pattern_leads .start (List.mem_singleton_self _) word matched
    rwa [List.mem_singleton.mp found] at reached

end Lexeme.State

namespace TokenKind

/-- A floating point number has a point and then perhaps a fraction, an exponent and a mark,
or a mark and no point. -/
theorem matches_float : TokenKind.float.pattern.matches' =
    State.point.pattern.matches' + State.fraction.pattern.matches' +
      State.floatExponentDigits.pattern.matches' + State.floatSuffix.pattern.matches' := by
  have fraction : (oneOf digits).star.matches' = 1 + numeral.matches' :=
    (Language.one_add_self_mul_kstar_eq_kstar _).symm
  have unfolded (pointed fraction exponent mark plain : Language Char) :
      pointed * ((1 + fraction) + fraction * exponent) * (1 + mark) + plain * mark =
        pointed + pointed * fraction + pointed * fraction * exponent +
          (plain + pointed + pointed * fraction + pointed * fraction * exponent) * mark := by
    simp only [mul_add, add_mul, mul_one, mul_assoc, add_assoc, add_comm, add_left_comm]
  calc
    TokenKind.float.pattern.matches' =
        (numeral * oneOf ['.']).matches' *
            ((oneOf digits).star.matches' + numeral.matches' * exponent.matches') *
            (1 + floatMark.matches') +
          (oneOf ['0'] + decimalNumber).matches' * floatMark.matches' := rfl
    _ = _ := by
      rw [fraction]
      exact unfolded _ _ _ _ _

/-- The matches of a kind lead to the states that accept it. -/
theorem mem_pattern_iff (kind : TokenKind) (word : List Char) :
    word ∈ kind.pattern.matches' ↔
      ∃ state : State, word ∈ state.pattern.matches' ∧ state.kind? = some kind := by
  constructor
  · intro matched
    cases kind with
    | integer =>
        rcases matched with (zero | decimal) | exponent
        · exact ⟨.zero, zero, rfl⟩
        · exact ⟨.decimal, decimal, rfl⟩
        · exact ⟨.integerExponentDigits, exponent, rfl⟩
    | float =>
        rw [matches_float] at matched
        rcases matched with ((point | fraction) | exponent) | suffix
        · exact ⟨.point, point, rfl⟩
        · exact ⟨.fraction, fraction, rfl⟩
        · exact ⟨.floatExponentDigits, exponent, rfl⟩
        · exact ⟨.floatSuffix, suffix, rfl⟩
    | octal => exact ⟨.octal, matched, rfl⟩
    | binary => exact ⟨.binary, matched, rfl⟩
    | hexadecimal => exact ⟨.hex, matched, rfl⟩
    | identifier => exact ⟨.identifier, matched, rfl⟩
    | string => exact ⟨.stringEnd, matched, rfl⟩
    | char => exact ⟨.charEnd, matched, rfl⟩
    | keyword | operator | delimiter | error => exact absurd matched (Language.notMem_zero word)
  · rintro ⟨state, matched, accepts⟩
    cases state <;> cases accepts
    case zero.refl => exact .inl (.inl matched)
    case decimal.refl => exact .inl (.inr matched)
    case integerExponentDigits.refl => exact .inr matched
    case point.refl => exact matches_float ▸ .inl (.inl (.inl matched))
    case fraction.refl => exact matches_float ▸ .inl (.inl (.inr matched))
    case floatExponentDigits.refl => exact matches_float ▸ .inl (.inr matched)
    case floatSuffix.refl => exact matches_float ▸ .inr matched
    all_goals exact matched

end TokenKind

/-- The automaton accepts a word with a kind if and only if the word matches the pattern of the
kind; so no word has two kinds, and what matches no pattern is rejected. -/
theorem Automaton.accepts_patterns (word : List Char) :
    (∀ kind, language.accepted? word = some kind ↔ word ∈ kind.pattern.matches') ∧
      {kind : TokenKind | word ∈ kind.pattern.matches'}.Subsingleton ∧
      (language.accepted? word = none ↔ ∀ kind : TokenKind, word ∉ kind.pattern.matches') := by
  have accepts (kind : TokenKind) :
      language.accepted? word = some kind ↔ word ∈ kind.pattern.matches' := by
    rw [accepted?_language, Option.bind_eq_some_iff, kind.mem_pattern_iff]
    simp only [State.run?_eq_some_iff]
  refine ⟨accepts, ?_, ?_⟩
  · intro one matched other alsoMatched
    have same := ((accepts one).mpr matched).symm.trans ((accepts other).mpr alsoMatched)
    exact Option.some.inj same
  · simp only [Option.eq_none_iff_forall_ne_some, ne_eq, accepts]

/-- A `9` makes a number decimal, whatever digits stand between it and the leading zero, and
only a decimal number has an exponent. -/
example : "0179e-20".toList ∈ TokenKind.integer.pattern.matches' ∧
    "0171e-20".toList ∉ TokenKind.integer.pattern.matches' := by
  decide +kernel

end StackLang
