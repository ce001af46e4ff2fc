import Mathlib.Algebra.Group.Nat.Defs
import StackLang.Numeral.Integer
import StackLang.Proofs.Text.Lines

/-!
# Whole numbers that are read back

The readers of whole numbers give back every number from its digits.
-/

namespace StackLang.Numeral

theorem digit?_of_isDigit {char : Char} (decimal : char.isDigit = true) :
    digit? 10 char = some (char.toNat - '0'.toNat) := by
  have bounds : '0' ≤ char ∧ char ≤ '9' := by
    simpa [Char.isDigit, Char.le_def] using decimal
  have low : 48 ≤ char.toNat := bounds.1
  have high : char.toNat ≤ 57 := bounds.2
  have small : char.toNat - '0'.toNat < 10 := by
    show char.toNat - 48 < 10
    omega
  rw [digit?, digitValue?, if_pos bounds]
  simp only [Option.filter_some, decide_eq_true_eq, if_pos small]

theorem extend?_of_digits {chars : List Char} (digits : ∀ char ∈ chars, char.isDigit = true)
    (value : Nat) : extend? 10 value chars = some (Nat.ofDigitChars 10 chars value) := by
  induction chars generalizing value with
  | nil => rw [extend?, Nat.ofDigitChars_nil]
  | cons char rest ih =>
      rw [extend?, digit?_of_isDigit (digits char (by simp)), Nat.ofDigitChars_cons,
        Nat.mul_comm 10 value]
      exact ih (fun other member => digits other (by simp [member])) _

theorem natural?_of_digits {chars : List Char} (nonempty : chars ≠ [])
    (digits : ∀ char ∈ chars, char.isDigit = true) :
    natural? 10 chars = some (Nat.ofDigitChars 10 chars 0) := by
  rw [natural?, if_neg (by simpa using nonempty)]
  exact extend?_of_digits digits 0

/-- A text without a sign is read as a natural number. -/
theorem integer?_of_digits {chars : List Char} (nonempty : chars ≠ [])
    (digits : ∀ char ∈ chars, char.isDigit = true) :
    integer? 10 chars = some (Nat.ofDigitChars 10 chars 0 : Int) := by
  have natural := natural?_of_digits nonempty digits
  unfold integer?
  split
  · exact absurd (digits '+' (by simp)) (by decide)
  · exact absurd (digits '-' (by simp)) (by decide)
  · rw [natural]
    rfl

theorem toDigits_isDigit (number : Nat) : ∀ char ∈ Nat.toDigits 10 number, char.isDigit = true := by
  intro char member
  exact Nat.isDigit_of_mem_toDigits (by decide) (by decide) member

theorem toList_toString (number : Nat) : (toString number).toList = Nat.toDigits 10 number :=
  Nat.toList_repr

theorem toString_tight (number : Nat) : Text.Tight (toString number).toList := by
  rw [toList_toString]
  exact Text.tight_of_all fun char member => Text.isBlank_of_isDigit (toDigits_isDigit _ char member)

theorem toString_injective : Function.Injective (toString : Nat → String) := by
  intro left right same
  have digits : Nat.toDigits 10 left = Nat.toDigits 10 right := by
    rw [← toList_toString, ← toList_toString, same]
  calc
    left = Nat.ofDigitChars 10 (Nat.toDigits 10 left) 0 := (Nat.ofDigitChars_ten_toDigits).symm
    _ = Nat.ofDigitChars 10 (Nat.toDigits 10 right) 0 := by rw [digits]
    _ = right := Nat.ofDigitChars_ten_toDigits

/-- Texts that are numbered behind the same words are different. -/
theorem append_toString_injective (front : String) :
    Function.Injective fun number : Nat => front ++ toString number := by
  intro left right same
  have chars := congrArg String.toList same
  simp only [String.toList_append] at chars
  exact toString_injective (String.toList_injective (List.append_cancel_left chars))

theorem extend?_append (radix value : Nat) (front back : List Char) :
    extend? radix value (front ++ back) =
      (extend? radix value front).bind fun reached => extend? radix reached back := by
  induction front generalizing value with
  | nil => rfl
  | cons char rest ih =>
      rw [List.cons_append, extend?, extend?, Option.bind_assoc]
      congr
      funext digit
      exact ih (value * radix + digit)

/-- Only digits are read. -/
theorem isSome_digit?_of_extend? {radix value number : Nat} {chars : List Char}
    (read : extend? radix value chars = some number) :
    ∀ char ∈ chars, (digit? radix char).isSome = true := by
  induction chars generalizing value with
  | nil => exact nofun
  | cons char rest ih =>
      obtain ⟨digit, first, later⟩ := Option.bind_eq_some_iff.mp read
      intro other member
      rcases List.mem_cons.mp member with rfl | inRest
      · rw [first]
        rfl
      · exact ih later other inRest

theorem digit?_digitChar {radix digit : Nat} (letters : radix ≤ 16) (small : digit < radix) :
    digit? radix digit.digitChar = some digit := by
  have values : ∀ value < 16, digitValue? (Nat.digitChar value) = some value := by decide
  rw [digit?, values digit (Nat.lt_of_lt_of_le small letters), Option.filter_some,
    if_pos (decide_eq_true small)]

theorem extend?_toDigits {radix : Nat} (several : 1 < radix) (letters : radix ≤ 16)
    (number : Nat) : extend? radix 0 (Nat.toDigits radix number) = some number := by
  induction number using Nat.strongRecOn with
  | ind number ih =>
      rw [Nat.toDigits_eq_if several]
      by_cases small : number < radix
      · rw [if_pos small, extend?, digit?_digitChar letters small, Option.bind_some, extend?,
          Nat.zero_mul, Nat.zero_add]
      · have positive : 0 < number := by omega
        have last : number % radix < radix := Nat.mod_lt number (by omega)
        rw [if_neg small, extend?_append, ih (number / radix) (Nat.div_lt_self positive several),
          Option.bind_some, extend?, digit?_digitChar letters last, Option.bind_some, extend?,
          Nat.div_add_mod' number radix]

/-- A number is read back from its digits in a radix. -/
theorem natural?_toDigits_of_le {radix : Nat} (several : 1 < radix) (letters : radix ≤ 16)
    (number : Nat) : natural? radix (Nat.toDigits radix number) = some number := by
  rw [natural?, if_neg (by simp)]
  exact extend?_toDigits several letters number

theorem natural?_toDigits (number : Nat) : natural? 10 (Nat.toDigits 10 number) = some number :=
  natural?_toDigits_of_le (by decide) (by decide) number

/-- A natural number is read back from its digits if it fits into 64 bits. -/
theorem natural64?_toString (number : Nat) :
    natural64? (toString number) = if number < UInt64.size then some number else none := by
  have digits : natural? 10 (toString number).toList = some number := by
    rw [toList_toString, natural?_toDigits]
  unfold natural64?
  split
  · next rest signed =>
      have sign : '+' ∈ Nat.toDigits 10 number := by
        rw [← toList_toString, signed]
        exact List.mem_cons_self
      exact absurd (toDigits_isDigit number '+' sign) (by decide)
  · show (natural? 10 (toString number).toList).filter _ = _
    rw [digits]
    simp [Option.filter_some]

theorem integer?_toDigits (number : Nat) :
    integer? 10 (Nat.toDigits 10 number) = some (number : Int) := by
  rw [integer?_of_digits Nat.toDigits_ne_nil (toDigits_isDigit number),
    Nat.ofDigitChars_ten_toDigits]

theorem integer?_toString (number : Int) : integer? 10 (toString number).toList = some number := by
  cases number with
  | ofNat magnitude => exact (congrArg _ (toList_toString magnitude)).trans (integer?_toDigits _)
  | negSucc less =>
      have written : (toString (Int.negSucc less)).toList =
          '-' :: Nat.toDigits 10 (less + 1) := by
        rw [← Nat.toList_repr]
        show ("-" ++ Nat.repr (less + 1)).toList = _
        rw [String.toList_append]
        rfl
      rw [written, integer?, natural?_toDigits]
      rfl

theorem int64?_toString {number : Int} (fits : FitsInt64 number) :
    int64? (toString number) = some (Int64.ofInt number) := by
  rw [int64?, int64OfRadix?, integer?_toString]
  simp only [if_pos fits]

theorem int64?_toString_nat {number : Nat} (small : number < 2 ^ 63) :
    int64? (toString number) = some (Int64.ofNat number) := by
  have fits : FitsInt64 (number : Int) := And.intro (by omega) (by omega)
  have same : toString (number : Int) = toString number := rfl
  rw [← same, int64?_toString fits, Int64.ofInt_eq_ofNat]

/-- Integers are read back from the text that is written for them. -/
theorem int64?_int64Text (number : Int64) : int64? (int64Text number) = some number := by
  have fits : FitsInt64 number.toInt := And.intro number.le_toInt number.toInt_lt
  rw [int64Text, int64?_toString fits, Int64.ofInt_toInt]

/-- A text that starts with neither a sign nor a digit writes no number. -/
theorem int64?_of_first {text : String} {first : Char} {rest : List Char}
    (chars : text.toList = first :: rest) (plain : first ≠ '+' ∧ first ≠ '-')
    (noDigit : digit? 10 first = none) : int64? text = none := by
  have nothing : integer? 10 text.toList = none := by
    rw [chars]
    unfold integer?
    split
    · next same => exact absurd (List.cons.inj same).1 plain.1
    · next same => exact absurd (List.cons.inj same).1 plain.2
    · simp [natural?, extend?, noDigit]
  rw [int64?, int64OfRadix?, nothing]

end StackLang.Numeral
