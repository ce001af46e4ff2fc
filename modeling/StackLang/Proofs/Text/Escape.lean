import StackLang.Proofs.Numeral.Decimal
import StackLang.Text.Escape

/-!
# Escaped characters that are read back

`unescape?` reads escaped characters one after the other.  Since it gives back all characters
that were escaped, different characters are never written alike.
-/

namespace StackLang.Text

open Numeral (digit? extend?)

/-- What a reader of escaped characters is in the middle of. -/
inductive Escaped where
  | nothing
  /-- Behind a backslash. -/
  | mark
  /-- In front of the brace that opens a code point. -/
  | brace
  /-- In a code point whose digits so far have this value. -/
  | code (value : Nat)

/-- The character that stands behind a backslash for another one. -/
def ofMark? : Char → Option Char
  | 't' => some '\t'
  | 'r' => some '\r'
  | 'n' => some '\n'
  | '\'' => some '\''
  | '"' => some '"'
  | '\\' => some '\\'
  | _ => none

/-- The characters that escaped ones stand for. -/
def unescapeFrom? : Escaped → List Char → Option (List Char)
  | .nothing, [] => some []
  | .nothing, char :: rest =>
      if char = '\\' then unescapeFrom? .mark rest
      else (unescapeFrom? .nothing rest).map (char :: ·)
  | .mark, char :: rest =>
      if char = 'u' then unescapeFrom? .brace rest
      else (ofMark? char).bind fun meant => (unescapeFrom? .nothing rest).map (meant :: ·)
  | .brace, char :: rest => if char = '\x7b' then unescapeFrom? (.code 0) rest else none
  | .code value, char :: rest =>
      if char = '\x7d' then (unescapeFrom? .nothing rest).map (Char.ofNat value :: ·)
      else (digit? 16 char).bind fun digit => unescapeFrom? (.code (value * 16 + digit)) rest
  | _, [] => none

/-- The characters that a text of escaped characters stands for. -/
def unescape? (chars : List Char) : Option (List Char) := unescapeFrom? .nothing chars

theorem unescapeFrom?_code {value code : Nat} {digits : List Char}
    (read : extend? 16 value digits = some code) (rest : List Char) :
    unescapeFrom? (.code value) (digits ++ '\x7d' :: rest) =
      (unescapeFrom? .nothing rest).map (Char.ofNat code :: ·) := by
  induction digits generalizing value with
  | nil =>
      obtain rfl := Option.some.inj read
      rfl
  | cons char later ih =>
      obtain ⟨digit, first, others⟩ := Option.bind_eq_some_iff.mp read
      have inside : char ≠ '\x7d' := by
        rintro rfl
        have noDigit : digit? 16 '\x7d' = none := by decide
        rw [noDigit] at first
        contradiction
      rw [List.cons_append, unescapeFrom?, if_neg inside, first]
      exact ih others

/-- What `escapeChar` writes for a character without a mark of its own. -/
theorem escapeChar_cases (char : Char) :
    (∃ mark, mark ≠ 'u' ∧ ofMark? mark = some char ∧
      (escapeChar char).toList = ['\\', mark]) ∨
    (char ≠ '\\' ∧ 0x20 ≤ char.toNat ∧ (escapeChar char).toList = [char]) ∨
    (escapeChar char).toList =
      '\\' :: 'u' :: '\x7b' :: (Nat.toDigits 16 char.toNat ++ ['\x7d']) := by
  unfold escapeChar
  split
  · exact .inl ⟨'t', by decide, rfl, rfl⟩
  · exact .inl ⟨'r', by decide, rfl, rfl⟩
  · exact .inl ⟨'n', by decide, rfl, rfl⟩
  · exact .inl ⟨'\'', by decide, rfl, rfl⟩
  · exact .inl ⟨'"', by decide, rfl, rfl⟩
  · exact .inl ⟨'\\', by decide, rfl, rfl⟩
  · next noBackslash =>
      right
      split
      · next visible =>
          simp only [Bool.and_eq_true, decide_eq_true_eq] at visible
          exact .inl ⟨noBackslash, visible.1, String.toList_singleton char⟩
      · right
        simp [String.toList_append]

theorem unescapeFrom?_escapeChar (char : Char) (rest : List Char) :
    unescapeFrom? .nothing ((escapeChar char).toList ++ rest) =
      (unescapeFrom? .nothing rest).map (char :: ·) := by
  rcases escapeChar_cases char with ⟨mark, other, meant, written⟩ | ⟨plain, -, written⟩ | written
  · rw [written, List.cons_append, unescapeFrom?, if_pos rfl, List.singleton_append, unescapeFrom?,
      if_neg other, meant]
    rfl
  · rw [written, List.singleton_append, unescapeFrom?, if_neg plain]
  · have digits := Numeral.extend?_toDigits (by decide) (Nat.le_refl 16) char.toNat
    have code := unescapeFrom?_code digits rest
    rw [Char.ofNat_toNat] at code
    rw [written, List.cons_append, List.cons_append, List.cons_append, List.append_assoc,
      unescapeFrom?, if_pos rfl, unescapeFrom?, if_pos rfl, unescapeFrom?, if_pos rfl]
    exact code

theorem toList_escape_cons (char : Char) (rest : List Char) :
    (escape (char :: rest)).toList = (escapeChar char).toList ++ (escape rest).toList := by
  rw [escape, List.map_cons, String.join_cons, String.toList_append]
  rfl

/-- Characters are read back from their escaped forms. -/
theorem unescape?_escape (chars : List Char) : unescape? (escape chars).toList = some chars := by
  induction chars with
  | nil => rfl
  | cons char rest ih =>
      rw [unescape?] at ih ⊢
      rw [toList_escape_cons, unescapeFrom?_escapeChar, ih]
      rfl

/-- Escaped characters stay on one line. -/
theorem not_mem_escape (chars : List Char) : '\n' ∉ (escape chars).toList := by
  have digits (number : Nat) : '\n' ∉ Nat.toDigits 16 number := by
    intro member
    have read := Numeral.extend?_toDigits (by decide) (Nat.le_refl 16) number
    exact absurd (Numeral.isSome_digit?_of_extend? read '\n' member) (by decide)
  induction chars with
  | nil => simp [escape]
  | cons char rest ih =>
      rw [toList_escape_cons, List.mem_append, not_or]
      refine ⟨?_, ih⟩
      rcases escapeChar_cases char with ⟨mark, -, meant, written⟩ | ⟨-, low, written⟩ | written
      · have noMark : mark ≠ '\n' := by
          rintro rfl
          contradiction
        simp [written, Ne.symm noMark]
      · have noFeed : char ≠ '\n' := by
          rintro rfl
          exact absurd low (by decide)
        simp [written, Ne.symm noFeed]
      · simp [written, digits]

end StackLang.Text
