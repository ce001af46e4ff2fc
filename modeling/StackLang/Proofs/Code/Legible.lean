import StackLang.Code.Instruction
import StackLang.Proofs.Text.Lines

/-!
# Instructions that are read back

An instruction is legible if blanks surround neither of its parameters and the second one holds
no comma.  Exactly the legible instructions are read back from their texts, and every
instruction that was read is legible.
-/

namespace StackLang

open Text

theorem Opcode.text_visible (opcode : Opcode) :
    ∀ char ∈ opcode.text.toList, isBlank char = false ∧ char ≠ '\n' ∧ char ≠ ' ' := by
  cases opcode <;> exact forall_of_all (by decide)

theorem Opcode.text_nonempty (opcode : Opcode) : opcode.text.toList ≠ [] := by
  cases opcode <;> decide

namespace Instruction

theorem toList_text (instruction : Instruction) :
    instruction.text.toList = instruction.opcode.text.toList ++
      ' ' :: (instruction.first.toList ++ ',' :: ' ' :: instruction.second.toList) := by
  simp [text, String.toList_append]

/-- An instruction whose parameters the reader of its text finds again. -/
structure Legible (instruction : Instruction) : Prop where
  first : Tight instruction.first.toList
  second : Tight instruction.second.toList
  whole : ',' ∉ instruction.second.toList

/-- The second parameter is found behind the last comma, also if it is empty and the space in
front of it has been trimmed away. -/
theorem trimChars_trimEnd_space {chars : List Char} (tight : Tight chars) :
    trimChars (trimEnd (' ' :: chars)) = chars := by
  cases chars with
  | nil => rfl
  | cons char rest =>
      have kept : trimEnd (' ' :: char :: rest) = ' ' :: char :: rest := by
        apply trimEnd_of_getLast?
        rw [List.getLast?_cons_cons]
        exact tight.2
      rw [kept, trimChars_space, trimChars_tight tight]

theorem ofText_text_of_legible {instruction : Instruction} (legible : instruction.Legible) :
    ofText instruction.text = .ok instruction := by
  have name : ' ' ∉ instruction.opcode.text.toList := by
    intro member
    exact (instruction.opcode.text_visible ' ' member).2.2 rfl
  have visible : Tight instruction.opcode.text.toList := tight_of_all fun char member =>
    (instruction.opcode.text_visible char member).1
  have comma : Tight [','] := tight_of_all (forall_of_all (by decide))
  have front := visible.append comma instruction.opcode.text_nonempty nofun
    (' ' :: instruction.first.toList)
  have trimmed := trimChars_append front (by simp) (' ' :: instruction.second.toList)
  have chars : trimChars instruction.text.toList = instruction.opcode.text.toList ++
      ' ' :: (instruction.first.toList ++ ',' :: trimEnd (' ' :: instruction.second.toList)) := by
    rw [toList_text]
    simpa using trimmed
  have last : ',' ∉ trimEnd (' ' :: instruction.second.toList) := by
    intro member
    rw [trimEnd, List.mem_reverse] at member
    have inside := List.mem_reverse.mp ((List.dropWhile_suffix isBlank).mem member)
    rcases List.mem_cons.mp inside with impossible | inSecond
    · exact absurd impossible (by decide)
    · exact legible.whole inSecond
  rw [ofText, chars, splitFirst?_append name]
  dsimp only
  rw [splitLast?_append last]
  dsimp only
  rw [trimChars_tight legible.first, trimChars_trimEnd_space legible.second, String.ofList_toList,
    String.ofList_toList, String.ofList_toList, opcodeOf, Opcode.ofText?_text]
  rfl

/-- What is read is trimmed, and no comma follows the last one. -/
theorem legible_of_ofText {text : String} {instruction : Instruction}
    (read : ofText text = .ok instruction) : instruction.Legible := by
  rw [ofText] at read
  split at read
  · contradiction
  · next name parameters _ =>
      split at read
      · contradiction
      · next first second split =>
          have absent : ',' ∉ second := (splitLast?_eq_some_iff.mp split).1
          cases known : opcodeOf (String.ofList name) with
          | error reason =>
              rw [known] at read
              contradiction
          | ok opcode =>
              rw [known] at read
              obtain rfl := Except.ok.inj read
              constructor
              · rw [String.toList_ofList]
                exact tight_trimChars first
              · rw [String.toList_ofList]
                exact tight_trimChars second
              · rw [String.toList_ofList]
                intro member
                exact absent (mem_of_mem_trimChars member)

/-- An instruction is read back from its text if and only if it is legible.  What was read from
any text is legible, so writing it and reading it again changes nothing. -/
theorem text_round_trip :
    (∀ instruction : Instruction,
      ofText instruction.text = .ok instruction ↔ instruction.Legible) ∧
    ∀ (text : String) (instruction : Instruction), ofText text = .ok instruction →
      instruction.Legible ∧ ofText instruction.text = .ok instruction := by
  constructor
  · intro instruction
    constructor
    · exact legible_of_ofText
    · exact ofText_text_of_legible
  · intro text instruction read
    have legible := legible_of_ofText read
    exact ⟨legible, ofText_text_of_legible legible⟩

end Instruction

end StackLang
