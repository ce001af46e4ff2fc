import StackLang.Code.Assembly
import StackLang.Code.Draft
import StackLang.Machine.Image
import StackLang.Proofs.Code.Legible
import StackLang.Proofs.Machine.Setup

/-!
# Lines of bytecode that are read back

Every line of an assembly is read as what it was written for: instructions,
declarations of variables and declarations of labels.
-/

namespace StackLang

open Text

/-- A name that a declaration line can carry. -/
structure Declarable (name : String) : Prop where
  nonempty : name.toList ≠ []
  visible : ∀ char ∈ name.toList, isBlank char = false ∧ char ≠ ','
  plain : Plain name

/-- An operand that an instruction line can carry. -/
structure Carried (operand : String) : Prop where
  tight : Tight operand.toList
  unbroken : '\n' ∉ operand.toList

/-- An instruction whose line is read back. -/
structure Instruction.Writable (instruction : Instruction) : Prop where
  first : Carried instruction.first
  second : instruction.second = "0" ∨ instruction.second = "1"

theorem Instruction.Writable.second_visible {instruction : Instruction}
    (writable : instruction.Writable) :
    instruction.second.toList ≠ [] ∧
    ∀ char ∈ instruction.second.toList, isBlank char = false ∧ char ≠ ',' ∧ char ≠ '\n' := by
  rcases writable.second with zero | one
  · rw [zero]
    exact ⟨by decide, forall_of_all (by decide)⟩
  · rw [one]
    exact ⟨by decide, forall_of_all (by decide)⟩

theorem Instruction.text_tight {instruction : Instruction} (writable : instruction.Writable) :
    Tight instruction.text.toList := by
  obtain ⟨nonempty, visible⟩ := writable.second_visible
  have opcode : Tight instruction.opcode.text.toList := tight_of_all fun char member =>
    (instruction.opcode.text_visible char member).1
  have second : Tight instruction.second.toList := tight_of_all fun char member =>
    (visible char member).1
  have whole := opcode.append second instruction.opcode.text_nonempty nonempty
    (' ' :: (instruction.first.toList ++ [',', ' ']))
  rw [Instruction.toList_text]
  simpa using whole

theorem Instruction.Writable.legible {instruction : Instruction} (writable : instruction.Writable) :
    instruction.Legible := by
  obtain ⟨-, visible⟩ := writable.second_visible
  constructor
  · exact writable.first.tight
  · exact tight_of_all fun char member => (visible char member).1
  · intro member
    exact (visible ',' member).2.1 rfl

/-- An instruction is read back from its line. -/
theorem Instruction.ofText_text {instruction : Instruction} (writable : instruction.Writable) :
    Instruction.ofText instruction.text = .ok instruction :=
  ofText_text_of_legible writable.legible

/-- The four fields of a declaration line. -/
theorem declarationFields?_append {name type scope : List Char} (value : List Char)
    (nameWhole : ',' ∉ name) (typeWhole : ',' ∉ type) (scopeWhole : ',' ∉ scope) :
    declarationFields? (name ++ ',' :: (type ++ ',' :: (scope ++ ',' :: value))) =
      some (String.ofList (trimChars name), String.ofList (trimChars type),
        String.ofList (trimChars scope), String.ofList (trimChars value)) := by
  rw [declarationFields?, splitFirst?_append nameWhole]
  simp only [Option.bind_eq_bind, Option.bind_some, splitFirst?_append typeWhole,
    splitFirst?_append scopeWhole]
  rfl

theorem Declarable.whole {name : String} (declarable : Declarable name) :
    ',' ∉ name.toList := by
  intro member
  exact (declarable.visible ',' member).2 rfl

theorem Declarable.tight {name : String} (declarable : Declarable name) : Tight name.toList :=
  tight_of_all fun char member => (declarable.visible char member).1

theorem TypeName.text_visible (type : TypeName) :
    ∀ char ∈ type.text.toList, isBlank char = false ∧ char ≠ ',' := by
  cases type <;> exact forall_of_all (by decide)

theorem Symbol.toList_declaration (symbol : Symbol) :
    symbol.declaration.toList = symbol.name.toList ++ ',' :: ((' ' :: symbol.type.text.toList) ++
      ',' :: ((' ' :: symbol.scope.toList) ++ ',' :: ' ' :: symbol.type.defaultText.toList)) := by
  simp [Symbol.declaration, String.toList_append]

/-- What the fields of a declaration line declare. -/
def Declared.ofFields? (name type value : String) : Option Declared :=
  match name.toList with
  | [] => none
  | '#' :: _ => (Numeral.int64? value).map fun target => .label name target
  | _ => (TypeName.ofText? type).map fun type => .variable name type

theorem Declared.ofText?_fields {text name type scope value : String}
    (fields : declarationFields? text.toList = some (name, type, scope, value)) :
    Declared.ofText? text = Declared.ofFields? name type value := by
  rw [Declared.ofText?, fields]
  rfl

theorem Declared.ofFields?_plain {name : String} (declarable : Declarable name) (type : TypeName)
    (value : String) : Declared.ofFields? name type.text value = some (.variable name type) := by
  unfold Declared.ofFields?
  split
  · next empty => exact absurd empty declarable.nonempty
  · next hidden => exact absurd (congrArg List.head? hidden) declarable.plain
  · rw [TypeName.ofText?_text]
    rfl

/-- The declaration of a variable is read back; its scope and its value are not
looked at. -/
theorem Declared.ofText?_declaration {symbol : Symbol} (name : Declarable symbol.name)
    (scope : ',' ∉ symbol.scope.toList) :
    Declared.ofText? (trim symbol.declaration) = some (.variable symbol.name symbol.type) := by
  have typeWhole : ',' ∉ ' ' :: symbol.type.text.toList := by
    intro member
    rcases List.mem_cons.mp member with impossible | inside
    · exact absurd impossible (by decide)
    · exact (symbol.type.text_visible ',' inside).2 rfl
  have scopeWhole : ',' ∉ ' ' :: symbol.scope.toList := by
    intro member
    rcases List.mem_cons.mp member with impossible | inside
    · exact absurd impossible (by decide)
    · exact scope inside
  have typeTight : Tight symbol.type.text.toList := tight_of_all fun char member =>
    (symbol.type.text_visible char member).1
  have comma : Tight [','] := tight_of_all (forall_of_all (by decide))
  have front := name.tight.append comma name.nonempty nofun
    (',' :: ((' ' :: symbol.type.text.toList) ++ ',' :: ' ' :: symbol.scope.toList))
  have trimmed := trimChars_append front (by simp [name.nonempty])
    (' ' :: symbol.type.defaultText.toList)
  generalize trimEnd (' ' :: symbol.type.defaultText.toList) = rest at trimmed
  have chars : (trim symbol.declaration).toList = symbol.name.toList ++
      ',' :: ((' ' :: symbol.type.text.toList) ++
        ',' :: ((' ' :: symbol.scope.toList) ++ ',' :: rest)) := by
    rw [trim, String.toList_ofList, Symbol.toList_declaration]
    simpa using trimmed
  have fields := declarationFields?_append rest name.whole typeWhole scopeWhole
  rw [← chars, trimChars_tight name.tight, trimChars_space, trimChars_space,
    trimChars_tight typeTight, String.ofList_toList, String.ofList_toList] at fields
  rw [Declared.ofText?_fields fields, Declared.ofFields?_plain name]

theorem Assembly.toList_labelDeclaration (name : String) (target : Nat) :
    (labelDeclaration name target).toList = name.toList ++ ',' :: ((' ' :: TypeName.int.text.toList) ++
      ',' :: ((' ' :: globalScope.toList) ++ ',' :: ' ' :: (toString target).toList)) := by
  simp [labelDeclaration, String.toList_append]

theorem labelName_visible (number : Nat) :
    ∀ char ∈ (labelName number).toList, isBlank char = false ∧ char ≠ ',' := by
  intro char member
  rw [labelName, String.toList_append, Numeral.toList_toString, List.mem_append] at member
  rcases member with fixed | digit
  · have visible : ∀ char ∈ "#label".toList, isBlank char = false ∧ char ≠ ',' :=
      forall_of_all (by decide)
    exact visible char fixed
  · have decimal := Numeral.toDigits_isDigit number char digit
    constructor
    · exact isBlank_of_isDigit decimal
    · intro comma
      subst comma
      contradiction

theorem labelName_chars (number : Nat) :
    (labelName number).toList = '#' :: ("label".toList ++ (toString number).toList) := by
  rw [labelName, String.toList_append]
  rfl

theorem labelName_nonempty (number : Nat) : (labelName number).toList ≠ [] := by
  rw [labelName_chars]
  exact nofun

theorem labelName_tight (number : Nat) : Tight (labelName number).toList :=
  tight_of_all fun char member => (labelName_visible number char member).1

theorem labelDeclaration_tight (number target : Nat) :
    Tight (Assembly.labelDeclaration (labelName number) target).toList := by
  have digits : (toString target).toList ≠ [] := by
    rw [Numeral.toList_toString]
    exact Nat.toDigits_ne_nil
  rw [Assembly.toList_labelDeclaration]
  simpa using (labelName_tight number).append (Numeral.toString_tight target) (labelName_nonempty number)
    digits (',' :: ((' ' :: TypeName.int.text.toList) ++
      ',' :: ((' ' :: globalScope.toList) ++ [',', ' '])))

/-- The declaration of a label is read back. -/
theorem Declared.ofText?_labelDeclaration {number target : Nat} (small : target < 2 ^ 63) :
    Declared.ofText? (trim (Assembly.labelDeclaration (labelName number) target)) =
      some (.label (labelName number) (Int64.ofNat target)) := by
  have nameWhole : ',' ∉ (labelName number).toList := by
    intro member
    exact (labelName_visible number ',' member).2 rfl
  have fields := declarationFields?_append (' ' :: (toString target).toList) nameWhole
    (show ',' ∉ ' ' :: TypeName.int.text.toList by decide)
    (show ',' ∉ ' ' :: globalScope.toList by decide)
  rw [← Assembly.toList_labelDeclaration, trimChars_tight (labelName_tight number), trimChars_space _,
    trimChars_space _, trimChars_space _, trimChars_tight (Numeral.toString_tight target),
    String.ofList_toList, String.ofList_toList] at fields
  rw [trim_tight (labelDeclaration_tight number target), Declared.ofText?_fields fields,
    Declared.ofFields?, labelName_chars, Numeral.int64?_toString_nat small]
  rfl

theorem Instruction.text_clean {instruction : Instruction} (writable : instruction.Writable) :
    Clean instruction.text := by
  obtain ⟨nonempty, visible⟩ := writable.second_visible
  apply clean_of_tight (Instruction.text_tight writable)
  rw [Instruction.toList_text]
  intro member
  simp only [List.mem_append, List.mem_cons] at member
  rcases member with opcode | space | first | comma | gap | second
  · exact (instruction.opcode.text_visible '\n' opcode).2.1 rfl
  · contradiction
  · exact writable.first.unbroken first
  · contradiction
  · contradiction
  · exact (visible '\n' second).2.2 rfl

/-- A character of a declaration line is one of its fields or separates them. -/
theorem not_mem_declaration {char : Char} {name type scope value : List Char}
    (noMark : char ≠ ',' ∧ char ≠ ' ') (inName : char ∉ name) (inType : char ∉ type)
    (inScope : char ∉ scope) (inValue : char ∉ value) :
    char ∉ name ++ ',' :: ((' ' :: type) ++ ',' :: ((' ' :: scope) ++ ',' :: ' ' :: value)) := by
  simp [noMark, inName, inType, inScope, inValue]

theorem Declarable.not_mem_of_blank {name : String} (declarable : Declarable name) {char : Char}
    (blank : isBlank char = true) : char ∉ name.toList := by
  intro member
  have visible := (declarable.visible char member).1
  rw [blank] at visible
  contradiction

theorem Symbol.not_mem_declaration {symbol : Symbol} (name : Declarable symbol.name)
    (scope : Declarable symbol.scope) {char : Char} (blank : isBlank char = true)
    (noSpace : char ≠ ' ') : char ∉ symbol.declaration.toList := by
  have noComma : char ≠ ',' := by
    intro same
    subst same
    contradiction
  have default : ∀ other ∈ symbol.type.defaultText.toList, isBlank other = false := by
    cases symbol.type <;> exact forall_of_all (by decide)
  rw [Symbol.toList_declaration]
  apply StackLang.not_mem_declaration ⟨noComma, noSpace⟩ (name.not_mem_of_blank blank) _
    (scope.not_mem_of_blank blank)
  · intro member
    rw [default char member] at blank
    contradiction
  · intro member
    rw [(symbol.type.text_visible char member).1] at blank
    contradiction

theorem Symbol.declaration_clean {symbol : Symbol} (name : Declarable symbol.name)
    (scope : Declarable symbol.scope) : Clean symbol.declaration := by
  constructor
  · exact Symbol.not_mem_declaration name scope (by decide) (by decide)
  · intro last
    exact Symbol.not_mem_declaration name scope (by decide) (by decide)
      (List.mem_of_mem_getLast? last)

theorem labelDeclaration_clean (number target : Nat) :
    Clean (Assembly.labelDeclaration (labelName number) target) := by
  apply clean_of_tight (labelDeclaration_tight number target)
  rw [Assembly.toList_labelDeclaration]
  apply not_mem_declaration (by decide) _ (by decide) (by decide)
  · intro member
    rw [Numeral.toList_toString] at member
    exact absurd (Numeral.toDigits_isDigit target '\n' member) (by decide)
  · intro member
    exact absurd (labelName_visible number '\n' member).1 (by decide)

end StackLang
