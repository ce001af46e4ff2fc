import StackLang.Grammar.Program
import StackLang.Proofs.Checking.Names
import StackLang.Proofs.Loading.Image
import StackLang.Proofs.Loading.Operands
import StackLang.Proofs.Reading.Program

/-!
# Compiled sources are read back

Whatever a source text is, the assembly of its tokens is read back.
-/

namespace StackLang

open Text

theorem selectorName_declarable (number : Nat) : Declarable (selectorName number) := by
  have chars : (selectorName number).toList = "switch.".toList ++ Nat.toDigits 10 number := by
    rw [selectorName, String.toList_append, Numeral.toList_toString]
  constructor
  · rw [chars]
    simp
  · rw [chars, List.forall_mem_append]
    refine ⟨forall_of_all (by decide), ?_⟩
    intro char member
    have digit := Numeral.toDigits_isDigit number char member
    constructor
    · exact isBlank_of_isDigit digit
    · intro comma
      subst comma
      contradiction
  · rw [Plain, chars]
    simp

/-- What is known about the tokens of a source. -/
structure TreeStandard.Scanned (standard : TreeStandard) : Prop where
  names : ∀ token, standard.name token → Declarable token.value
  literals : ∀ token, standard.literal token → Carried token.literalText

theorem TreeStandard.loose_scanned {tokens : List Token}
    (recognised : ∀ token ∈ tokens, Lexeme.Recognised token) :
    (TreeStandard.loose tokens).Scanned := by
  constructor
  · intro token name
    exact (recognised token name.2).declarable name.1
  · intro token literal
    exact (recognised token literal.2).carried literal.1

theorem VariableName.declarable {standard : TreeStandard} {name : String}
    (named : VariableName standard name) (scanned : standard.Scanned) : Declarable name := by
  cases named with
  | source known => exact scanned.names _ known
  | selector number => exact selectorName_declarable number

theorem ScopeName.declarable {standard : TreeStandard} {scope : String}
    (named : ScopeName standard scope) (scanned : standard.Scanned) : Declarable scope := by
  cases named with
  | global => exact ⟨by decide, forall_of_all (by decide), by decide⟩
  | method known => exact scanned.names _ known

/-- Instructions of lowered programs can be written. -/
theorem Issued.writable {standard : TreeStandard} {targets : String → Prop}
    {instruction : Instruction} (issued : Issued standard targets instruction)
    (scanned : standard.Scanned)
    (made : ∀ label, targets label → ∃ number, label = labelName number) :
    instruction.Writable := by
  have label {name : String} (target : targets name) : Carried name := by
    obtain ⟨number, rfl⟩ := made name target
    exact carried_of_visible fun char member => (labelName_visible number char member).1
  cases issued with
  | literal known => exact ⟨scanned.literals _ known, .inl rfl⟩
  | fixed listed =>
      have visible : ∀ text ∈ fixedTexts,
          text.toList.all (fun char => decide (isBlank char = false)) = true := by
        decide
      exact ⟨carried_of_visible (forall_of_all (visible _ listed)), .inl rfl⟩
  | load named => exact ⟨(named.declarable scanned).carried, .inl rfl⟩
  | store named => exact ⟨(named.declarable scanned).carried, .inl rfl⟩
  | jump target => exact ⟨label target, .inl rfl⟩
  | jumpIf condition target =>
      refine ⟨label target, ?_⟩
      cases condition with
      | false => exact .inl rfl
      | true => exact .inr rfl
  | operate operation => exact ⟨carried_toString operation.code, .inl rfl⟩

/-- The assembly of a tree of a source is read back. -/
theorem Program.readable {standard : TreeStandard} (program : Program)
    (meets : program.Meets standard) (scanned : standard.Scanned)
    (small : Listing.size program.lower.listing + 1 < 2 ^ 63) :
    Assembly.Readable program.lower.listing program.analyze.symbols where
  names := by
    intro symbol member
    have named := (program.analyze_named meets).symbols _ (SymbolTable.mem_keys member)
    exact ⟨named.1.declarable scanned, named.2.declarable scanned⟩
  labels := fun _ placed => program.lower_markers_made placed
  distinct := program.lower_markers_nodup
  writable := by
    intro instruction member
    exact (program.lower_issued meets instruction member).writable scanned
      fun _ placed => program.lower_markers_made placed
  small := small

end StackLang
