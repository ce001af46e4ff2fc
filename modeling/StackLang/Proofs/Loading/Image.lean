import Mathlib.Data.List.Forall2
import StackLang.Proofs.Code.Placement
import StackLang.Proofs.Loading.Line
import StackLang.Proofs.Loading.Variables

/-!
# Assemblies that are read back

Loading the text of an assembly gives its instructions, a variable for every
declared symbol and, behind these, a variable for every label.
-/

namespace StackLang

open Text

namespace Image

/-- Lines as the loader sees them, numbered from `first` on. -/
def trimmed (first : Nat) (texts : List String) : List (Nat × String) :=
  (texts.zipIdx first).map fun (line, number) => (number, trim line)

theorem trimmed_cons (first : Nat) (line : String) (rest : List String) :
    trimmed first (line :: rest) = (first, trim line) :: trimmed (first + 1) rest := rfl

theorem trimmed_append (first : Nat) (front back : List String) :
    trimmed first (front ++ back) = trimmed first front ++ trimmed (first + front.length) back := by
  rw [trimmed, List.zipIdx_append, List.map_append]
  rfl

/-- A declaration line is read as a declaration. -/
def Reads (declared : Declared) (line : String) : Prop :=
  trim line ≠ "@" ∧ trim line ≠ "" ∧ Declared.ofText? (trim line) = some declared

theorem loadDeclarations_append {lines : List String} {declared : List Declared}
    (reads : List.Forall₂ Reads declared lines) (first : Nat) (rest : List (Nat × String))
    (image : Image) :
    image.loadDeclarations (trimmed first lines ++ rest) =
      (declared.foldl declare image).loadDeclarations rest := by
  induction reads generalizing first image with
  | nil => rfl
  | cons line others ih =>
      obtain ⟨noEnd, nonempty, read⟩ := line
      rw [trimmed_cons, List.cons_append, loadDeclarations, if_neg noEnd, if_neg nonempty, read]
      exact ih (first + 1) _

theorem loadDeclarations_separator (image : Image) (number : Nat) (rest : List (Nat × String)) :
    image.loadDeclarations ((number, "@") :: rest) = .ok (image, rest) := by
  rw [loadDeclarations, if_pos rfl]

theorem loadInstructions_text {instructions : List Instruction}
    (writable : ∀ instruction ∈ instructions, instruction.Writable) (first : Nat) :
    loadInstructions (trimmed first (instructions.map Instruction.text)) = .ok instructions := by
  induction instructions generalizing first with
  | nil => rfl
  | cons instruction rest ih =>
      have here := writable instruction List.mem_cons_self
      have others := ih (fun other member => writable other (List.mem_cons_of_mem _ member))
        (first + 1)
      have nonempty : instruction.text ≠ "" := by
        intro empty
        have chars := instruction.toList_text
        rw [empty] at chars
        simp at chars
      rw [List.map_cons, trimmed_cons, trim_tight (Instruction.text_tight here), loadInstructions,
        if_neg nonempty, Instruction.ofText_text here]
      dsimp only
      rw [others]
      rfl

theorem reads_of_ofText? {declared : Declared} {line : String}
    (read : Declared.ofText? (trim line) = some declared) : Reads declared line := by
  have noEnd : Declared.ofText? "@" = none := rfl
  have noText : Declared.ofText? "" = none := rfl
  refine ⟨?_, ?_, read⟩
  · intro same
    rw [same, noEnd] at read
    contradiction
  · intro same
    rw [same, noText] at read
    contradiction

/-- The variables of a program after some declarations. -/
theorem foldl_declare_variables (symbols : List Symbol) (image : Image) :
    ((symbols.map fun symbol => Declared.variable symbol.name symbol.type).foldl declare
        image).environment =
      symbols.foldl
        (fun environment symbol => environment.define symbol.name symbol.type (.initial symbol.type))
        image.environment := by
  induction symbols generalizing image with
  | nil => rfl
  | cons symbol rest ih => exact ih _

theorem foldl_declare_labels (labels : List (String × Nat)) (image : Image)
    (distinct : (image.environment.bindings.keys ++ labels.map Prod.fst).Nodup) :
    ((labels.map fun label => Declared.label label.1 (Int64.ofNat label.2)).foldl declare
        image).environment.toList = image.environment.toList ++ labelVariables labels := by
  induction labels generalizing image with
  | nil => exact (List.append_nil _).symm
  | cons label rest ih =>
      have absent : label.1 ∉ image.environment.bindings.entries.map Prod.fst := by
        intro present
        exact (List.nodup_append.mp distinct).2.2 label.1 present label.1 (by simp) rfl
      have placed : (image.declare (.label label.1 (Int64.ofNat label.2))).environment.toList =
          image.environment.toList ++ [(label.1, ⟨.int, .int (Int64.ofNat label.2)⟩)] :=
        OrderedMap.place_of_not_mem absent
      have keys : (image.declare (.label label.1 (Int64.ofNat label.2))).environment.bindings.keys =
          image.environment.bindings.keys ++ [label.1] := by
        rw [OrderedMap.keys]
        exact (congrArg (List.map Prod.fst) placed).trans (by rw [List.map_append]; rfl)
      have later := ih (image.declare (.label label.1 (Int64.ofNat label.2))) (by
        rw [keys]
        simpa using distinct)
      rw [placed] at later
      simpa [labelVariables] using later

theorem numberedLines_unlines {texts : List String}
    (clean : ∀ line ∈ texts, Clean line) :
    numberedLines (unlines texts) = trimmed 1 texts := by
  rw [numberedLines, lines_unlines clean]
  rfl

end Image

/-- What an assembly has to fulfil to be read back. -/
structure Assembly.Readable (listing : Listing) (symbols : SymbolTable) : Prop where
  names : ∀ symbol ∈ symbols.toList, Declarable symbol.name ∧ Declarable symbol.scope
  labels : ∀ name ∈ listing.markers, ∃ number, name = labelName number
  distinct : listing.markers.Nodup
  writable : ∀ instruction ∈ listing.instructions, instruction.Writable
  small : listing.size + 1 < 2 ^ 63

namespace Assembly.Readable

variable {listing : Listing} {symbols : SymbolTable}

theorem resolve_entries (readable : Readable listing symbols) :
    listing.resolve.entries = listing.numbersFrom 1 :=
  Listing.resolve_entries readable.distinct

/-- Every label has a name that was made and a number that fits. -/
theorem label (readable : Readable listing symbols) {entry : String × Nat}
    (member : entry ∈ listing.resolve.entries) :
    (∃ number, entry.1 = labelName number) ∧ entry.2 < 2 ^ 63 := by
  rw [readable.resolve_entries] at member
  have placed : entry.1 ∈ listing.markers := by
    rw [← Listing.numbersFrom_names 1]
    exact List.mem_map_of_mem member
  have bounds := Listing.numbersFrom_bounds member
  have small := readable.small
  exact ⟨readable.labels entry.1 placed, by omega⟩

theorem instructions (readable : Readable listing symbols) :
    ∀ instruction ∈ (ofListing listing symbols).instructions, instruction.Writable := by
  intro instruction member
  rcases List.mem_append.mp member with listed | halt
  · exact readable.writable instruction listed
  · obtain rfl := List.mem_singleton.mp halt
    constructor
    · constructor
      · exact tight_of_all (forall_of_all (by decide))
      · decide
    · exact .inl rfl

theorem clean (readable : Readable listing symbols) :
    ∀ line ∈ (ofListing listing symbols).lines, Clean line := by
  intro line member
  rw [lines, List.mem_append, List.mem_append, List.mem_cons] at member
  rcases member with (declaration | label) | separator | instruction
  · obtain ⟨symbol, listed, rfl⟩ := List.mem_map.mp declaration
    exact Symbol.declaration_clean (readable.names symbol listed).1 (readable.names symbol listed).2
  · obtain ⟨⟨name, target⟩, listed, rfl⟩ := List.mem_map.mp label
    obtain ⟨⟨number, rfl⟩, -⟩ := readable.label listed
    exact labelDeclaration_clean number target
  · subst separator
    exact ⟨by decide, by decide⟩
  · obtain ⟨written, listed, rfl⟩ := List.mem_map.mp instruction
    exact Instruction.text_clean (readable.instructions written listed)

/-- What the declarations of an assembly declare. -/
theorem reads (readable : Readable listing symbols) :
    List.Forall₂ Image.Reads
      (symbols.toList.map (fun symbol => Declared.variable symbol.name symbol.type) ++
        listing.resolve.entries.map fun label => Declared.label label.1 (Int64.ofNat label.2))
      ((ofListing listing symbols).declarations ++
        listing.resolve.entries.map fun label => labelDeclaration label.1 label.2) := by
  apply List.rel_append
  · show List.Forall₂ Image.Reads _ (symbols.toList.map Symbol.declaration)
    rw [List.forall₂_map_left_iff, List.forall₂_map_right_iff, List.forall₂_same]
    intro symbol listed
    have names := readable.names symbol listed
    exact Image.reads_of_ofText? (Declared.ofText?_declaration names.1 names.2.whole)
  · rw [List.forall₂_map_left_iff, List.forall₂_map_right_iff, List.forall₂_same]
    intro label listed
    obtain ⟨⟨number, name⟩, small⟩ := readable.label listed
    rw [name]
    exact Image.reads_of_ofText? (Declared.ofText?_labelDeclaration small)

end Assembly.Readable

theorem Assembly.Readable.plain {listing : Listing} {symbols : SymbolTable}
    (readable : Readable listing symbols) :
    ∀ name ∈ symbols.environment.bindings.keys, Plain name := by
  intro name member
  obtain ⟨symbol, listed, rfl⟩ := SymbolTable.environment_keys member
  exact (readable.names symbol listed).1.plain

theorem labelName_hidden (number : Nat) : ¬ Plain (labelName number) := by
  intro plain
  rw [Plain, labelName_chars] at plain
  exact plain rfl

/-- The text of an assembly is read back. -/
theorem Image.load_ofListing {listing : Listing} {symbols : SymbolTable}
    (readable : Assembly.Readable listing symbols) :
    ∃ image, Image.load (Assembly.ofListing listing symbols).bytecode = .ok image ∧
      image.program = (Assembly.ofListing listing symbols).instructions.toArray ∧
      image.environment.toList = symbols.environment.toList ++
        labelVariables (Assembly.ofListing listing symbols).labels.entries := by
  have separator : Text.trim "@" = "@" := by decide
  have lines : (Assembly.ofListing listing symbols).lines =
      ((Assembly.ofListing listing symbols).declarations ++
        listing.resolve.entries.map fun label => Assembly.labelDeclaration label.1 label.2) ++
      ("@" :: (Assembly.ofListing listing symbols).instructions.map Instruction.text) := rfl
  have declared : ∀ image : Image, image.environment = .empty →
      ((symbols.toList.map (fun symbol => Declared.variable symbol.name symbol.type) ++
        listing.resolve.entries.map fun label => Declared.label label.1 (Int64.ofNat label.2)).foldl
          declare image).environment.toList =
        symbols.environment.toList ++ labelVariables listing.resolve.entries := by
    intro image empty
    have front := foldl_declare_variables symbols.toList image
    rw [empty] at front
    rw [List.foldl_append, foldl_declare_labels, front]
    · rfl
    · rw [front, List.nodup_append]
      refine ⟨symbols.environment.bindings.distinct, listing.resolve.distinct, ?_⟩
      intro name member other label same
      subst same
      obtain ⟨entry, listed, rfl⟩ := List.mem_map.mp label
      obtain ⟨⟨number, made⟩, -⟩ := readable.label listed
      exact labelName_hidden number (made ▸ readable.plain _ member)
  rw [load, Assembly.bytecode, numberedLines_unlines readable.clean, lines, trimmed_append,
    trimmed_cons, separator, loadDeclarations_append readable.reads, loadDeclarations_separator]
  show ∃ image, (do
    let instructions ← loadInstructions (trimmed _ _)
    _) = Except.ok image ∧ _
  rw [loadInstructions_text readable.instructions]
  exact ⟨_, rfl, rfl, declared _ rfl⟩

end StackLang
