import Mathlib.Data.List.TakeWhile
import StackLang.Proofs.Loading.Image

/-!
# Which texts are loaded

A bytecode text is loaded if it has a separator, declarations in front of the first one
and instructions behind it, with blank lines anywhere.  Any other text is refused: because
of the first line in front of the separator that is no declaration, else because of the
missing separator, else because of the first line behind it that is no instruction.
-/

namespace StackLang

open Text

/-! ## Lines that are in order -/

/-- The fields of a text, separated at its first three commas, without the blanks around them. -/
def Fields (text name type scope value : String) : Prop :=
  ∃ first second third rest : List Char,
    text.toList = first ++ ',' :: (second ++ ',' :: (third ++ ',' :: rest)) ∧
      (',' ∉ first ∧ ',' ∉ second ∧ ',' ∉ third) ∧
        name = String.ofList (trimChars first) ∧ type = String.ofList (trimChars second) ∧
          scope = String.ofList (trimChars third) ∧ value = String.ofList (trimChars rest)

/-- A declaration has four fields, of which the first is a name.  A name with a number sign
stands for a 64-bit number, any other name has a type. -/
def IsDeclaration (text : String) : Prop :=
  ∃ name type scope value : String, Fields text name type scope value ∧ name ≠ "" ∧
    if name.toList.head? = some '#' then ∃ target, Numeral.int64? value = some target
    else ∃ known : TypeName, type = known.text

/-- An instruction is what can be read as one. -/
def IsInstruction (text : String) : Prop :=
  ∃ instruction, Instruction.ofText text = .ok instruction

theorem declarationFields?_eq_some_iff {text name type scope value : String} :
    declarationFields? text.toList = some (name, type, scope, value) ↔
      Fields text name type scope value := by
  constructor
  · intro fields
    simp only [declarationFields?, Option.bind_eq_bind, Option.bind_eq_some_iff] at fields
    obtain ⟨⟨first, afterFirst⟩, firstSplit, ⟨second, afterSecond⟩, secondSplit,
      ⟨third, rest⟩, thirdSplit, same⟩ := fields
    obtain ⟨firstWhole, whole⟩ := splitFirst?_eq_some_iff.mp firstSplit
    obtain ⟨secondWhole, rfl⟩ := splitFirst?_eq_some_iff.mp secondSplit
    obtain ⟨thirdWhole, rfl⟩ := splitFirst?_eq_some_iff.mp thirdSplit
    cases same
    exact ⟨first, second, third, rest, whole, ⟨firstWhole, secondWhole, thirdWhole⟩, rfl, rfl,
      rfl, rfl⟩
  · rintro ⟨first, second, third, rest, whole, ⟨firstWhole, secondWhole, thirdWhole⟩, rfl, rfl,
      rfl, rfl⟩
    rw [whole]
    exact declarationFields?_append rest firstWhole secondWhole thirdWhole

theorem TypeName.isSome_ofText?_iff {keyword : String} :
    (TypeName.ofText? keyword).isSome ↔ ∃ known : TypeName, keyword = known.text := by
  constructor
  · intro found
    obtain ⟨known, read⟩ := Option.isSome_iff_exists.mp found
    have spelled : (known.text == keyword) = true := by
      rw [TypeName.ofText?] at read
      simpa using List.find?_some read
    exact ⟨known, (beq_iff_eq.mp spelled).symm⟩
  · rintro ⟨known, rfl⟩
    rw [TypeName.ofText?_text]
    rfl

/-- What the fields have to be for something to be declared. -/
theorem Declared.isSome_ofFields?_iff {name type value : String} :
    (Declared.ofFields? name type value).isSome ↔ name ≠ "" ∧
      if name.toList.head? = some '#' then ∃ target, Numeral.int64? value = some target
      else ∃ known : TypeName, type = known.text := by
  have unnamed : name = "" ↔ name.toList = [] := String.toList_eq_nil_iff.symm
  unfold Declared.ofFields?
  split
  · next empty => simp [unnamed, empty]
  · next hidden => simp [unnamed, hidden, Option.isSome_iff_exists]
  · next nonempty plain =>
      have unmarked : name.toList.head? ≠ some '#' := by
        intro marked
        obtain ⟨rest, hidden⟩ := List.head?_eq_some_iff.mp marked
        exact plain rest hidden
      rw [if_neg unmarked, Option.isSome_map, TypeName.isSome_ofText?_iff]
      exact ⟨fun known => ⟨fun empty => nonempty (unnamed.mp empty), known⟩, And.right⟩

theorem Declared.isSome_ofText?_iff {text : String} :
    (Declared.ofText? text).isSome ↔ IsDeclaration text := by
  constructor
  · intro declares
    obtain ⟨declared, read⟩ := Option.isSome_iff_exists.mp declares
    obtain ⟨⟨name, type, scope, value⟩, fields, _⟩ := Option.bind_eq_some_iff.mp read
    rw [Declared.ofText?_fields fields] at declares
    exact ⟨name, type, scope, value, declarationFields?_eq_some_iff.mp fields,
      Declared.isSome_ofFields?_iff.mp declares⟩
  · rintro ⟨name, type, scope, value, fields, inOrder⟩
    rw [Declared.ofText?_fields (declarationFields?_eq_some_iff.mpr fields)]
    exact Declared.isSome_ofFields?_iff.mpr inOrder

/-- A line is blank, or it is as it should be. -/
def InOrder (good : String → Prop) (text : String) : Prop := text = "" ∨ good text

/-- Of texts numbered from `start` on, the text with the number is the first one that is not
in order. -/
def FirstBad (good : String → Prop) (texts : List String) (start number : Nat) (text : String) :
    Prop :=
  ∃ front back, texts = front ++ text :: back ∧ number = start + front.length ∧
    ¬InOrder good text ∧ ∀ other ∈ front, InOrder good other

/-- Texts are all in order, or one of them is the first that is not. -/
theorem inOrder_or_firstBad (good : String → Prop) (texts : List String) (start : Nat) :
    (∀ text ∈ texts, InOrder good text) ∨ ∃ number text, FirstBad good texts start number text := by
  induction texts generalizing start with
  | nil => exact .inl nofun
  | cons first rest ih =>
      by_cases inOrder : InOrder good first
      · rcases ih (start + 1) with all | ⟨_, text, front, back, rfl, rfl, bad, passed⟩
        · exact .inl (List.forall_mem_cons.mpr ⟨inOrder, all⟩)
        · refine .inr ⟨start + 1 + front.length, text, first :: front, back, rfl, ?_, bad,
            List.forall_mem_cons.mpr ⟨inOrder, passed⟩⟩
          rw [List.length_cons, Nat.add_assoc, Nat.add_comm 1]
      · exact .inr ⟨start, first, [], rest, rfl, rfl, inOrder, nofun⟩

/-- A line that is blamed stands in the whole text where its number says. -/
theorem FirstBad.getElem? {good : String → Prop} {texts front part back : List String}
    {number : Nat} {text : String} (parts : texts = front ++ (part ++ back))
    (blamed : FirstBad good part (front.length + 1) number text) :
    texts[number - 1]? = some text := by
  obtain ⟨passed, rest, rfl, rfl, _⟩ := blamed
  have index : front.length + 1 + passed.length - 1 = (front ++ passed).length := by
    rw [List.length_append]
    omega
  rw [parts, index, List.append_assoc, ← List.append_assoc, List.getElem?_append_right (Nat.le_refl _),
    Nat.sub_self]
  rfl

namespace Image

/-! ## Loading line by line -/

/-- Texts with their numbers. -/
def numbered (first : Nat) (texts : List String) : List (Nat × String) :=
  (texts.zipIdx first).map Prod.swap

theorem numbered_cons (first : Nat) (text : String) (rest : List String) :
    numbered first (text :: rest) = (first, text) :: numbered (first + 1) rest :=
  rfl

theorem numberedLines_eq (bytecode : String) :
    numberedLines bytecode = numbered 1 ((lines bytecode).map trim) := by
  rw [numberedLines, numbered, List.zipIdx_map, List.map_map]
  rfl

/-- Lines in order in front of the separator are loaded. -/
theorem loadDeclarations_inOrder {front : List String} (first : Nat) (back : List String)
    (image : Image) (unseparated : "@" ∉ front)
    (inOrder : ∀ text ∈ front, InOrder IsDeclaration text) :
    ∃ later : Image, image.loadDeclarations (numbered first (front ++ back)) =
      later.loadDeclarations (numbered (first + front.length) back) := by
  induction front generalizing first image with
  | nil => exact ⟨image, rfl⟩
  | cons text rest ih =>
      rw [List.mem_cons, not_or] at unseparated
      obtain ⟨here, others⟩ := List.forall_mem_cons.mp inOrder
      have loaded (image : Image) : ∃ later : Image,
          image.loadDeclarations (numbered (first + 1) (rest ++ back)) =
            later.loadDeclarations (numbered (first + (text :: rest).length) back) := by
        obtain ⟨later, same⟩ := ih (first + 1) image unseparated.2 others
        refine ⟨later, same.trans ?_⟩
        rw [List.length_cons, Nat.add_assoc, Nat.add_comm 1]
      rw [List.cons_append, numbered_cons, loadDeclarations, if_neg (Ne.symm unseparated.1)]
      by_cases blank : text = ""
      · rw [if_pos blank]
        exact loaded image
      · obtain ⟨declared, read⟩ := Option.isSome_iff_exists.mp
          (Declared.isSome_ofText?_iff.mpr (here.resolve_left blank))
        rw [if_neg blank, read]
        exact loaded (image.declare declared)

/-- The first line that is not in order is blamed. -/
theorem loadDeclarations_firstBad {texts : List String} {first number : Nat} {text : String}
    (back : List String) (image : Image) (unseparated : "@" ∉ texts)
    (blamed : FirstBad IsDeclaration texts first number text) :
    image.loadDeclarations (numbered first (texts ++ back)) =
      .error (.malformedDeclaration number text) := by
  obtain ⟨front, rest, rfl, rfl, bad, inOrder⟩ := blamed
  simp only [List.mem_append, List.mem_cons, not_or] at unseparated
  obtain ⟨unseparated, other, _⟩ := unseparated
  obtain ⟨later, same⟩ :=
    loadDeclarations_inOrder first (text :: rest ++ back) image unseparated inOrder
  obtain ⟨visible, undeclared⟩ := not_or.mp bad
  have unread : Declared.ofText? text = none :=
    Option.not_isSome_iff_eq_none.mp (Declared.isSome_ofText?_iff.not.mpr undeclared)
  rw [List.append_assoc, same, List.cons_append, numbered_cons, loadDeclarations,
    if_neg (Ne.symm other), if_neg visible, unread]

theorem loadInstructions_inOrder {texts : List String} (first : Nat)
    (inOrder : ∀ text ∈ texts, InOrder IsInstruction text) :
    ∃ instructions, loadInstructions (numbered first texts) = .ok instructions := by
  induction texts generalizing first with
  | nil => exact ⟨[], rfl⟩
  | cons text rest ih =>
      obtain ⟨here, others⟩ := List.forall_mem_cons.mp inOrder
      obtain ⟨instructions, loaded⟩ := ih (first + 1) others
      rw [numbered_cons, loadInstructions, loaded]
      by_cases blank : text = ""
      · exact ⟨instructions, if_pos blank⟩
      · obtain ⟨instruction, read⟩ := here.resolve_left blank
        rw [if_neg blank, read]
        exact ⟨instruction :: instructions, rfl⟩

theorem loadInstructions_firstBad {texts : List String} {first number : Nat} {text : String}
    (blamed : FirstBad IsInstruction texts first number text) :
    loadInstructions (numbered first texts) = .error (.malformedInstruction number text) := by
  obtain ⟨front, rest, rfl, rfl, bad, inOrder⟩ := blamed
  induction front generalizing first with
  | nil =>
      obtain ⟨visible, unread⟩ := not_or.mp bad
      rw [List.nil_append, numbered_cons, loadInstructions, if_neg visible]
      cases read : Instruction.ofText text with
      | ok instruction => exact absurd ⟨instruction, read⟩ unread
      | error => rfl
  | cons other front ih =>
      obtain ⟨here, others⟩ := List.forall_mem_cons.mp inOrder
      have later := @ih (first + 1) others
      rw [List.cons_append, numbered_cons, loadInstructions, later, List.length_cons]
      have number : first + 1 + front.length = first + (front.length + 1) := by omega
      rw [number]
      by_cases blank : other = ""
      · exact if_pos blank
      · obtain ⟨instruction, read⟩ := here.resolve_left blank
        rw [if_neg blank, read]
        rfl

/-! ## The outcome -/

/-- The lines of a text in front of the first separator, or all of them if there is none. -/
def frontLines (texts : List String) : List String := texts.takeWhile (· ≠ "@")

/-- The lines of a text behind the first separator. -/
def backLines (texts : List String) : List String := (texts.dropWhile (· ≠ "@")).tail

theorem separator_notMem_frontLines (texts : List String) : "@" ∉ frontLines texts := by
  intro member
  simpa using List.mem_takeWhile_imp member

theorem frontLines_of_notMem {texts : List String} (missing : "@" ∉ texts) :
    frontLines texts = texts := by
  refine List.takeWhile_eq_self_iff.mpr fun text member => ?_
  simpa using ne_of_mem_of_not_mem member missing

theorem eq_of_separator_mem {texts : List String} (present : "@" ∈ texts) :
    texts = frontLines texts ++ "@" :: backLines texts := by
  have behind : texts.dropWhile (· ≠ "@") = "@" :: backLines texts := by
    rw [backLines]
    cases dropped : texts.dropWhile (· ≠ "@") with
    | nil => simpa using List.dropWhile_eq_nil_iff.mp dropped "@" present
    | cons first rest =>
        have stops := List.head?_dropWhile_not (· ≠ "@") texts
        rw [dropped] at stops
        have same : first = "@" := by simpa using stops
        rw [same, List.tail_cons]
  calc texts = frontLines texts ++ texts.dropWhile (· ≠ "@") :=
        List.takeWhile_append_dropWhile.symm
    _ = frontLines texts ++ "@" :: backLines texts := by rw [behind]

section

variable {bytecode : String} {texts : List String} (shown : texts = (lines bytecode).map trim)

include shown

/-- Loading starts in front of the first line. -/
theorem load_eq : load bytecode = (do
    let (declared, rest) ← loadDeclarations ⟨.empty, #[], #[.loading]⟩ (numbered 1 texts)
    let instructions ← loadInstructions rest
    return { declared with
      program := instructions.toArray
      console := (declared.console.push .loadingInstructions).push .loaded }) := by
  rw [load, numberedLines_eq, shown]

theorem load_undeclared {number : Nat} {text : String}
    (blamed : FirstBad IsDeclaration (frontLines texts) 1 number text) :
    load bytecode = .error (.malformedDeclaration number text) := by
  have parts : frontLines texts ++ texts.dropWhile (· ≠ "@") = texts :=
    List.takeWhile_append_dropWhile
  have refused := loadDeclarations_firstBad (texts.dropWhile (· ≠ "@")) ⟨.empty, #[], #[.loading]⟩
    (separator_notMem_frontLines texts) blamed
  rw [parts] at refused
  rw [load_eq shown, refused]
  rfl

theorem load_unseparated (declared : ∀ text ∈ frontLines texts, InOrder IsDeclaration text)
    (missing : "@" ∉ texts) : load bytecode = .error .missingSeparator := by
  rw [frontLines_of_notMem missing] at declared
  obtain ⟨later, loaded⟩ :=
    loadDeclarations_inOrder 1 [] ⟨.empty, #[], #[.loading]⟩ missing declared
  rw [List.append_nil] at loaded
  rw [load_eq shown, loaded]
  rfl

section

variable (declared : ∀ text ∈ frontLines texts, InOrder IsDeclaration text) (present : "@" ∈ texts)

include declared present

omit shown in
/-- Behind the separator loading goes on with the instructions. -/
theorem loadDeclarations_separated :
    ∃ later : Image, loadDeclarations ⟨.empty, #[], #[.loading]⟩ (numbered 1 texts) =
      .ok (later, numbered ((frontLines texts).length + 2) (backLines texts)) := by
  obtain ⟨later, loaded⟩ := loadDeclarations_inOrder 1 ("@" :: backLines texts)
    ⟨.empty, #[], #[.loading]⟩ (separator_notMem_frontLines texts) declared
  rw [← eq_of_separator_mem present, numbered_cons, loadDeclarations_separator] at loaded
  refine ⟨later, loaded.trans ?_⟩
  rw [Nat.add_comm 1, Nat.add_assoc]

theorem load_uninstructed {number : Nat} {text : String} (blamed :
    FirstBad IsInstruction (backLines texts) ((frontLines texts).length + 2) number text) :
    load bytecode = .error (.malformedInstruction number text) := by
  obtain ⟨later, loaded⟩ := loadDeclarations_separated declared present
  rw [load_eq shown, loaded]
  show (do let instructions ← loadInstructions _; _) = _
  rw [loadInstructions_firstBad blamed]
  rfl

theorem load_inOrder (instructed : ∀ text ∈ backLines texts, InOrder IsInstruction text) :
    ∃ image, load bytecode = .ok image := by
  obtain ⟨later, loaded⟩ := loadDeclarations_separated declared present
  obtain ⟨instructions, read⟩ := loadInstructions_inOrder _ instructed
  rw [load_eq shown, loaded]
  show ∃ image, (do let instructions ← loadInstructions _; _) = Except.ok image
  rw [read]
  exact ⟨_, rfl⟩

end

end

/-- What is to be said of a text with these lines. -/
inductive Verdict (texts : List String) : Except LoadError Image → Prop
  | undeclared {number : Nat} {text : String}
      (blamed : FirstBad IsDeclaration (frontLines texts) 1 number text) :
      Verdict texts (.error (.malformedDeclaration number text))
  | unseparated (declared : ∀ text ∈ frontLines texts, InOrder IsDeclaration text)
      (missing : "@" ∉ texts) : Verdict texts (.error .missingSeparator)
  | uninstructed {number : Nat} {text : String}
      (declared : ∀ text ∈ frontLines texts, InOrder IsDeclaration text) (present : "@" ∈ texts)
      (blamed : FirstBad IsInstruction (backLines texts) ((frontLines texts).length + 2)
        number text) : Verdict texts (.error (.malformedInstruction number text))
  | loaded (declared : ∀ text ∈ frontLines texts, InOrder IsDeclaration text)
      (present : "@" ∈ texts) (instructed : ∀ text ∈ backLines texts, InOrder IsInstruction text)
      (image : Image) : Verdict texts (.ok image)

theorem load_verdict {bytecode : String} {texts : List String}
    (shown : texts = (lines bytecode).map trim) : Verdict texts (load bytecode) := by
  rcases inOrder_or_firstBad IsDeclaration (frontLines texts) 1 with
    declared | ⟨number, text, blamed⟩
  · by_cases present : "@" ∈ texts
    · rcases inOrder_or_firstBad IsInstruction (backLines texts) ((frontLines texts).length + 2)
        with instructed | ⟨number, text, blamed⟩
      · obtain ⟨image, same⟩ := load_inOrder shown declared present instructed
        rw [same]
        exact .loaded declared present instructed image
      · rw [load_uninstructed shown declared present blamed]
        exact .uninstructed declared present blamed
    · rw [load_unseparated shown declared present]
      exact .unseparated declared present
  · rw [load_undeclared shown blamed]
    exact .undeclared blamed

/-- The blamed line stands in the text at its number. -/
theorem Verdict.getElem? {texts : List String} {number : Nat} {text : String}
    (refused : Verdict texts (.error (.malformedDeclaration number text)) ∨
      Verdict texts (.error (.malformedInstruction number text))) :
    texts[number - 1]? = some text := by
  rcases refused with refused | refused
  · cases refused with
    | undeclared blamed =>
        have parts : texts = [] ++ (frontLines texts ++ texts.dropWhile (· ≠ "@")) :=
          List.takeWhile_append_dropWhile.symm
        exact FirstBad.getElem? parts blamed
  · cases refused with
    | uninstructed declared present blamed =>
        have parts : texts = (frontLines texts ++ ["@"]) ++ (backLines texts ++ []) := by
          rw [List.append_nil, List.append_assoc]
          exact eq_of_separator_mem present
        have placed : FirstBad IsInstruction (backLines texts)
            ((frontLines texts ++ ["@"]).length + 1) number text := by
          rw [List.length_append]
          exact blamed
        exact FirstBad.getElem? parts placed

/-- Loading succeeds exactly if there is a separator, with declarations in front of the first
one and instructions behind it.  Otherwise the first line in front of the separator that is no
declaration is blamed, or else the separator is missing, or else the first line behind it that
is no instruction is blamed, by its number among all lines. -/
theorem load_judges (bytecode : String) :
    let texts := (lines bytecode).map trim
    let declared := ∀ text ∈ frontLines texts, InOrder IsDeclaration text
    let behind := (frontLines texts).length + 2
    ((∃ image, load bytecode = .ok image) ↔
      "@" ∈ texts ∧ declared ∧ ∀ text ∈ backLines texts, InOrder IsInstruction text) ∧
    (∀ number text, load bytecode = .error (.malformedDeclaration number text) ↔
      FirstBad IsDeclaration (frontLines texts) 1 number text) ∧
    (load bytecode = .error .missingSeparator ↔ declared ∧ "@" ∉ texts) ∧
    (∀ number text, load bytecode = .error (.malformedInstruction number text) ↔
      (declared ∧ "@" ∈ texts) ∧ FirstBad IsInstruction (backLines texts) behind number text) ∧
    ∀ number text, load bytecode = .error (.malformedDeclaration number text) ∨
      load bytecode = .error (.malformedInstruction number text) →
        texts[number - 1]? = some text := by
  intro texts declared behind
  have verdict {outcome : Except LoadError Image} (given : load bytecode = outcome) :
      Verdict texts outcome := given ▸ load_verdict rfl
  refine ⟨⟨?_, ?_⟩, ?_, ⟨?_, ?_⟩, ?_, ?_⟩
  · rintro ⟨image, given⟩
    cases verdict given with
    | loaded fine present instructed => exact ⟨present, fine, instructed⟩
  · rintro ⟨present, fine, instructed⟩
    exact load_inOrder rfl fine present instructed
  · refine fun number text => ⟨fun given => ?_, load_undeclared rfl⟩
    cases verdict given with
    | undeclared blamed => exact blamed
  · intro given
    cases verdict given with
    | unseparated fine missing => exact ⟨fine, missing⟩
  · rintro ⟨fine, missing⟩
    exact load_unseparated rfl fine missing
  · refine fun number text => ⟨fun given => ?_, ?_⟩
    · cases verdict given with
      | uninstructed fine present blamed => exact ⟨⟨fine, present⟩, blamed⟩
    · rintro ⟨⟨fine, present⟩, blamed⟩
      exact load_uninstructed rfl fine present blamed
  · exact fun number text refused => Verdict.getElem? (refused.imp verdict verdict)

end Image

end StackLang
