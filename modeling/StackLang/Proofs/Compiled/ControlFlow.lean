import StackLang.Proofs.Machine.Integrity
import StackLang.Proofs.Simulation.Compilation

/-!
# Control flow of compiled sources

Whatever a source text is, its code jumps to labels of its own, and a run of it stays
on the code until it halts.
-/

namespace StackLang

/-- A lowered program that is assembled is confined. -/
theorem Program.setup_confined {standard : TreeStandard} {program : Program}
    {symbols : SymbolTable} {discipline : Discipline} (meets : program.Meets standard)
    (scanned : standard.Scanned)
    (small : (program.lower.assemble symbols).instructions.length < 2 ^ 63) :
    (program.setup symbols discipline small).Confined standard := by
  have stands {index : Nat} {instruction : Instruction}
      (here : (program.setup symbols discipline small).program[index]? = some instruction) :
      (Listing.instructions program.lower.listing ++ [.operate .halt])[index]? =
        some instruction := by
    rwa [← List.getElem?_toArray]
  constructor
  · intro index instruction here
    rcases List.mem_append.mp (List.mem_of_getElem? (stands here)) with lowered | last
    · apply (program.lower_issued meets instruction lowered).mono
      intro name placed
      rw [← Listing.numbersFrom_names 1, ← program.resolve_entries] at placed
      obtain ⟨⟨_, number⟩, member, rfl⟩ := List.mem_map.mp placed
      exact ⟨number, member⟩
    · obtain rfl := List.mem_singleton.mp last
      exact .operate .halt
  · intro name named
    exact (named.declarable scanned).plain
  · intro index instruction here
    have size : (program.setup symbols discipline small).program.size =
        (Listing.instructions program.lower.listing).length + 1 := by
      simp [Program.setup, Draft.assemble, Assembly.ofListing]
    rcases Nat.lt_or_ge index (Listing.instructions program.lower.listing).length with inside | past
    · exact .inr (by omega)
    · have listed := stands here
      rw [List.getElem?_append_right past] at listed
      exact .inl (List.mem_singleton.mp (List.mem_of_getElem? listed))

namespace Compilation

/-- Every jump goes to a label, and every label was placed once, in front of an
instruction. -/
structure Targeted (tokens : List Token) : Prop where
  jumps : ∀ instruction ∈ (ofTokens tokens).assembly.instructions,
    instruction.opcode = .jmp ∨ instruction.opcode = .jmc →
      instruction.first ∈ (ofTokens tokens).assembly.labels.keys
  placed : ∀ name ∈ (ofTokens tokens).assembly.labels.keys,
    (Listing.markers (Program.ofTokens tokens).program.lower.listing).count name = 1
  numbers : ∀ label ∈ (ofTokens tokens).assembly.labels.entries,
    1 ≤ label.2 ∧ label.2 ≤ (ofTokens tokens).assembly.instructions.length

theorem targeted (tokens : List Token) : Targeted tokens := by
  have entries : (ofTokens tokens).assembly.labels.entries =
      Listing.numbersFrom 1 (Program.ofTokens tokens).program.lower.listing :=
    (Program.ofTokens tokens).program.resolve_entries
  have keys : (ofTokens tokens).assembly.labels.keys =
      Listing.markers (Program.ofTokens tokens).program.lower.listing := by
    rw [OrderedMap.keys, entries, Listing.numbersFrom_names]
  constructor
  · intro instruction member jump
    rw [keys]
    rcases List.mem_append.mp member with lowered | last
    · cases (Program.ofTokens tokens).program.lower_issued (Program.ofTokens_loose tokens)
          instruction lowered with
      | jump placed => exact placed
      | jumpIf condition placed => exact placed
      | literal | fixed | load | store | operate => rcases jump with jump | jump <;> contradiction
    · obtain rfl := List.mem_singleton.mp last
      rcases jump with jump | jump <;> contradiction
  · intro name member
    rw [keys] at member
    exact List.count_eq_one_of_mem (Program.ofTokens tokens).program.lower_markers_nodup member
  · intro label member
    rw [entries] at member
    have bounds := Listing.numbersFrom_bounds member
    have length : (ofTokens tokens).assembly.instructions.length =
        Listing.size (Program.ofTokens tokens).program.lower.listing + 1 := List.length_append
    omega

/-- A run of a loaded program has no invalid jump, its label variables have their numbers
after any number of instructions, and without an error it ends in front of a halt. -/
structure StaysInside (assembly : Assembly) (image : Image) (settings : RunSettings) : Prop where
  jumps : ∀ number, (image.run settings).error ≠ some (.invalidJump number)
  labels : ∀ budget, ∀ label ∈ assembly.labels.entries,
    ((image.start settings).runFor image.program budget).1.environment.get label.1 =
      .ok (.int (Int64.ofNat label.2))
  halts : (image.run settings).error = none →
    (image.run settings).halted = true ∧
      ((image.start settings).runFor image.program settings.budget).1.Halts image.program

/-- In the code of any source all jumps go to labels, and no run of it goes astray. -/
theorem control_flow (source : String) :
    Targeted (tokenize source) ∧
      ((ofTokens (tokenize source)).assembly.instructions.length < 2 ^ 63 →
        ∃ image, Image.load (ofTokens (tokenize source)).bytecode = .ok image ∧
          ∀ settings, StaysInside (ofTokens (tokenize source)).assembly image settings) := by
  refine ⟨targeted _, ?_⟩
  intro small
  have recognised := tokenize_recognised source
  have readable := readable recognised small
  obtain ⟨image, loaded, program, environment⟩ := Image.load_ofListing readable
  refine ⟨image, loaded, ?_⟩
  intro settings
  have confined : (setup (tokenize source) .free small).Confined _ :=
    Program.setup_confined (Program.ofTokens_loose _) (TreeStandard.loose_scanned recognised) small
  have start : (setup (tokenize source) .free small).Guarded (image.start settings) := by
    constructor
    · exact ⟨initialStore (tokenize source) settings.input, environment, readable.plain, rfl, rfl⟩
    · show 0 < (ofTokens (tokenize source)).assembly.instructions.toArray.size
      have length : (ofTokens (tokenize source)).assembly.instructions.length =
        Listing.size (Program.ofTokens (tokenize source)).program.lower.listing + 1 :=
          List.length_append
      rw [List.size_toArray, length]
      exact Nat.succ_pos _
  have closes (budget : Nat) := confined.runFor budget start
  have same : image.program = (setup (tokenize source) .free small).program := program
  rw [← same] at closes
  have last := closes settings.budget
  constructor
  · intro number error
    rw [image.run_error] at error
    rcases Ending.error?_eq_some error with faulted | limit
    · exact last.faults _ faulted number rfl
    · exact absurd limit nofun
  · rintro budget ⟨name, number⟩ label
    obtain ⟨store, shown⟩ := (closes budget).shown
    exact shown.get_label label
  · intro clean
    rw [image.run_error] at clean
    have halted := (Ending.error?_eq_none clean).resolve_right last.ending
    have halts := last.halts halted
    rw [← same] at halts
    exact ⟨(image.run_halted settings).trans (decide_eq_true halted), halts⟩

/-- A switch in a loop that breaks off behind a condition. -/
theorem control_flow_broken :
    let source := "while (x) \x7b switch (1) \x7b case 2: break; default: if (y) ) do \x7b for"
    (ofTokens (tokenize source)).assembly.instructions.length < 2 ^ 63 ∧
      ∃ image, Image.load (ofTokens (tokenize source)).bytecode = .ok image ∧
        ∀ settings, StaysInside (ofTokens (tokenize source)).assembly image settings := by
  intro source
  have small : (ofTokens (tokenize source)).assembly.instructions.length < 2 ^ 63 := by
    decide +kernel
  exact ⟨small, (control_flow source).2 small⟩

end Compilation

end StackLang
