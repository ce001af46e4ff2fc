import StackLang.Proofs.Code.Labels
import StackLang.Proofs.Loading.Image
import StackLang.Proofs.Simulation.Statement

/-!
# Simulation of programs

An assembled program is simulated from its first instruction to the halt at its
end.
-/

namespace StackLang

open Setup

theorem Member.simulatesAll {setup : Setup} (bound : Nat) (methods : MethodTable)
    (members : List Member) (solid : ∀ member ∈ members, member.Meets .solid)
    (respects : Member.AllRespect setup.discipline methods members) (made position : Nat)
    (placed : Listing.PlacedAt setup.program setup.labels position
      ((Member.lowerAll methods members).run made).1) :
    setup.Simulates 0 bound position
      (position + Listing.size ((Member.lowerAll methods members).run made).1) none
      (Member.interpretAll bound methods members) := by
  induction members generalizing methods made position with
  | nil => exact Simulates.nothing
  | cons member rest ih =>
      have others : ∀ member ∈ rest, member.Meets .solid := fun other listed =>
        solid other (List.mem_cons_of_mem _ listed)
      cases member with
      | skipped => exact (solid .skipped List.mem_cons_self).elim
      | field declaration =>
          have solid := solid (.field declaration) List.mem_cons_self
          rw [Member.lowerAll, Lowering.run_bind, Lowering.run_pure] at placed ⊢
          have first : setup.Simulates 0 bound position _ none (declaration.interpret methods) :=
            declaration.simulates solid respects.1 placed.left
          rw [← Listing.size_ofInstructions] at first
          apply (first.andThen (ih methods others respects.2 _ _ placed.right)).ends
          rw [Listing.size_append, Nat.add_assoc]
      | method declared =>
          have solid := solid (.method declared) List.mem_cons_self
          simp only [Member.lowerAll, Lowering.run_bind, Lowering.run_pure] at placed ⊢
          have first := Statement.simulatesAll bound none (by simp [Setup.Known]) declared.body
            solid.2.2 respects.1 _ _ placed.left
          apply (first.andThen (ih _ others respects.2 _ _ placed.right)).ends
          rw [Listing.size_append, Nat.add_assoc]
          rfl

theorem Program.simulates {setup : Setup} (bound : Nat) (program : Program)
    (solid : program.Meets .solid) (respects : program.Respects setup.discipline)
    (placed : Listing.PlacedAt setup.program setup.labels 0 program.lower.listing) :
    setup.Simulates 0 bound 0 (Listing.size program.lower.listing) none
      (program.interpret bound) := by
  cases program with
  | statements body =>
      have simulated := Statement.simulatesAll bound none nofun body solid respects 0 0 placed
      rwa [Nat.zero_add] at simulated
  | members all =>
      have simulated := Member.simulatesAll bound .empty all solid respects 0 0 placed
      rwa [Nat.zero_add] at simulated

section

variable {program : Program}

theorem Program.resolve_entries (program : Program) :
    program.lower.listing.resolve.entries = Listing.numbersFrom 1 program.lower.listing :=
  Listing.resolve_entries program.lower_markers_nodup

theorem Program.labels_hidden (program : Program) (symbols : SymbolTable) :
    ∀ label ∈ (program.lower.assemble symbols).labels.entries, ¬ Plain label.1 := by
  intro label member
  have entries : (program.lower.assemble symbols).labels.entries = _ := program.resolve_entries
  have placed : label.1 ∈ Listing.markers program.lower.listing := by
    rw [← Listing.numbersFrom_names 1, ← entries]
    exact List.mem_map_of_mem member
  obtain ⟨number, name⟩ := program.lower_markers_made placed
  rw [name]
  exact labelName_hidden number

theorem Program.labels_bounded (program : Program) (symbols : SymbolTable) :
    ∀ label ∈ (program.lower.assemble symbols).labels.entries,
      1 ≤ label.2 ∧ label.2 ≤ (program.lower.assemble symbols).instructions.toArray.size := by
  intro label member
  have entries : (program.lower.assemble symbols).labels.entries = _ := program.resolve_entries
  rw [entries] at member
  have bounds := Listing.numbersFrom_bounds member
  have size : (program.lower.assemble symbols).instructions.toArray.size =
      Listing.size program.lower.listing + 1 := by
    simp [Draft.assemble, Assembly.ofListing, Listing.size]
  omega

/-- An assembled program with its labels. -/
def Program.setup (program : Program) (symbols : SymbolTable) (discipline : Discipline)
    (small : (program.lower.assemble symbols).instructions.length < 2 ^ 63) : Setup where
  program := (program.lower.assemble symbols).instructions.toArray
  labels := (program.lower.assemble symbols).labels.entries
  discipline := discipline
  hidden := program.labels_hidden symbols
  distinct := (program.lower.assemble symbols).labels.distinct
  bounded := program.labels_bounded symbols
  small := by simpa using small

variable {symbols : SymbolTable} {discipline : Discipline}
  {small : (program.lower.assemble symbols).instructions.length < 2 ^ 63}

theorem Program.setup_placed :
    Listing.PlacedAt (program.setup symbols discipline small).program
      (program.setup symbols discipline small).labels 0 program.lower.listing := by
  apply Listing.placedAt_of_instructions
  · intro index command found
    show (program.lower.assemble symbols).instructions.toArray[0 + index]? = some command
    rw [Nat.zero_add, List.getElem?_toArray]
    exact List.getElem?_append_left (List.getElem?_eq_some_iff.mp found).1 ▸ found
  · intro entry member
    show entry ∈ program.lower.listing.resolve.entries
    rw [program.resolve_entries]
    exact member

theorem Program.setup_halts {state : MachineState}
    (position : state.position = Listing.size program.lower.listing) :
    state.Halts (program.setup symbols discipline small).program := by
  show (program.lower.assemble symbols).instructions.toArray[state.position]? = some _
  rw [position, List.getElem?_toArray]
  exact List.getElem?_concat_length

end

end StackLang
