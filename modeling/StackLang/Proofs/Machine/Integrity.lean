import StackLang.Proofs.Code.Issued
import StackLang.Proofs.Machine.Effects
import StackLang.Proofs.Machine.Instructions

/-!
# Control flow of running programs

The jumps of a confined program go to its labels and its stores to variables of the
source.  Whatever such a program computes, it stays on its instructions until it halts,
and the variables of its labels keep their numbers.
-/

namespace StackLang

open MachineState

/-- A label of a program. -/
def Setup.Labelled (setup : Setup) (name : String) : Prop := ∃ number, (name, number) ∈ setup.labels

/-- Every instruction was issued, jumps go to labels, and only a halt comes last. -/
structure Setup.Confined (setup : Setup) (standard : TreeStandard) : Prop where
  issued : ∀ (index : Nat) (instruction : Instruction), setup.program[index]? = some instruction →
    Issued standard setup.Labelled instruction
  plain : ∀ name, VariableName standard name → Plain name
  goesOn : ∀ (index : Nat) (instruction : Instruction), setup.program[index]? = some instruction →
    instruction = .operate .halt ∨ index + 1 < setup.program.size

/-- A fault that is not one of control flow. -/
def Fault.IsLocal (fault : Fault) : Prop := ∀ number, fault ≠ .invalidJump number

theorem Fault.OfOperation.isLocal {fault : Fault} (faults : fault.OfOperation) : fault.IsLocal := by
  intro number
  cases faults with
  | underflow => nofun
  | operands within => cases within <;> nofun

theorem MachineState.flowOf_halt_iff (operation : Operation) :
    flowOf operation = .halt ↔ Instruction.operate operation = .operate .halt := by
  cases operation <;> decide

namespace Setup

variable {setup : Setup} {standard : TreeStandard} {store : Store} {state after : MachineState}

/-- The variables are those of the labels beside others, and an instruction is next. -/
structure Guarded (setup : Setup) (state : MachineState) : Prop where
  shown : ∃ store, setup.Shows store state
  inside : state.position < setup.program.size

/-- What an instruction leads to: it halts only as a halt, and jumps into the program. -/
structure Proceeds (setup : Setup) (instruction : Instruction) (state : MachineState)
    (result : Flow × MachineState) : Prop where
  shown : ∃ store, setup.Shows store result.2
  position : result.2.position = state.position
  halts : result.1 = .halt ↔ instruction = .operate .halt
  inside : ∀ index, result.1 = .jump index → index < setup.program.size

/-- Other input and output make no difference to the labels. -/
theorem Shows.alike (shown : setup.Shows store state)
    (same : after.environment = state.environment) : ∃ other, setup.Shows other after :=
  ⟨⟨store.environment, after.input, after.output⟩,
    ⟨same ▸ shown.environment, shown.plain, rfl, rfl⟩⟩

theorem Shows.pushed (shown : setup.Shows store state) (value : Value) :
    setup.Shows store (state.push value) :=
  shown.carry rfl rfl rfl

theorem Shows.logged (shown : setup.Shows store state) (entry : ConsoleEntry) :
    setup.Shows store (state.log entry) :=
  shown.carry rfl rfl rfl

/-- An instruction other than an operation goes on or jumps into the program. -/
theorem Shows.proceeds {instruction : Instruction} {flow : Flow} (shown : setup.Shows store after)
    (position : after.position = state.position) (other : instruction.opcode ≠ .opr)
    (inside : flow = .next ∨ ∃ index, flow = .jump index ∧ index < setup.program.size) :
    setup.Proceeds instruction state (flow, after) where
  shown := ⟨store, shown⟩
  position := position
  halts := by
    constructor
    · rintro rfl
      rcases inside with impossible | ⟨index, impossible, -⟩ <;> contradiction
    · rintro rfl
      exact absurd rfl other
  inside := by
    rintro index rfl
    rcases inside with impossible | ⟨found, same, bound⟩
    · contradiction
    · exact Flow.jump.inj same ▸ bound

theorem Shows.target_answers {name : String} (shown : setup.Shows store state)
    (labelled : setup.Labelled name) :
    Answers Fault.IsLocal (· < setup.program.size) (state.target setup.program.size name) := by
  obtain ⟨number, label⟩ := labelled
  obtain ⟨positive, bound⟩ := setup.bounded _ label
  obtain ⟨index, rfl⟩ := Nat.exists_eq_add_of_le' positive
  rw [shown.target label]
  exact bound

theorem Shows.pop_answers (shown : setup.Shows store state) :
    Answers Fault.IsLocal
      (fun popped => setup.Shows store popped.2 ∧ popped.2.position = state.position)
      state.pop := by
  unfold pop
  split
  · exact nofun
  · exact ⟨shown.carry rfl rfl rfl, rfl⟩

theorem Shows.assign_answers {name : String} (shown : setup.Shows store state)
    (plain : Plain name) (value : Value) :
    Answers Fault.IsLocal
      (fun environment => ∃ other, setup.Shows other { state with environment := environment })
      (state.environment.assign name value) := by
  have assigned := shown.assign_plain plain value
  cases outcome : store.environment.assign name value with
  | ok environment =>
      rw [outcome] at assigned
      obtain ⟨machine, found, entries, names⟩ := assigned
      rw [found]
      exact ⟨{ store with environment }, entries, names, shown.input, shown.output⟩
  | error fault =>
      rw [outcome] at assigned
      rw [assigned]
      unfold Environment.assign at outcome
      split at outcome
      · contradiction
      · obtain rfl := Except.error.inj outcome
        exact nofun

/-- An instruction of a confined program faults for its operands, or it proceeds. -/
theorem Confined.execute_answers (confined : setup.Confined standard) {instruction : Instruction}
    (issued : Issued standard setup.Labelled instruction) (shown : setup.Shows store state) :
    Answers Fault.IsLocal (setup.Proceeds instruction state)
      (state.execute setup.program.size instruction) := by
  cases issued with
  | literal | fixed =>
      show setup.Proceeds _ state (.next, state.push _)
      exact (shown.pushed _).proceeds rfl nofun (.inl rfl)
  | @load name named =>
      have found : Answers Fault.IsLocal (fun _ => True) (state.environment.get name) := by
        apply (state.environment.get_answers _).mono ?_ fun _ => id
        rintro _ rfl
        exact nofun
      apply found.bind
      intro value _
      exact Shows.proceeds (shown.pushed value) rfl nofun (.inl rfl)
  | store named =>
      apply shown.pop_answers.bind
      rintro ⟨value, popped⟩ ⟨shown, position⟩
      apply (shown.assign_answers (confined.plain _ named) value).bind
      rintro environment ⟨other, shown⟩
      exact shown.proceeds position nofun (.inl rfl)
  | jump labelled =>
      apply (shown.target_answers labelled).bind
      intro index bound
      exact shown.proceeds rfl nofun (.inr ⟨index, rfl, bound⟩)
  | jumpIf condition labelled =>
      apply shown.pop_answers.bind
      rintro ⟨value, popped⟩ ⟨shown, position⟩
      dsimp only
      split
      · apply (shown.target_answers labelled).bind
        intro index bound
        exact shown.proceeds position nofun (.inr ⟨index, rfl, bound⟩)
      · exact shown.proceeds position nofun (.inl rfl)
  | operate operation =>
      rw [execute_operate]
      apply (state.operate_answers operation).mono fun fault => Fault.OfOperation.isLocal
      rintro ⟨flow, after⟩ ⟨alike, rfl⟩
      refine ⟨shown.alike alike.environment, alike.position, flowOf_halt_iff operation, ?_⟩
      intro index jumps
      cases operation <;> contradiction

/-- A guarded state has an instruction to execute, which faults for its operands or
proceeds. -/
theorem Confined.executes (confined : setup.Confined standard) (guarded : setup.Guarded state) :
    ∃ instruction, setup.program[state.position]? = some instruction ∧
      Answers Fault.IsLocal (setup.Proceeds instruction state)
        ((state.log (.executing instruction)).execute setup.program.size instruction) := by
  obtain ⟨⟨store, shown⟩, inside⟩ := guarded
  have here := Array.getElem?_eq_getElem inside
  have answers := confined.execute_answers (confined.issued _ _ here)
    (shown.logged (.executing setup.program[state.position]))
  refine ⟨_, here, answers.mono (fun _ => id) ?_⟩
  intro result proceeds
  exact ⟨proceeds.shown, proceeds.position, proceeds.halts, proceeds.inside⟩

/-- A step of a confined program leads from instruction to instruction. -/
theorem Confined.step (confined : setup.Confined standard) (guarded : setup.Guarded state)
    (next : step? setup.program state = some after) : setup.Guarded after := by
  obtain ⟨instruction, here, answers⟩ := confined.executes guarded
  rw [step?, here] at next
  dsimp only at next
  split at next
  · next moved result =>
      rw [result] at answers
      obtain rfl := Option.some.inj next
      obtain ⟨⟨other, shown⟩, position, halts, -⟩ := answers
      refine ⟨⟨other, shown.carry rfl rfl rfl⟩, ?_⟩
      have goesOn := (confined.goesOn _ _ here).resolve_left fun halt =>
        absurd (halts.mpr halt) (by simp)
      rwa [← position] at goesOn
  · next index moved result =>
      rw [result] at answers
      obtain rfl := Option.some.inj next
      obtain ⟨⟨other, shown⟩, -, -, inside⟩ := answers
      exact ⟨⟨other, shown.carry rfl rfl rfl⟩, inside index rfl⟩
  · contradiction
  · contradiction

/-- How a run of a confined program ends: the labels keep their numbers, and if there is
no fault, a halt is next. -/
structure Closes (setup : Setup) (result : MachineState × Ending) : Prop where
  shown : ∃ store, setup.Shows store result.1
  ending : result.2 ≠ .endReached
  faults : ∀ fault, result.2 = .faulted fault → fault.IsLocal
  halts : result.2 = .halted → result.1.Halts setup.program

theorem Confined.runFor (confined : setup.Confined standard) (budget : Nat)
    (guarded : setup.Guarded state) : setup.Closes (state.runFor setup.program budget) := by
  induction budget generalizing state with
  | zero =>
      obtain ⟨instruction, here, -⟩ := confined.executes guarded
      rw [MachineState.runFor, here]
      exact ⟨guarded.shown, by simp, by simp, by simp⟩
  | succ fewer ih =>
      have step : ∀ after, step? setup.program state = some after → setup.Guarded after :=
        fun after => confined.step guarded
      obtain ⟨instruction, here, answers⟩ := confined.executes guarded
      obtain ⟨store, shown⟩ := guarded.shown
      rw [MachineState.runFor, here]
      dsimp only
      cases result : (state.log (.executing instruction)).execute setup.program.size
          instruction with
      | error fault =>
          rw [result] at answers
          refine ⟨⟨store, shown.carry rfl rfl rfl⟩, by simp, ?_, by simp⟩
          rintro _ ⟨⟩
          exact answers
      | ok went =>
          obtain ⟨flow, after⟩ := went
          rw [result] at answers
          cases flow with
          | next => exact ih (step _ (step?_of_next here result))
          | jump index => exact ih (step _ (step?_of_jump here result))
          | halt =>
              refine ⟨answers.shown, by simp, by simp, ?_⟩
              intro _
              have halt := answers.halts.mp rfl
              show setup.program[after.position]? = _
              rw [answers.position, ← halt]
              exact here

end Setup

end StackLang
