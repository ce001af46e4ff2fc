import Mathlib.Data.List.Basic
import StackLang.Proofs.Machine.Effects
import StackLang.Proofs.Machine.Walk

/-!
# What a run records

The log of a machine tells which instructions were executed, and in which order.  A run
only adds to the log and to the output, and it is a walk behind which the machine stops.
-/

namespace StackLang

/-- The instruction that is executed according to a log entry. -/
def ConsoleEntry.executed? : ConsoleEntry → Option Instruction
  | .executing instruction => some instruction
  | _ => none

/-- The instructions that were executed according to a log, in order. -/
def executedIn (console : Array ConsoleEntry) : List Instruction :=
  console.toList.filterMap ConsoleEntry.executed?

theorem executedIn_push (console : Array ConsoleEntry) (entry : ConsoleEntry) :
    executedIn (console.push entry) = executedIn console ++ entry.executed?.toList := by
  cases executed : entry.executed? <;> simp [executedIn, executed]

/-- The instructions that a run has executed, in order. -/
def Execution.executed (execution : Execution) : List Instruction := executedIn execution.console

/-! ## Single instructions -/

/-- A fault of an instruction, not of the settings of a run. -/
def Fault.IsProper (fault : Fault) : Prop := ∀ limit, fault ≠ .stepLimit limit

theorem Fault.OfOperation.isProper {fault : Fault} (faults : fault.OfOperation) :
    fault.IsProper := by
  intro limit
  cases faults with
  | underflow => nofun
  | operands within => cases within <;> nofun

namespace MachineState

/-- Nothing has been written, logged or jumped over. -/
structure Silent (state after : MachineState) : Prop where
  position : after.position = state.position
  output : after.output = state.output
  console : after.console = state.console

/-- What an instruction adds to the output and to the log. -/
structure Adds (state after : MachineState) : Prop where
  position : after.position = state.position
  output : ∃ written, after.output = state.output ++ written
  console : after.console = state.console ∨
    ∃ value, after.console = state.console.push (.input value)

theorem Silent.adds {state after : MachineState} (silent : state.Silent after) :
    state.Adds after :=
  ⟨silent.position, ⟨"", by rw [silent.output, String.append_empty]⟩, .inl silent.console⟩

variable (state : MachineState)

theorem pop_silent : Answers Fault.IsProper (fun popped => state.Silent popped.2) state.pop := by
  unfold pop
  split
  · exact nofun
  · exact ⟨rfl, rfl, rfl⟩

theorem applyPair_adds {function : Value → Value → Except Fault Value}
    (answers : ∀ left right, Answers Fault.OfOperands (fun _ => True) (function left right)) :
    Answers Fault.IsProper (fun result => state.Adds result.2) (state.applyPair function) := by
  have popPair : Answers Fault.IsProper (fun popped => state.Silent popped.2.2) state.popPair := by
    apply state.pop_silent.bind
    intro right first
    apply right.2.pop_silent.bind
    intro left second
    exact ⟨second.position.trans first.position, second.output.trans first.output,
      second.console.trans first.console⟩
  apply popPair.bind
  intro popped silent
  have value := (answers popped.1 popped.2.1).mono
    (fun _ within => (Fault.OfOperation.operands within).isProper) fun _ => id
  apply value.bind
  intro result _
  exact Silent.adds ⟨silent.position, silent.output, silent.console⟩

theorem operate_adds (operation : Operation) :
    Answers Fault.IsProper (fun result => state.Adds result.2) (state.operate operation) := by
  cases operation with
  | halt | giveBack => exact Silent.adds ⟨rfl, rfl, rfl⟩
  | add | sub | mul | div => exact state.applyPair_adds (Value.arithmetic_answers _)
  | greater | less => exact state.applyPair_adds (compare_answers _)
  | or | and | equal | notEqual =>
      unfold operate
      exact state.applyPair_adds fun _ _ => trivial
  | not =>
      apply state.pop_silent.bind
      intro popped silent
      exact Silent.adds ⟨silent.position, silent.output, silent.console⟩
  | print =>
      apply state.pop_silent.bind
      intro popped silent
      refine ⟨silent.position, ⟨popped.1.text, ?_⟩, .inl silent.console⟩
      rw [← silent.output]
  | printLine =>
      apply state.pop_silent.bind
      intro popped silent
      refine ⟨silent.position, ⟨popped.1.text ++ "\n", ?_⟩, .inl silent.console⟩
      rw [← silent.output, ← String.append_assoc]
  | read => exact ⟨rfl, ⟨"", String.append_empty.symm⟩, .inr ⟨_, rfl⟩⟩

/-- A variable that is not defined is a fault of the instruction. -/
theorem isProper_of_undefined {α : Type} {name : String} {answer : Except Fault α}
    (answers : Answers (· = .undefinedVariable name) (fun _ => True) answer) :
    Answers Fault.IsProper (fun _ => True) answer := by
  apply answers.mono ?_ fun _ => id
  rintro _ rfl
  exact nofun

theorem target_answers (size : Nat) (operand : String) :
    Answers Fault.IsProper (fun _ => True) (state.target size operand) := by
  have number : Answers Fault.IsProper (fun _ => True) (state.jumpNumber operand) := by
    unfold jumpNumber
    split
    · trivial
    · apply (isProper_of_undefined (state.environment.get_answers operand)).bind
      intro value _
      split
      · trivial
      · exact nofun
  apply number.bind
  intro number _
  dsimp only
  split
  · trivial
  · exact nofun

theorem operationOf_answers (operand : String) :
    Answers Fault.IsProper (fun _ => True) (operationOf operand) := by
  unfold operationOf
  split
  · exact nofun
  · split
    · trivial
    · exact nofun

/-- An instruction adds something to the output and to the log, or it fails of itself. -/
theorem execute_adds (size : Nat) (instruction : Instruction) :
    Answers Fault.IsProper (fun result => state.Adds result.2)
      (state.execute size instruction) := by
  unfold execute
  cases instruction.opcode with
  | lit => exact Silent.adds ⟨rfl, rfl, rfl⟩
  | lod =>
      apply (isProper_of_undefined (state.environment.get_answers _)).bind
      intro value _
      exact Silent.adds ⟨rfl, rfl, rfl⟩
  | sto =>
      apply state.pop_silent.bind
      intro popped silent
      apply (isProper_of_undefined (popped.2.environment.assign_answers _ _)).bind
      intro environment _
      exact Silent.adds ⟨silent.position, silent.output, silent.console⟩
  | jmp =>
      apply (state.target_answers size _).bind
      intro position _
      exact Silent.adds ⟨rfl, rfl, rfl⟩
  | jmc =>
      apply state.pop_silent.bind
      intro popped silent
      dsimp only
      split
      · apply (popped.2.target_answers size _).bind
        intro position _
        exact silent.adds
      · exact silent.adds
  | opr =>
      apply (operationOf_answers _).bind
      intro operation _
      exact state.operate_adds operation

/-! ## Steps and runs -/

/-- The output and the log have only grown. -/
structure Extends (state later : MachineState) : Prop where
  output : ∃ written, later.output = state.output ++ written
  console : state.console.toList <+: later.console.toList

theorem Extends.refl : state.Extends state :=
  ⟨⟨"", String.append_empty.symm⟩, List.prefix_rfl⟩

variable {state} {after last : MachineState} {program : Array Instruction}

theorem Extends.trans (front : state.Extends after) (back : after.Extends last) :
    state.Extends last := by
  obtain ⟨⟨first, one⟩, prefixed⟩ := front
  obtain ⟨⟨second, two⟩, more⟩ := back
  exact ⟨⟨first ++ second, by rw [two, one, String.append_assoc]⟩, prefixed.trans more⟩

/-- An instruction has been logged and executed. -/
structure Executes (instruction : Instruction) (state after : MachineState) : Prop where
  logged : (state.log (.executing instruction)).Extends after
  executed : executedIn after.console = executedIn state.console ++ [instruction]

theorem extends_log (state : MachineState) (entry : ConsoleEntry) :
    state.Extends (state.log entry) :=
  ⟨⟨"", String.append_empty.symm⟩, by simp [log]⟩

theorem Executes.extends_first {instruction : Instruction}
    (executes : Executes instruction state after) : state.Extends after :=
  (extends_log state _).trans executes.logged

theorem Adds.executes {instruction : Instruction}
    (adds : (state.log (.executing instruction)).Adds after) (position : Nat) :
    Executes instruction state { after with position := position } := by
  obtain ⟨-, output, console⟩ := adds
  have logged : executedIn (state.console.push (.executing instruction)) =
      executedIn state.console ++ [instruction] := executedIn_push _ _
  rcases console with same | ⟨value, same⟩
  · refine ⟨⟨output, ?_⟩, ?_⟩
    · simp [same]
    · show executedIn after.console = _
      rw [same]
      exact logged
  · refine ⟨⟨output, ?_⟩, ?_⟩
    · simp [same]
    · show executedIn after.console = _
      rw [same, executedIn_push]
      exact (List.append_nil _).trans logged

theorem executes_of_step? (step : step? program state = some after) :
    ∃ instruction, program[state.position]? = some instruction ∧
      Executes instruction state after := by
  unfold step? at step
  split at step
  · contradiction
  next instruction here =>
    refine ⟨instruction, here, ?_⟩
    have answers := (state.log (.executing instruction)).execute_adds program.size instruction
    split at step
    · next result =>
        rw [result] at answers
        obtain rfl := Option.some.inj step
        exact Adds.executes answers _
    · next result =>
        rw [result] at answers
        obtain rfl := Option.some.inj step
        exact Adds.executes answers _
    · contradiction
    · contradiction

/-- How a run with some instructions left ends in the last state of its walk. -/
inductive Stops (program : Array Instruction) (last : MachineState) :
    Nat → MachineState × Ending → Prop
  | cutOff {instruction : Instruction} (here : program[last.position]? = some instruction) :
      Stops program last 0 (last, .cutOff)
  | endReached (left : Nat) (past : program[last.position]? = none) :
      Stops program last left (last, .endReached)
  | halted (left : Nat) {instruction : Instruction} {after : MachineState}
      (here : program[last.position]? = some instruction)
      (executes : Executes instruction last after) :
      Stops program last (left + 1) (after, .halted)
  | faulted (left : Nat) {instruction : Instruction} {fault : Fault}
      (here : program[last.position]? = some instruction) (proper : fault.IsProper) :
      Stops program last (left + 1) (last.log (.executing instruction), .faulted fault)

theorem Stops.extends_last {left : Nat} {result : MachineState × Ending}
    (stops : Stops program last left result) : last.Extends result.1 := by
  cases stops with
  | cutOff | endReached => exact .refl last
  | halted _ _ executes => exact executes.extends_first
  | faulted => exact extends_log last _

/-- Behind its walk a run executes one instruction at most. -/
theorem Stops.executed_le {left : Nat} {result : MachineState × Ending}
    (stops : Stops program last left result) :
    (executedIn result.1.console).length ≤ (executedIn last.console).length + left := by
  cases stops with
  | cutOff | endReached => exact Nat.le_add_right _ _
  | halted left _ executes =>
      rw [executes.executed, List.length_append, List.length_singleton]
      omega
  | faulted left =>
      rw [show (last.log _).console = last.console.push _ from rfl, executedIn_push,
        List.length_append]
      exact Nat.add_le_add_left (Nat.le_add_left 1 left) _

end MachineState

namespace Walk

open MachineState

variable {admits : MachineState → Prop} {program : Array Instruction} {count : Nat}
  {first last : MachineState}

theorem extends_first (walk : Walk admits program count first last) : first.Extends last := by
  induction walk with
  | here state => exact .refl state
  | step _ next _ ih =>
      obtain ⟨instruction, -, executes⟩ := executes_of_step? next
      exact executes.extends_first.trans ih

/-- A walk logs one instruction for each of its steps. -/
theorem executed_length (walk : Walk admits program count first last) :
    (executedIn last.console).length = (executedIn first.console).length + count := by
  induction walk with
  | here state => rfl
  | step _ next _ ih =>
      obtain ⟨instruction, -, executes⟩ := executes_of_step? next
      rw [ih, executes.executed, List.length_append, List.length_singleton]
      omega

end Walk

namespace MachineState

variable {program : Array Instruction}

/-- A run is a walk, and stops behind it. -/
theorem runFor_stops (program : Array Instruction) (budget : Nat) (state : MachineState) :
    ∃ count left last, budget = count + left ∧ Walk (fun _ => True) program count state last ∧
      Stops program last left (state.runFor program budget) := by
  induction budget generalizing state with
  | zero =>
      refine ⟨0, 0, state, rfl, .here state, ?_⟩
      rw [runFor]
      split
      · next past => exact .endReached 0 past
      · next here => exact .cutOff here
  | succ fewer ih =>
      cases next : step? program state with
      | some after =>
          obtain ⟨count, left, last, rfl, walk, stops⟩ := ih after
          refine ⟨count + 1, left, last, by omega, .step trivial next walk, ?_⟩
          rwa [runFor_step next]
      | none =>
          refine ⟨0, fewer + 1, state, (Nat.zero_add _).symm, .here state, ?_⟩
          cases here : program[state.position]? with
          | none =>
              rw [runFor, here]
              exact .endReached _ here
          | some instruction =>
              have answers :=
                (state.log (.executing instruction)).execute_adds program.size instruction
              rw [runFor, here]
              dsimp only
              cases result : (state.log (.executing instruction)).execute program.size
                  instruction with
              | error fault =>
                  rw [result] at answers
                  exact .faulted _ here answers
              | ok went =>
                  obtain ⟨flow, after⟩ := went
                  rw [result] at answers
                  cases flow with
                  | next =>
                      rw [step?_of_next here result] at next
                      contradiction
                  | jump position =>
                      rw [step?_of_jump here result] at next
                      contradiction
                  | halt => exact .halted _ here (Adds.executes answers after.position)

theorem runFor_extends (program : Array Instruction) (budget : Nat) (state : MachineState) :
    state.Extends (state.runFor program budget).1 := by
  obtain ⟨count, left, last, -, walk, stops⟩ := runFor_stops program budget state
  exact walk.extends_first.trans stops.extends_last

theorem runFor_executed_le (program : Array Instruction) (budget : Nat) (state : MachineState) :
    (executedIn (state.runFor program budget).1.console).length ≤
      (executedIn state.console).length + budget := by
  obtain ⟨count, left, last, rfl, walk, stops⟩ := runFor_stops program budget state
  have most := stops.executed_le
  rw [walk.executed_length] at most
  omega

theorem proper_of_faulted {state : MachineState} {budget : Nat} {fault : Fault}
    (faulted : (state.runFor program budget).2 = .faulted fault) : fault.IsProper := by
  obtain ⟨count, left, last, -, -, stops⟩ := runFor_stops program budget state
  generalize state.runFor program budget = result at faulted stops
  cases stops with
  | cutOff | endReached | halted => contradiction
  | faulted _ _ proper => exact Ending.faulted.inj faulted ▸ proper

/-- A run that is cut off has walked as far as it may, and an instruction is next. -/
theorem walk_of_cutOff {state : MachineState} {budget : Nat}
    (cut : (state.runFor program budget).2 = .cutOff) :
    Walk (fun _ => True) program budget state (state.runFor program budget).1 ∧
      ∃ instruction, program[(state.runFor program budget).1.position]? = some instruction := by
  obtain ⟨count, left, last, rfl, walk, stops⟩ := runFor_stops program budget state
  generalize state.runFor program (count + left) = result at cut stops
  cases stops with
  | cutOff here => exact ⟨walk, _, here⟩
  | endReached | halted | faulted => contradiction

/-- A run that faults has walked to the instruction that faults, and logged it. -/
theorem walk_of_faulted {state : MachineState} {budget : Nat} {fault : Fault}
    (faulted : (state.runFor program budget).2 = .faulted fault) :
    ∃ count last instruction, Walk (fun _ => True) program count state last ∧
      program[last.position]? = some instruction ∧
      (state.runFor program budget).1 = last.log (.executing instruction) := by
  obtain ⟨count, left, last, -, walk, stops⟩ := runFor_stops program budget state
  generalize state.runFor program budget = result at faulted stops
  cases stops with
  | cutOff | endReached | halted => contradiction
  | faulted _ here => exact ⟨count, last, _, walk, here, rfl⟩

/-- The instruction that is next is the first to be logged. -/
theorem logs_next {state : MachineState} {instruction : Instruction}
    (here : program[state.position]? = some instruction) (budget : Nat) :
    (state.log (.executing instruction)).Extends (state.runFor program (budget + 1)).1 := by
  cases next : step? program state with
  | some after =>
      obtain ⟨found, there, executes⟩ := executes_of_step? next
      obtain rfl := Option.some.inj (here.symm.trans there)
      rw [runFor_step next]
      exact executes.logged.trans (runFor_extends program budget after)
  | none =>
      obtain ⟨count, left, last, total, walk, stops⟩ := runFor_stops program (budget + 1) state
      generalize state.runFor program (budget + 1) = result at stops
      cases walk with
      | step _ taken =>
          rw [next] at taken
          contradiction
      | here =>
          cases stops with
          | cutOff => omega
          | endReached _ past =>
              rw [here] at past
              contradiction
          | halted _ there executes =>
              obtain rfl := Option.some.inj (here.symm.trans there)
              exact executes.logged
          | faulted _ there =>
              obtain rfl := Option.some.inj (here.symm.trans there)
              exact .refl _

end MachineState

namespace Image

/-! ## Loaded programs and their outcomes -/

/-- What is loaded has declarations and, behind the separator, instructions. -/
theorem exists_of_load {bytecode : String} {image : Image} (loaded : load bytecode = .ok image) :
    ∃ declared rest instructions,
      loadDeclarations ⟨.empty, #[], #[.loading]⟩ (numberedLines bytecode) =
        .ok (declared, rest) ∧
      loadInstructions rest = .ok instructions ∧
      image = { declared with
        program := instructions.toArray
        console := (declared.console.push .loadingInstructions).push .loaded } := by
  rw [load] at loaded
  cases declarations : loadDeclarations ⟨.empty, #[], #[.loading]⟩ (numberedLines bytecode) with
  | error reason =>
      rw [declarations] at loaded
      contradiction
  | ok split =>
      obtain ⟨declared, rest⟩ := split
      rw [declarations] at loaded
      change loadInstructions rest >>= _ = _ at loaded
      cases instructions : loadInstructions rest with
      | error reason =>
          rw [instructions] at loaded
          contradiction
      | ok program =>
          rw [instructions] at loaded
          exact ⟨declared, rest, program, rfl, instructions, (Except.ok.inj loaded).symm⟩

theorem loadDeclarations_executed {lines : List (Nat × String)} {image after : Image}
    {rest : List (Nat × String)} (loaded : image.loadDeclarations lines = .ok (after, rest)) :
    executedIn after.console = executedIn image.console := by
  induction lines generalizing image with
  | nil => contradiction
  | cons line others ih =>
      obtain ⟨number, text⟩ := line
      rw [loadDeclarations] at loaded
      split at loaded
      · obtain ⟨rfl, -⟩ := Prod.mk.inj (Except.ok.inj loaded)
        rfl
      · split at loaded
        · exact ih loaded
        · split at loaded
          · next declared _ =>
              rw [ih loaded]
              cases declared <;> exact (executedIn_push _ _).trans (List.append_nil _)
          · contradiction

/-- Nothing is executed before a loaded program starts. -/
theorem start_executed {bytecode : String} {image : Image} (loaded : load bytecode = .ok image)
    (settings : RunSettings) : executedIn (image.start settings).console = [] := by
  obtain ⟨declared, rest, instructions, declarations, -, rfl⟩ := exists_of_load loaded
  show executedIn (((declared.console.push .loadingInstructions).push .loaded).push .starting) = []
  rw [executedIn_push, executedIn_push, executedIn_push, loadDeclarations_executed declarations]
  rfl

variable (image : Image) (settings : RunSettings)

/-- The last state of a run. -/
def last : MachineState := ((image.start settings).runFor image.program settings.budget).1

theorem run_output : (image.run settings).output = (image.last settings).output := rfl

theorem run_variables : (image.run settings).variables = (image.last settings).environment := rfl

/-- The last line of the log tells how the run ended. -/
theorem run_console : ∃ entry : ConsoleEntry, entry.executed? = none ∧
    (image.run settings).console = (image.last settings).console.push entry := by
  refine ⟨_, ?_, rfl⟩
  generalize ((image.start settings).runFor image.program settings.budget).2 = ending
  cases ending <;> rfl

theorem run_console_dropLast :
    (image.run settings).console.toList.dropLast = (image.last settings).console.toList := by
  obtain ⟨entry, -, console⟩ := image.run_console settings
  rw [console, Array.toList_push, List.dropLast_concat]

theorem run_executed : (image.run settings).executed = executedIn (image.last settings).console := by
  obtain ⟨entry, none, console⟩ := image.run_console settings
  rw [Execution.executed, console, executedIn_push, none]
  exact List.append_nil _

end Image

end StackLang
