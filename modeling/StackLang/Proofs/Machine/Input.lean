import StackLang.Proofs.Machine.Record

/-!
# Input of running programs

A machine sees its input only through the lines that its reads take, one line for each
read.  Two runs on inputs that agree on these lines have the same outcome, and a line that
is missing counts as `0`.
-/

namespace StackLang

open MachineState

/-- The line that a read takes behind a number of others. -/
def lineAt (input : List String) (index : Nat) : String := input[index]?.getD "0"

theorem lineAt_tail (input : List String) (index : Nat) :
    lineAt input.tail index = lineAt input (index + 1) := by
  rw [lineAt, List.getElem?_tail, lineAt]

/-- Whether an instruction takes a line of the input. -/
def Instruction.reads (instruction : Instruction) : Bool :=
  match instruction.opcode, operationOf instruction.first with
  | .opr, .ok .read => true
  | _, _ => false

/-- The number of reads that a run has executed. -/
def Execution.reads (execution : Execution) : Nat :=
  execution.executed.countP Instruction.reads

namespace MachineState

/-! ## Single instructions -/

/-- The machine with other input. -/
def supplied (state : MachineState) (input : List String) : MachineState :=
  { state with input := input }

/-- What an instruction results in, with other input. -/
def resupplied (input : List String) (result : Flow × MachineState) : Flow × MachineState :=
  (result.1, result.2.supplied input)

theorem bind_resupplied {α : Type} {input : List String} (answer : Except Fault α)
    {next other : α → Except Fault (Flow × MachineState)}
    (same : ∀ value, next value = (other value).map (resupplied input)) :
    (answer >>= next) = (answer >>= other).map (resupplied input) := by
  cases answer with
  | error fault => rfl
  | ok value => exact same value

variable (state : MachineState) (input : List String)

@[simp]
theorem supplied_position : (state.supplied input).position = state.position := rfl

@[simp]
theorem supplied_input : (state.supplied input).input = input := rfl

@[simp]
theorem supplied_log (entry : ConsoleEntry) :
    (state.supplied input).log entry = (state.log entry).supplied input := rfl

theorem applyPair_supplied (function : Value → Value → Except Fault Value) :
    (state.supplied input).applyPair function =
      (state.applyPair function).map (resupplied input) := by
  obtain ⟨environment, stack, position, _, output, console⟩ := state
  match stack with
  | [] | [_] => rfl
  | right :: left :: rest =>
      exact bind_resupplied (function left right) fun _ => rfl

theorem operate_supplied {operation : Operation} (other : operation ≠ .read) :
    (state.supplied input).operate operation =
      (state.operate operation).map (resupplied input) := by
  cases operation with
  | halt | giveBack => rfl
  | add | sub | mul | div | greater | less => exact state.applyPair_supplied input _
  | or | and | equal | notEqual =>
      unfold operate
      exact state.applyPair_supplied input _
  | not | print | printLine =>
      obtain ⟨environment, stack, position, _, output, console⟩ := state
      cases stack <;> rfl
  | read => contradiction

theorem operate_read_supplied (same : lineAt input 0 = lineAt state.input 0) :
    (state.supplied input).operate .read =
      (state.operate .read).map (resupplied input.tail) := by
  have line : input.head?.getD "0" = state.input.head?.getD "0" := by
    rw [List.head?_eq_getElem?, List.head?_eq_getElem?]
    exact same
  rw [operate, operate, supplied_input, line]
  rfl

/-- Other input makes a difference to a read only, and only if it takes another line. -/
theorem execute_supplied (size : Nat) (instruction : Instruction)
    (same : instruction.reads = true → lineAt input 0 = lineAt state.input 0) :
    (state.supplied input).execute size instruction =
      (state.execute size instruction).map
        (resupplied (if instruction.reads then input.tail else input)) := by
  obtain ⟨opcode, first, second⟩ := instruction
  cases opcode with
  | lit => rfl
  | lod => exact bind_resupplied (state.environment.get first) fun _ => rfl
  | sto =>
      obtain ⟨environment, stack, position, _, output, console⟩ := state
      cases stack with
      | nil => rfl
      | cons value rest => exact bind_resupplied (environment.assign first value) fun _ => rfl
  | jmp => exact bind_resupplied (state.target size first) fun _ => rfl
  | jmc =>
      obtain ⟨environment, stack, position, _, output, console⟩ := state
      cases stack with
      | nil => rfl
      | cons value rest =>
          let popped : MachineState := ⟨environment, rest, position, input, output, console⟩
          show (if value.flag = canonicalFlag second then
            popped.target size first >>= fun position => pure (Flow.jump position, popped)
            else pure (Flow.next, popped)) = Except.map _ (if _ then _ else _)
          split
          · exact bind_resupplied (popped.target size first) fun _ => rfl
          · rfl
  | opr =>
      show (operationOf first >>= _) = Except.map _ (operationOf first >>= _)
      cases found : operationOf first with
      | error fault => rfl
      | ok operation =>
          by_cases read : operation = .read
          · subst read
            have reads : Instruction.reads ⟨.opr, first, second⟩ = true := by
              rw [Instruction.reads, found]
            rw [if_pos reads]
            exact state.operate_read_supplied input (same reads)
          · have other : Instruction.reads ⟨.opr, first, second⟩ = false := by
              rw [Instruction.reads, found]
              cases operation <;> first | rfl | contradiction
            rw [other]
            exact state.operate_supplied input read

/-! ## Runs -/

/-- The first lines of two inputs agree, those that are missing being `0`. -/
def Agree (count : Nat) (input other : List String) : Prop :=
  ∀ index < count, lineAt input index = lineAt other index

theorem Agree.tail {count : Nat} {input other : List String} (agree : Agree (count + 1) input other) :
    Agree count input.tail other.tail := by
  intro index inside
  rw [lineAt_tail, lineAt_tail]
  exact agree (index + 1) (Nat.succ_lt_succ inside)

/-- The number of reads in a log. -/
def readsIn (console : Array ConsoleEntry) : Nat := (executedIn console).countP Instruction.reads

theorem Extends.readsIn_le {state later : MachineState} (grown : state.Extends later) :
    readsIn state.console ≤ readsIn later.console :=
  (grown.console.sublist.filterMap _).countP_le

theorem Executes.readsIn_eq {instruction : Instruction} {state after : MachineState}
    (executes : Executes instruction state after) :
    readsIn after.console = readsIn state.console + if instruction.reads then 1 else 0 := by
  rw [readsIn, executes.executed, List.countP_append, List.countP_singleton]
  rfl

variable {program : Array Instruction}

/-- A step with other input, which has lost a line if the step is a read. -/
theorem step?_supplied {state after : MachineState} {input : List String}
    {instruction : Instruction} (here : program[state.position]? = some instruction)
    (same : instruction.reads = true → lineAt input 0 = lineAt state.input 0)
    (step : step? program state = some after) :
    step? program (state.supplied input) =
      some (after.supplied (if instruction.reads then input.tail else input)) := by
  rw [step?, here] at step
  rw [step?, supplied_position, here]
  dsimp only at step ⊢
  rw [supplied_log, execute_supplied (state.log _) _ _ _ same]
  cases result : (state.log (.executing instruction)).execute program.size instruction with
  | error fault =>
      rw [result] at step
      contradiction
  | ok went =>
      obtain ⟨flow, moved⟩ := went
      rw [result] at step
      cases flow with
      | next | jump =>
          obtain rfl := Option.some.inj step
          rfl
      | halt => contradiction

/-- A read takes one line, and nothing else takes any. -/
theorem input_of_step? {state after : MachineState} {instruction : Instruction}
    (here : program[state.position]? = some instruction)
    (step : step? program state = some after) :
    after.input = if instruction.reads then state.input.tail else state.input := by
  have same := step?_supplied here (fun _ => rfl) step
  rw [show state.supplied state.input = state from rfl, step] at same
  exact congrArg MachineState.input (Option.some.inj same)

/-- A run that stops at once stops in the same way with other input. -/
theorem runFor_stuck_supplied (budget : Nat) {state : MachineState} {input : List String}
    {instruction : Instruction} (here : program[state.position]? = some instruction)
    (same : instruction.reads = true → lineAt input 0 = lineAt state.input 0)
    (stuck : step? program state = none) :
    ∃ rest, (state.supplied input).runFor program (budget + 1) =
      ((state.runFor program (budget + 1)).1.supplied rest,
        (state.runFor program (budget + 1)).2) := by
  rw [runFor, runFor, supplied_position, here]
  dsimp only
  rw [supplied_log, execute_supplied (state.log _) _ _ _ same]
  cases result : (state.log (.executing instruction)).execute program.size instruction with
  | error fault => exact ⟨input, rfl⟩
  | ok went =>
      obtain ⟨flow, after⟩ := went
      cases flow with
      | next =>
          rw [step?_of_next here result] at stuck
          contradiction
      | jump position =>
          rw [step?_of_jump here result] at stuck
          contradiction
      | halt => exact ⟨_, rfl⟩

/-- Runs on inputs that agree on the lines that are read end in the same way. -/
theorem runFor_supplied (program : Array Instruction) (budget : Nat) (state : MachineState)
    {input : List String} {count : Nat} (agree : Agree count input state.input)
    (few : readsIn (state.runFor program budget).1.console ≤ readsIn state.console + count) :
    ∃ rest, (state.supplied input).runFor program budget =
      ((state.runFor program budget).1.supplied rest, (state.runFor program budget).2) := by
  induction budget generalizing state input count with
  | zero =>
      refine ⟨input, ?_⟩
      rw [runFor, runFor, supplied_position]
      cases program[state.position]? <;> rfl
  | succ budget ih =>
      cases here : program[state.position]? with
      | none =>
          refine ⟨input, ?_⟩
          rw [runFor, runFor, supplied_position, here]
      | some instruction =>
          -- A read is logged, so one of the lines that the inputs agree on is left for it.
          have positive : instruction.reads = true → 0 < count := by
            intro reads
            have logged : readsIn (state.log (.executing instruction)).console =
                readsIn state.console + 1 := by
              show (executedIn (state.console.push _)).countP _ = _
              rw [executedIn_push, List.countP_append]
              exact congrArg (_ + ·) (List.countP_singleton.trans (if_pos reads))
            have later := (logs_next here budget).readsIn_le
            omega
          have same (reads : instruction.reads = true) : lineAt input 0 = lineAt state.input 0 :=
            agree 0 (positive reads)
          cases next : step? program state with
          | none => exact runFor_stuck_supplied budget here same next
          | some after =>
              obtain ⟨found, there, executes⟩ := executes_of_step? next
              obtain rfl := Option.some.inj (here.symm.trans there)
              have taken := input_of_step? here next
              have logged := executes.readsIn_eq
              have later := step?_supplied here same next
              rw [runFor_step next] at few ⊢
              rw [runFor_step later]
              cases reads : instruction.reads with
              | true =>
                  obtain ⟨fewer, rfl⟩ := Nat.exists_eq_add_of_lt (positive reads)
                  rw [reads, if_pos rfl] at taken logged
                  have behind : Agree fewer input.tail after.input := by
                    rw [taken]
                    apply Agree.tail
                    rwa [Nat.zero_add] at agree
                  exact ih after behind (by omega)
              | false =>
                  rw [reads, if_neg Bool.false_ne_true] at taken logged
                  have behind : Agree count input after.input := taken.symm ▸ agree
                  exact ih after behind (by omega)

end MachineState

/-! ## Outcomes -/

/-- Lines of `0` behind an input make no difference to what is read. -/
theorem lineAt_append_replicate (input : List String) (missing index : Nat) :
    lineAt (input ++ List.replicate missing "0") index = lineAt input index := by
  rw [lineAt, lineAt]
  rcases Nat.lt_or_ge index input.length with inside | past
  · rw [List.getElem?_append_left inside]
  · rw [List.getElem?_append_right past, List.getElem?_eq_none past, List.getElem?_replicate]
    split <;> rfl

theorem agree_of_take {count : Nat} {input other : List String}
    (same : other.take count = input.take count) : Agree count other input := by
  intro index inside
  rw [lineAt, lineAt, ← List.getElem?_take_of_lt inside, same, List.getElem?_take_of_lt inside]

namespace Image

theorem run_of_agree (image : Image) {input other : List String} {limit : Option Nat} {count : Nat}
    (agree : Agree count other input) (few : (image.run ⟨input, limit⟩).reads ≤ count) :
    image.run ⟨other, limit⟩ = image.run ⟨input, limit⟩ := by
  have reads : (image.run ⟨input, limit⟩).reads = readsIn (image.last ⟨input, limit⟩).console :=
    congrArg (List.countP Instruction.reads) (image.run_executed ⟨input, limit⟩)
  have enough : readsIn (image.last ⟨input, limit⟩).console ≤
      readsIn (image.start ⟨input, limit⟩).console + count :=
    Nat.le_trans (reads ▸ few) (Nat.le_add_left _ _)
  obtain ⟨rest, same⟩ := runFor_supplied image.program (RunSettings.budget ⟨input, limit⟩)
    (image.start ⟨input, limit⟩) agree enough
  have other : (image.start ⟨other, limit⟩).runFor image.program
      (RunSettings.budget ⟨other, limit⟩) = _ := same
  rw [run, run, other]
  generalize (image.start ⟨input, limit⟩).runFor image.program
    (RunSettings.budget ⟨input, limit⟩) = result
  obtain ⟨state, ending⟩ := result
  cases ending <;> rfl

end Image

theorem execute_eq_map (bytecode : String) (settings : RunSettings) :
    execute bytecode settings = (Image.load bytecode).map fun image => image.run settings := by
  rw [execute]
  cases Image.load bytecode <;> rfl

/-- A line that is missing from the input counts as `0`, and lines that no read takes make
no difference. -/
theorem execute_missing_lines (bytecode : String) (input : List String) (limit : Option Nat) :
    (∀ missing, execute bytecode ⟨input ++ List.replicate missing "0", limit⟩ =
      execute bytecode ⟨input, limit⟩) ∧
    ∀ execution, execute bytecode ⟨input, limit⟩ = .ok execution →
      ∀ count other, execution.reads ≤ count → other.take count = input.take count →
        execute bytecode ⟨other, limit⟩ = .ok execution := by
  rw [execute_eq_map]
  cases loaded : Image.load bytecode with
  | error reason =>
      refine ⟨fun missing => ?_, fun _ => nofun⟩
      rw [execute_eq_map, loaded]
      rfl
  | ok image =>
      constructor
      · intro missing
        rw [execute_eq_map, loaded]
        apply congrArg Except.ok
        apply image.run_of_agree ?_ (Nat.le_refl _)
        exact fun index _ => lineAt_append_replicate input missing index
      · intro execution executed count other few same
        obtain rfl := Except.ok.inj executed
        rw [execute_eq_map, loaded]
        exact congrArg Except.ok (image.run_of_agree (agree_of_take same) few)

/-- One line is read and printed, and a second one is not looked at. -/
theorem execute_first_line :
    let bytecode := "@\nopr 22, 0\nopr 21, 0\n"
    ∃ execution, execute bytecode ⟨["5"], none⟩ = .ok execution ∧ execution.reads ≤ 1 ∧
      ["5", "9"].take 1 = ["5"].take 1 ∧
      execute bytecode ⟨["5", "9"], none⟩ = .ok execution ∧
      execute bytecode ⟨["5"] ++ List.replicate 3 "0", none⟩ = .ok execution := by
  intro bytecode
  let image : Image := ⟨.empty, #[.operate .read, .operate .printLine],
    #[.loading, .loadingInstructions, .loaded]⟩
  have executed : execute bytecode ⟨["5"], none⟩ = .ok (image.run ⟨["5"], none⟩) := by
    have loaded : Image.load bytecode = .ok image := by
      dsimp only [bytecode, image]
      rfl
    rw [execute_eq_map, loaded]
    rfl
  have few : (image.run ⟨["5"], none⟩).reads ≤ 1 := by decide +kernel
  obtain ⟨padded, unread⟩ := execute_missing_lines bytecode ["5"] none
  exact ⟨_, executed, few, rfl, unread _ executed 1 _ few rfl, (padded 3).trans executed⟩

end StackLang
