import StackLang.Proofs.Machine.Record

/-!
# Runs under a step limit

A step limit cuts a run off and changes nothing before that: the run under a larger limit
goes on from where the shorter one was cut off.  An instruction that faults leaves no more
behind than a run that is cut off in front of it.
-/

namespace StackLang

open MachineState

/-- A run on some input under a step limit. -/
def RunSettings.limited (input : List String) (limit : Nat) : RunSettings := ⟨input, some limit⟩

/-- A run on some input without a step limit. -/
def RunSettings.unlimited (input : List String) : RunSettings := ⟨input, none⟩

namespace Image

variable {image : Image} {settings : RunSettings}

/-- Only a run that is cut off reports its step limit. -/
theorem cutOff_of_stepLimit {number : Nat}
    (error : (image.run settings).error = some (.stepLimit number)) :
    image.ending settings = .cutOff ∧ number = settings.budget := by
  rw [run_error] at error
  cases ending : image.ending settings with
  | halted | endReached => rw [ending] at error; contradiction
  | faulted fault =>
      rw [ending] at error
      obtain rfl := Option.some.inj error
      exact absurd rfl (proper_of_faulted ending number)
  | cutOff =>
      rw [ending] at error
      exact ⟨rfl, (Fault.stepLimit.inj (Option.some.inj error)).symm⟩

/-- A run that reports no step limit ends in the same way with any larger budget. -/
theorem run_of_budget_le {other : RunSettings} (same : other.input = settings.input)
    (enough : settings.budget ≤ other.budget)
    (ends : ∀ number, (image.run settings).error ≠ some (.stepLimit number)) :
    image.run other = image.run settings := by
  have notCut : image.ending settings ≠ .cutOff := by
    intro cut
    apply ends settings.budget
    rw [run_error, cut]
    rfl
  have start : image.start other = image.start settings := by rw [start, start, same]
  rw [run, run, start, runFor_of_le notCut enough]
  generalize result : (image.start settings).runFor image.program settings.budget = stopped
  obtain ⟨state, ending⟩ := stopped
  have notCut : ending ≠ .cutOff := by
    rintro rfl
    rw [Image.ending, result] at notCut
    exact notCut rfl
  cases ending with
  | halted | endReached | faulted => rfl
  | cutOff => exact absurd rfl notCut

/-- The run under a larger limit goes on from where the shorter one was cut off. -/
theorem last_extends {input : List String} {limit larger : Nat} (ordered : limit ≤ larger) :
    (image.last (.limited input limit)).Extends (image.last (.limited input larger)) := by
  by_cases cut : image.ending (.limited input limit) = .cutOff
  · obtain ⟨walk, -⟩ := walk_of_cutOff cut
    obtain ⟨more, rfl⟩ := Nat.exists_eq_add_of_le ordered
    have later : image.last (.limited input (limit + more)) =
        ((image.last (.limited input limit)).runFor image.program more).1 :=
      congrArg Prod.fst (walk.runFor_add more)
    rw [later]
    exact runFor_extends _ _ _
  · have same : image.last (.limited input larger) = image.last (.limited input limit) :=
      congrArg Prod.fst (runFor_of_le cut ordered)
    rw [same]
    exact .refl _

/-- How a run under a step limit compares with a run under a larger one, and with the run
without a limit. -/
structure Truncates (image : Image) (input : List String) (limit larger : Nat) : Prop where
  /-- No more instructions are executed than the limit allows. -/
  executed : (image.run (.limited input limit)).executed.length ≤ limit
  output : ∃ written, (image.run (.limited input larger)).output =
    (image.run (.limited input limit)).output ++ written
  /-- All but the last line of the log, which tells how the run ended. -/
  console : (image.run (.limited input limit)).console.toList.dropLast <+:
    (image.run (.limited input larger)).console.toList
  /-- A run that is not cut off is the run under any larger limit, and under none. -/
  ended : (∀ number, (image.run (.limited input limit)).error ≠ some (.stepLimit number)) →
    image.run (.limited input larger) = image.run (.limited input limit) ∧
      image.run (.unlimited input) = image.run (.limited input limit)
  /-- A run that is cut off reports its limit and has executed as many instructions, and
  without a limit a further one is executed next. -/
  cutOff : ∀ number, (image.run (.limited input limit)).error = some (.stepLimit number) →
    number = limit ∧ (image.run (.limited input limit)).executed.length = limit ∧
      ∃ instruction, (image.run (.limited input limit)).console.toList.dropLast ++
        [.executing instruction] <+: (image.run (.unlimited input)).console.toList

/-- A step limit, which is a number of 64 bits, only truncates a run. -/
theorem run_truncates {bytecode : String} {image : Image} (loaded : load bytecode = .ok image)
    (input : List String) {limit larger : Nat} (ordered : limit ≤ larger)
    (word : limit < UInt64.size) : image.Truncates input limit larger := by
  have start := start_executed loaded (.limited input limit)
  constructor
  · have most := runFor_executed_le image.program limit (image.start (.limited input limit))
    rw [start, List.length_nil, Nat.zero_add] at most
    rw [run_executed]
    exact most
  · exact (last_extends ordered).output
  · obtain ⟨entry, -, console⟩ := image.run_console (.limited input larger)
    rw [run_console_dropLast, console, Array.toList_push]
    exact (last_extends ordered).console.trans (List.prefix_append _ _)
  · intro ends
    constructor
    · exact run_of_budget_le rfl ordered ends
    · exact run_of_budget_le rfl (Nat.le_of_lt word) ends
  · intro number error
    obtain ⟨cut, reported⟩ := cutOff_of_stepLimit error
    obtain ⟨walk, instruction, here⟩ := walk_of_cutOff cut
    refine ⟨reported, ?_, instruction, ?_⟩
    · have walked := walk.executed_length
      rw [start, List.length_nil, Nat.zero_add] at walked
      rw [run_executed]
      exact walked
    · obtain ⟨more, total⟩ := Nat.exists_eq_add_of_lt word
      have later : image.last (.unlimited input) =
          ((image.last (.limited input limit)).runFor image.program (more + 1)).1 := by
        have budget : (RunSettings.unlimited input).budget = limit + (more + 1) := total
        rw [last, budget]
        exact congrArg Prod.fst (walk.runFor_add (more + 1))
      obtain ⟨entry, -, console⟩ := image.run_console (.unlimited input)
      have logged := (logs_next here more).console
      rw [log, Array.toList_push] at logged
      rw [run_console_dropLast, console, Array.toList_push, later]
      exact logged.trans (List.prefix_append _ _)

/-- A loop that prints is cut off in its fourth round. -/
theorem run_truncates_loop :
    let bytecode := "@\nlit 7, 0\nopr 20, 0\njmp 1, 0\n"
    let image : Image := ⟨.empty, #[.literal "7", .operate .print, .jump "1"],
      #[.loading, .loadingInstructions, .loaded]⟩
    load bytecode = .ok image ∧ 10 ≤ 20 ∧ 10 < UInt64.size ∧ image.Truncates [] 10 20 := by
  intro bytecode image
  have loaded : load bytecode = .ok image := by
    dsimp only [bytecode, image]
    rfl
  exact ⟨loaded, by decide, by decide, run_truncates loaded [] (by decide) (by decide)⟩

/-! ## Faults -/

end Image

end StackLang
