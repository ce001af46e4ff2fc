import StackLang.Machine.Run

/-!
# Walks of the machine

A walk is a sequence of steps that neither fault nor halt, in which every state
that is left satisfies some predicate.  What a limited run does is determined
by a walk from its first state, however long the rest of the run is.
-/

namespace StackLang

namespace MachineState

variable {program : Array Instruction}

/-- The state after the next instruction, unless it stops the program. -/
def step? (program : Array Instruction) (state : MachineState) : Option MachineState :=
  match program[state.position]? with
  | none => none
  | some instruction =>
      match (state.log (.executing instruction)).execute program.size instruction with
      | .ok (.next, after) => some { after with position := after.position + 1 }
      | .ok (.jump position, after) => some { after with position := position }
      | .ok (.halt, _) => none
      | .error _ => none

/-- The next instruction faults. -/
def Faults (program : Array Instruction) (fault : Fault) (state : MachineState) : Prop :=
  ∃ instruction, program[state.position]? = some instruction ∧
    (state.log (.executing instruction)).execute program.size instruction = .error fault

/-- The next instruction halts. -/
def Halts (program : Array Instruction) (state : MachineState) : Prop :=
  program[state.position]? = some (.operate .halt)

theorem step?_of_next {state after : MachineState} {instruction : Instruction}
    (here : program[state.position]? = some instruction)
    (result : (state.log (.executing instruction)).execute program.size instruction =
      .ok (.next, after)) :
    step? program state = some { after with position := after.position + 1 } := by
  simp [step?, here, result]

theorem step?_of_jump {state after : MachineState} {instruction : Instruction} {position : Nat}
    (here : program[state.position]? = some instruction)
    (result : (state.log (.executing instruction)).execute program.size instruction =
      .ok (.jump position, after)) :
    step? program state = some { after with position := position } := by
  simp [step?, here, result]

/-- One step of a run with something left of its budget. -/
theorem runFor_step {state after : MachineState} (step : step? program state = some after)
    (budget : Nat) : runFor program (budget + 1) state = runFor program budget after := by
  unfold step? at step
  split at step
  · contradiction
  next instruction here =>
    rw [runFor, here]
    dsimp only
    split at step
    · next result =>
        rw [result]
        exact congrArg _ (Option.some.inj step)
    · next result =>
        rw [result]
        exact congrArg _ (Option.some.inj step)
    · contradiction
    · contradiction

theorem cutOff_of_step {state after : MachineState} (step : step? program state = some after) :
    runFor program 0 state = (state, .cutOff) := by
  unfold step? at step
  split at step
  · contradiction
  next instruction here =>
    rw [runFor, here]

/-- A run that is not cut off ends in the same way with any larger budget. -/
theorem runFor_of_le {budget larger : Nat} {state : MachineState}
    (ends : (runFor program budget state).2 ≠ .cutOff) (enough : budget ≤ larger) :
    runFor program larger state = runFor program budget state := by
  induction budget generalizing larger state with
  | zero =>
      cases here : program[state.position]? with
      | none => cases larger <;> simp [runFor, here]
      | some instruction =>
          rw [runFor, here] at ends
          exact absurd rfl ends
  | succ fewer ih =>
      obtain ⟨more, rfl⟩ := Nat.exists_eq_add_of_le' enough
      rw [← Nat.add_assoc, runFor, runFor]
      rw [runFor] at ends
      cases here : program[state.position]? with
      | none => rfl
      | some instruction =>
          rw [here] at ends
          dsimp only at ends ⊢
          cases result : (state.log (.executing instruction)).execute program.size instruction with
          | error fault => rfl
          | ok went =>
              obtain ⟨flow, after⟩ := went
              rw [result] at ends
              cases flow with
              | halt => rfl
              | next => exact ih ends (Nat.le_add_left _ _)
              | jump position => exact ih ends (Nat.le_add_left _ _)

theorem runFor_of_faults {state : MachineState} {fault : Fault}
    (faults : state.Faults program fault) (budget : Nat) :
    ∃ entry, runFor program (budget + 1) state = (state.log entry, .faulted fault) := by
  obtain ⟨instruction, here, result⟩ := faults
  refine ⟨.executing instruction, ?_⟩
  rw [runFor, here]
  dsimp only
  rw [result]

theorem step?_of_faults {state : MachineState} {fault : Fault}
    (faults : state.Faults program fault) : step? program state = none := by
  obtain ⟨instruction, here, result⟩ := faults
  simp [step?, here, result]

end MachineState

/-- The error that a run with some settings reports. -/
def Ending.error? (settings : RunSettings) : Ending → Option Fault
  | .halted | .endReached => none
  | .faulted fault => some fault
  | .cutOff => some (.stepLimit settings.budget)

/-- What a run reports, its fault or its limit, is why it ended. -/
theorem Ending.error?_eq_some {settings : RunSettings} {ending : Ending} {error : Fault}
    (reported : ending.error? settings = some error) :
    ending = .faulted error ∨ error = .stepLimit settings.budget := by
  cases ending with
  | halted | endReached => simp [error?] at reported
  | faulted fault => exact .inl (congrArg Ending.faulted (Option.some.inj reported))
  | cutOff => exact .inr (Option.some.inj reported).symm

theorem Ending.error?_eq_none {settings : RunSettings} {ending : Ending}
    (clean : ending.error? settings = none) : ending = .halted ∨ ending = .endReached := by
  cases ending with
  | halted => exact .inl rfl
  | endReached => exact .inr rfl
  | faulted | cutOff => simp [error?] at clean

namespace Image

variable (image : Image) (settings : RunSettings)

/-- How a run of a loaded program ends. -/
def ending : Ending := ((image.start settings).runFor image.program settings.budget).2

theorem run_error : (image.run settings).error = (image.ending settings).error? settings := by
  rw [run, ending]
  generalize (image.start settings).runFor image.program settings.budget = result
  obtain ⟨last, ending⟩ := result
  cases ending <;> rfl

theorem run_halted : (image.run settings).halted = decide (image.ending settings = .halted) := by
  rw [run, ending]
  generalize (image.start settings).runFor image.program settings.budget = result
  obtain ⟨last, ending⟩ := result
  cases ending <;> rfl

end Image

/-- Some number of steps from one state to another; `admits` holds of the states
that are left. -/
inductive Walk (admits : MachineState → Prop) (program : Array Instruction) :
    Nat → MachineState → MachineState → Prop
  | here (state : MachineState) : Walk admits program 0 state state
  | step {count : Nat} {first middle last : MachineState} (admitted : admits first)
      (next : MachineState.step? program first = some middle)
      (rest : Walk admits program count middle last) :
      Walk admits program (count + 1) first last

namespace Walk

variable {admits : MachineState → Prop} {program : Array Instruction} {count more : Nat}
  {first middle last : MachineState}

theorem trans (front : Walk admits program count first middle)
    (back : Walk admits program more middle last) :
    Walk admits program (count + more) first last := by
  induction front with
  | here => simpa using back
  | step admitted next rest ih =>
      have longer := Walk.step admitted next (ih back)
      rwa [Nat.add_right_comm] at longer

/-- A run that has the budget for a walk goes on from its end. -/
theorem runFor_add (walk : Walk admits program count first last) (budget : Nat) :
    MachineState.runFor program (count + budget) first =
      MachineState.runFor program budget last := by
  induction walk with
  | here => rw [Nat.zero_add]
  | step admitted next rest ih =>
      rw [Nat.add_right_comm, MachineState.runFor_step next, ih]

/-- A run with too small a budget for a walk is cut off. -/
theorem runFor_cutOff {budget : Nat} (walk : Walk admits program count first last)
    (short : budget < count) :
    ∃ state, MachineState.runFor program budget first = (state, .cutOff) := by
  induction walk generalizing budget with
  | here => contradiction
  | step admitted next rest ih =>
      cases budget with
      | zero => exact ⟨_, MachineState.cutOff_of_step next⟩
      | succ smaller =>
          rw [MachineState.runFor_step next]
          exact ih (Nat.lt_of_succ_lt_succ short)

/-- The states that are left after fewer steps than a walk has are admitted. -/
theorem admits_of_lt {other : MachineState → Prop} {state : MachineState}
    (walk : Walk admits program count first last) (shorter : Walk other program more first state)
    (fewer : more < count) : admits state := by
  induction shorter generalizing count with
  | here =>
      cases walk with
      | here => contradiction
      | step admitted next rest => exact admitted
  | step _ next rest ih =>
      cases walk with
      | here => contradiction
      | step admitted taken walked =>
          rw [next] at taken
          obtain rfl := Option.some.inj taken
          exact ih walked (Nat.lt_of_succ_lt_succ fewer)

/-- A walk to a state that cannot be left is as long as any. -/
theorem le_of_stuck {other : MachineState → Prop} {state : MachineState}
    (walk : Walk admits program count first last) (stuck : MachineState.step? program last = none)
    (longer : Walk other program more first state) :
    more ≤ count ∧ (more = count → state = last) := by
  induction walk generalizing more with
  | here =>
      cases longer with
      | here => exact ⟨Nat.le_refl _, fun _ => rfl⟩
      | step _ next rest =>
          rw [stuck] at next
          contradiction
  | step admitted next rest ih =>
      cases longer with
      | here => exact ⟨Nat.zero_le _, by intro impossible; contradiction⟩
      | step _ taken walked =>
          rw [next] at taken
          obtain rfl := Option.some.inj taken
          obtain ⟨bound, same⟩ := ih stuck walked
          exact ⟨Nat.succ_le_succ bound, fun equal => same (Nat.succ.inj equal)⟩

end Walk

end StackLang
