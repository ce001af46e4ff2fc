import StackLang.Proofs.Simulation.Program

/-!
# Runs of simulated programs

An interpretation that ends describes every run whose budget is large enough.  A
run is cut off if a loop exceeds a bound that is larger than its budget, and no
state of it breaks the discipline.
-/

namespace StackLang

/-- A run that an interpretation describes ends like this. -/
def Progress.Ends : Progress → Ending → Prop
  | .done, ending => ending = .halted
  | .faulted fault, ending => ending = .faulted fault
  | .left, _ => False
  | .exhausted, _ => False

theorem Progress.Ends.not_cutOff {progress : Progress} {ending : Ending}
    (ends : progress.Ends ending) : ending ≠ .cutOff := by
  rintro rfl
  cases progress <;> contradiction

theorem Progress.Ends.faulted {progress : Progress} {fault : Fault}
    (ends : progress.Ends (.faulted fault)) : progress = .faulted fault := by
  cases progress with
  | faulted other => exact congrArg Progress.faulted (Ending.faulted.inj ends).symm
  | done | left | exhausted => contradiction

/-- A run without a step limit ends with this: so does every run with a large enough
one. -/
def MachineState.RunsTo (program : Array Instruction) (state : MachineState)
    (result : MachineState × Ending) : Prop :=
  result.2 ≠ .cutOff ∧ ∃ steps, ∀ budget, steps ≤ budget → state.runFor program budget = result

/-- A run without a step limit does not end. -/
def MachineState.RunsForever (program : Array Instruction) (state : MachineState) : Prop :=
  ∀ budget, (state.runFor program budget).2 = .cutOff

/-- What a run ends with is what an interpretation ends with: the variables
besides the labels, the rest of the input, the output and the fault, if any. -/
structure Outcome.Describes (labels : List (String × Nat)) (outcome : Outcome)
    (result : MachineState × Ending) : Prop where
  environment : result.1.environment.toList =
    outcome.store.environment.toList ++ labelVariables labels
  input : result.1.input = outcome.store.input
  output : result.1.output = outcome.store.output
  ending : outcome.progress.Ends result.2

namespace Setup

variable {setup : Setup} {bound finish : Nat} {outcome : Outcome} {state last : MachineState}

/-- Where an interpretation ends, the machine stops. -/
theorem Lands.stops (halts : ∀ last : MachineState, last.position = finish →
      last.Halts setup.program)
    (lands : setup.Lands finish none outcome last) (ends : outcome.progress ≠ .exhausted) :
    setup.Admits last ∧ last.step? setup.program = none ∧
      ∀ budget, outcome.Describes setup.labels (last.runFor setup.program (budget + 1)) := by
  obtain ⟨progress, store⟩ := outcome
  cases progress with
  | done =>
      obtain ⟨stack, stacked⟩ := lands
      have halt := halts last stacked.position
      have here : setup.program[finish]? = some (.operate .halt) := by
        rw [← stacked.position]
        exact halt
      refine ⟨stacked.admitted here nofun, MachineState.step?_of_halts halt, ?_⟩
      · intro budget
        rw [MachineState.runFor_of_halts halt]
        exact ⟨stacked.matching.environment, stacked.matching.input, stacked.matching.output, rfl⟩
  | left =>
      obtain ⟨label, target, impossible, -⟩ := lands
      contradiction
  | faulted fault =>
      obtain ⟨allowed, stuck⟩ := lands
      refine ⟨stuck.admitted, MachineState.step?_of_faults stuck.faults, ?_⟩
      intro budget
      obtain ⟨entry, run⟩ := MachineState.runFor_of_faults stuck.faults budget
      rw [run]
      exact ⟨stuck.matching.environment, stuck.matching.input, stuck.matching.output, rfl⟩
  | exhausted => contradiction

/-- A run ends as the interpretation does. -/
theorem Attains.describes (attains : setup.Attains 0 bound finish none outcome state)
    (halts : ∀ last : MachineState, last.position = finish → last.Halts setup.program)
    (ends : outcome.progress ≠ .exhausted) :
    ∃ result, state.RunsTo setup.program result ∧ outcome.Describes setup.labels result := by
  obtain ⟨count, last, -, walk, lands⟩ := attains
  obtain ⟨-, -, stops⟩ := lands.stops halts ends
  have described := stops 0
  rw [← walk.runFor_add] at described
  have final := described.ending.not_cutOff
  refine ⟨_, ⟨final, count + (0 + 1), ?_⟩, described⟩
  intro budget enough
  exact MachineState.runFor_of_le final enough

theorem Attains.cutOff (attains : setup.Attains 0 bound finish none outcome state)
    (exhausted : outcome.progress = .exhausted) {budget : Nat} (small : budget < bound) :
    ∃ last, state.runFor setup.program budget = (last, .cutOff) := by
  obtain ⟨count, last, enough, walk, -⟩ := attains
  rw [Outcome.cost, exhausted] at enough
  exact walk.runFor_cutOff (Nat.lt_of_lt_of_le small enough)

/-- A run does not end if the interpretation exceeds every bound. -/
theorem runsForever_of_exhausted {meaning : Nat → Outcome}
    (attains : ∀ bound, setup.Attains 0 bound finish none (meaning bound) state)
    (exhausted : ∀ bound, (meaning bound).progress = .exhausted) :
    state.RunsForever setup.program := by
  intro budget
  obtain ⟨last, cut⟩ := (attains (budget + 1)).cutOff (exhausted _) (Nat.lt_succ_self budget)
  rw [cut]

/-- Only allowed faults occur. -/
theorem Attains.allowed {fault : Fault}
    (attains : setup.Attains 0 bound finish none outcome state)
    (faulted : outcome.progress = .faulted fault) : setup.discipline.allows fault := by
  obtain ⟨count, last, -, -, lands⟩ := attains
  rw [Lands, faulted] at lands
  exact lands.1

/-- A run faults only as the discipline allows. -/
theorem allows_of_attains {meaning : Nat → Outcome}
    (attains : ∀ bound, setup.Attains 0 bound finish none (meaning bound) state)
    (halts : ∀ last : MachineState, last.position = finish → last.Halts setup.program)
    {budget : Nat} {fault : Fault}
    (faulted : (state.runFor setup.program budget).2 = .faulted fault) :
    setup.discipline.allows fault := by
  have attained := attains (budget + 1)
  by_cases exhausted : (meaning (budget + 1)).progress = .exhausted
  · obtain ⟨last, cut⟩ := attained.cutOff exhausted (Nat.lt_succ_self budget)
    rw [cut] at faulted
    contradiction
  · obtain ⟨result, ⟨-, steps, runs⟩, described⟩ := attained.describes halts exhausted
    have ends : (state.runFor setup.program budget).2 ≠ .cutOff := by
      rw [faulted]
      exact nofun
    have longer := MachineState.runFor_of_le ends (Nat.le_max_left budget steps)
    rw [runs _ (Nat.le_max_right budget steps)] at longer
    have ending := described.ending
    rw [longer, faulted] at ending
    exact attained.allowed ending.faulted

/-- The discipline holds of every state that a run passes through. -/
theorem admits_of_attains {meaning : Nat → Outcome}
    (attains : ∀ bound, setup.Attains 0 bound finish none (meaning bound) state)
    (halts : ∀ last : MachineState, last.position = finish → last.Halts setup.program)
    {anything : MachineState → Prop} {steps : Nat}
    (walk : Walk anything setup.program steps state last) : setup.Admits last := by
  obtain ⟨count, final, enough, walked, lands⟩ := attains (steps + 1)
  by_cases exhausted : (meaning (steps + 1)).progress = .exhausted
  · rw [Outcome.cost, exhausted] at enough
    exact walked.admits_of_lt walk enough
  · obtain ⟨admitted, stuck, -⟩ := lands.stops halts exhausted
    obtain ⟨shorter, same⟩ := walked.le_of_stuck stuck walk
    rcases Nat.lt_or_eq_of_le shorter with fewer | equal
    · exact walked.admits_of_lt walk fewer
    · exact same equal ▸ admitted

end Setup

end StackLang
