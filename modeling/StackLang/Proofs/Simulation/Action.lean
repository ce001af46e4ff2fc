import StackLang.Proofs.Simulation.Parts

/-!
# Simulation of single actions

Declarations, assignments and conditional jumps: what the parts of control
constructs do.
-/

namespace StackLang

theorem Store.assign_cost (store : Store) (name : String) (value : Value) (bound : Nat) :
    (store.assign name value).cost 0 bound = 0 := by
  unfold Store.assign
  cases store.environment.assign name value <;> rfl

/-- A variable that has been stored into has a value. -/
theorem Store.get_assign {store : Store} {name : String} {value : Value}
    (assigned : (store.assign name value).progress = .done) :
    ∃ stored, (store.assign name value).store.environment.get name = .ok stored := by
  unfold Store.assign at assigned ⊢
  cases outcome : store.environment.assign name value with
  | ok environment => exact Environment.get_assign outcome
  | error fault =>
      rw [outcome] at assigned
      contradiction

namespace Setup

variable {setup : Setup} {least bound position index finish : Nat} {exit : Option String}
  {methods : MethodTable} {store : Store} {state : MachineState} {stack : List Value}

theorem Stacked.storingAttains {name : String} {value : Value}
    (stacked : setup.Stacked position store (value :: stack) state) (plain : Plain name)
    (here : setup.program[position]? = some (.store name))
    (stores : setup.discipline.Stores name store.environment value) :
    setup.Attains 0 bound (position + 1) exit (store.assign name value) state := by
  rw [Attains, Store.assign_cost]
  exact stacked.storing plain here stores

/-- A value is computed and then stored. -/
theorem Attains.keep {middle : Nat} {name : String} {value? : Except Fault Value}
    (computed : setup.Reaches 0 state (setup.Computed middle store stack value?))
    (plain : Plain name) (here : setup.program[middle]? = some (.store name))
    (sound : setup.discipline.Accepts (setup.discipline.Stores name store.environment) value?) :
    setup.Attains 0 bound (middle + 1) exit (store.evaluate value? (store.assign name)) state := by
  apply Attains.evaluate computed sound
  intro value reached stores pushed
  exact pushed.storingAttains plain here stores

/-- A value is computed and forgotten. -/
theorem Attains.drop {middle : Nat} {value? : Except Fault Value}
    (computed : setup.Reaches 0 state (setup.Computed middle store stack value?))
    (sound : setup.discipline.Accepts (fun _ => True) value?) :
    setup.Attains 0 bound middle exit (store.evaluate value? fun _ => ⟨.done, store⟩) state := by
  apply Attains.evaluate computed sound
  intro value reached _ pushed
  exact Reaches.here ⟨_, pushed⟩

/-- A condition is computed and a conditional jump tests its flag. -/
theorem Attains.branch {condition : Foreseen} {label : String} {expected : Bool}
    {next : Value → Outcome} (solid : condition.Meets .solid)
    (respects : condition.Tests setup.discipline methods)
    (code : setup.Code position (condition.value.code methods ++ [.jumpIf label expected]))
    (placed : (label, index + 1) ∈ setup.labels) (here : setup.At position store state)
    (taken : ∀ value reached, value.flag = (Value.bool expected).flag →
      setup.At index store reached → setup.Attains least bound finish exit (next value) reached)
    (passed : ∀ value reached, value.flag ≠ (Value.bool expected).flag →
      setup.At (position + ((condition.value.code methods).length + 1)) store reached →
      setup.Attains least bound finish exit (next value) reached) :
    setup.Attains (least + 1) bound finish exit
      (store.evaluate (condition.value.eval methods store.environment) next) state := by
  obtain ⟨stack, stacked⟩ := here
  rw [code_append] at code
  obtain ⟨inside, jump⟩ := code
  have computed := condition.value.simulates methods solid.2 position stack state inside stacked
  apply Attains.evaluate computed (respects store.environment stacked.holds)
  intro value reached tests pushed
  have jumped := pushed.jumpIf jump.1 placed tests
  have more : setup.Reaches (1 + (next value).cost least bound) reached
      (setup.Lands finish exit (next value)) := by
    apply jumped.bind
    intro last found
    by_cases same : value.flag = (Value.bool expected).flag
    · rw [if_pos same] at found
      exact taken value last same ⟨stack, found⟩
    · rw [if_neg same] at found
      exact passed value last same ⟨stack, found⟩
  apply Reaches.mono more
  · unfold Outcome.cost
    split <;> omega
  · intro last lands
    exact lands

/-- A part that leaves no code and does nothing. -/
theorem Simulates.nothing :
    setup.Simulates 0 bound position position exit fun store => ⟨.done, store⟩ := by
  intro store state here
  exact Reaches.here here

theorem size_leaveUnless (methods : MethodTable) (condition : Foreseen) (label : String) :
    Listing.size (leaveUnless methods condition label) =
      (condition.value.code methods).length + 1 := by
  rw [leaveUnless, Listing.size_ofInstructions, List.length_append]
  rfl

/-- A part goes on behind its condition, or at the label if the condition fails. -/
theorem Simulates.choose {condition : Foreseen} {label : String} {yes no : Store → Outcome}
    (solid : condition.Meets .solid) (respects : condition.Tests setup.discipline methods)
    (code : Listing.PlacedAt setup.program setup.labels position
      (leaveUnless methods condition label))
    (placed : (label, index + 1) ∈ setup.labels)
    (failed : setup.Simulates 0 bound index finish exit no)
    (holds : setup.Simulates 0 bound
      (position + Listing.size (leaveUnless methods condition label)) finish exit yes) :
    setup.Simulates 0 bound position finish exit fun store =>
      store.evaluate (condition.value.eval methods store.environment) fun value =>
        if value.flag = "0" then no store else yes store := by
  rw [size_leaveUnless] at holds
  intro store state here
  apply Attains.fewer (Nat.zero_le 1)
  apply Attains.branch solid respects code placed here
  · intro value reached same found
    have flag : value.flag = "0" := same
    rw [if_pos flag]
    exact failed store reached found
  · intro value reached different found
    have flag : value.flag ≠ "0" := different
    rw [if_neg flag]
    exact holds store reached found

/-- The code that leaves a loop unless its condition holds. -/
theorem Simulates.leaveIf (bound : Nat) {condition : Foreseen} {label : String}
    (solid : condition.Meets .solid) (respects : condition.Tests setup.discipline methods)
    (code : Listing.PlacedAt setup.program setup.labels position
      (leaveUnless methods condition label))
    (placed : (label, index + 1) ∈ setup.labels) :
    setup.Simulates 0 bound position
      (position + Listing.size (leaveUnless methods condition label)) (some label)
      (condition.leaveIf methods "0") := by
  apply Simulates.choose solid respects code placed
  · intro store state found
    exact Reaches.here ⟨label, index, rfl, placed, found⟩
  · exact Simulates.nothing

/-- The code that repeats a loop if its condition holds; the end of the loop is
directly behind it. -/
theorem Simulates.leaveUnless (bound : Nat) {condition : Foreseen} {again label : String}
    (solid : condition.Meets .solid) (respects : condition.Tests setup.discipline methods)
    (code : Listing.PlacedAt setup.program setup.labels position
      (repeatIf methods condition again))
    (placed : (again, index + 1) ∈ setup.labels)
    (finish : (label, position + Listing.size (repeatIf methods condition again) + 1) ∈
      setup.labels) :
    setup.Simulates 1 bound position index (some label)
      (condition.leaveUnless methods "1") := by
  intro store state here
  have size : Listing.size (repeatIf methods condition again) =
      (condition.value.code methods).length + 1 := by
    rw [repeatIf, Listing.size_ofInstructions, List.length_append]
    rfl
  rw [size] at finish
  apply Attains.branch solid respects code placed here
  · intro value reached same found
    have flag : value.flag = "1" := same
    rw [if_pos flag]
    exact Reaches.here found
  · intro value reached different found
    have flag : value.flag ≠ "1" := different
    rw [if_neg flag]
    exact Reaches.here ⟨label, _, rfl, finish, found⟩

/-- A jump at the end of a part. -/
theorem Simulates.jump {label : String}
    (here : setup.program[position]? = some (.jump label))
    (placed : (label, index + 1) ∈ setup.labels) :
    setup.Simulates 1 bound position index exit fun store => ⟨.done, store⟩ := by
  intro store state found
  obtain ⟨stack, stacked⟩ := found
  apply Reaches.mono (stacked.jump here placed) (Nat.le_refl 1)
  intro reached jumped
  exact ⟨stack, jumped⟩

end Setup

open Setup

variable {setup : Setup} {bound position : Nat} {exit : Option String} {methods : MethodTable}

theorem Declaration.simulates (declaration : Declaration) (solid : declaration.Meets .solid)
    (respects : declaration.Respects setup.discipline methods)
    (code : setup.Code position (declaration.code methods)) :
    setup.Simulates 0 bound position (position + (declaration.code methods).length) exit
      (declaration.interpret methods) := by
  intro store state here
  obtain ⟨stack, stacked⟩ := here
  obtain ⟨type, name, initializer⟩ := declaration
  cases initializer with
  | none => exact Reaches.here ⟨stack, stacked⟩
  | some initializer =>
      have both := code_append.mp code
      obtain ⟨inside, keep⟩ := both
      have computed := initializer.value.value.simulates methods solid.2.2 position stack state
        inside stacked
      have finish : position + (Declaration.code methods ⟨type, name, some initializer⟩).length =
          position + (initializer.value.value.code methods).length + 1 :=
        congrArg (position + ·) (List.length_append)
      rw [finish]
      exact Attains.keep computed solid.1 keep.1 (respects store.environment stacked.holds)

/-- The target is combined with the value of the code in between, and stored. -/
theorem Setup.Stacked.update {stack : List Value} {store : Store} {state : MachineState}
    {name : String} {operator : BinaryOperator} {value? : Except Fault Value}
    (operand : List Instruction) (stacked : setup.Stacked position store stack state)
    (plain : Plain name)
    (code : setup.Code position
      (.load name :: (operand ++ (operator.operations.map .operate ++ [.store name]))))
    (computed : ∀ stack state, setup.Stacked (position + 1) store stack state →
      setup.Reaches 0 state (setup.Computed (position + 1 + operand.length) store stack value?))
    (sound : setup.discipline.Accepts (setup.discipline.Stores name store.environment) do
      let old ← store.environment.get name
      operator.apply old (← value?)) :
    setup.Attains 0 bound (position + 1 + operand.length + operator.operations.length + 1) exit
      (store.evaluate (do
        let old ← store.environment.get name
        operator.apply old (← value?)) (store.assign name)) state := by
  obtain ⟨load, inside, operate, keep⟩ := code_cons.trans (and_congr_right fun _ =>
    code_append.trans (and_congr_right fun _ => code_append)) |>.mp code
  rw [List.length_map] at keep
  have both : setup.Reaches 0 state (setup.Computed
      (position + 1 + operand.length + operator.operations.length) store stack do
      let old ← store.environment.get name
      operator.apply old (← value?)) := by
    apply (stacked.load plain load).computed
    intro old reached pushed
    apply (computed _ reached pushed).computed
    intro value last both
    exact both.operator operator operate
  exact Attains.keep both plain keep.1 sound

/-- The code of an assignment computes the value and stores it. -/
theorem Assignment.simulates (assignment : Assignment) (solid : assignment.Meets .solid)
    (respects : assignment.Respects setup.discipline methods)
    (code : setup.Code position (assignment.code methods)) :
    setup.Simulates 0 bound position (position + (assignment.code methods).length) exit
      (assignment.interpret methods) := by
  intro store state here
  obtain ⟨stack, stacked⟩ := here
  obtain ⟨target, form⟩ := assignment
  have plain : Plain target.value := solid.1
  cases form with
  | unfinished => exact solid.2.elim
  | step operator =>
      have one : ∀ stack state, setup.Stacked (position + 1) store stack state →
          setup.Reaches 0 state
            (setup.Computed (position + 1 + 1) store stack (.ok (.int 1))) := by
        intro stack state pushed
        exact pushed.literal code.2.1
      have finish : position + (Assignment.code methods ⟨target, .step operator⟩).length =
          position + 1 + 1 + operator.operations.length + 1 := by
        simp only [Assignment.code, List.length_cons, List.length_append, List.length_map,
          List.length_nil]
        omega
      rw [finish]
      exact stacked.update [.literal "1"] plain code one (respects store.environment stacked.holds)
  | store operator value =>
      cases operator with
      | none =>
          have both := code_append.mp code
          obtain ⟨inside, keep⟩ := both
          have computed := value.value.simulates methods solid.2.2 position stack state inside
            stacked
          have finish : position + (Assignment.code methods ⟨target, .store none value⟩).length =
              position + (value.value.code methods).length + 1 :=
            congrArg (position + ·) (List.length_append)
          rw [finish]
          exact Attains.keep computed plain keep.1 (respects store.environment stacked.holds)
      | some operator =>
          have computed : ∀ stack state, setup.Stacked (position + 1) store stack state →
              setup.Reaches 0 state (setup.Computed
                (position + 1 + (value.value.code methods).length) store stack
                (value.value.eval methods store.environment)) := by
            intro stack state pushed
            have inside := (code_append.mp code.2).1
            exact value.value.simulates methods solid.2.2 _ stack state inside pushed
          have finish : position +
              (Assignment.code methods ⟨target, .store (some operator) value⟩).length =
              position + 1 + (value.value.code methods).length + operator.operations.length + 1 := by
            simp only [Assignment.code, List.length_cons, List.length_append, List.length_map,
              List.length_nil]
            omega
          rw [finish]
          exact stacked.update (value.value.code methods) plain code computed
            (respects store.environment stacked.holds)

theorem LoopStart.simulates (bound : Nat) (exit : Option String) (start : LoopStart)
    (solid : start.Meets .solid)
    (respects : start.Respects setup.discipline methods)
    (code : setup.Code position (start.code methods)) :
    setup.Simulates 0 bound position (position + (start.code methods).length) exit
      (start.interpret methods) := by
  cases start with
  | nothing => exact Simulates.nothing
  | declare declaration => exact declaration.simulates solid respects code
  | assign assignment => exact assignment.simulates solid respects code

end StackLang
