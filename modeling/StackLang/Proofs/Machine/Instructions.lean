import StackLang.Proofs.Machine.Setup

/-!
# Steps of single instructions

What each instruction of a program does to a machine that shows a store.
-/

namespace StackLang

theorem Numeral.int64?_hidden {name : String} (hidden : ¬ Plain name) : int64? name = none := by
  have first : name.toList.head? = some '#' := Decidable.not_not.mp hidden
  cases chars : name.toList with
  | nil =>
      rw [chars] at first
      contradiction
  | cons char rest =>
      rw [chars] at first
      obtain rfl := Option.some.inj first
      exact int64?_of_first chars (by decide) (by decide)

namespace MachineState

variable {state : MachineState} {value left right : Value}
  {rest : List Value}

theorem operationOf_code (operation : Operation) :
    operationOf (toString operation.code) = .ok operation := by
  have small : operation.code < 2 ^ 63 := by
    cases operation <;> decide
  rw [operationOf, Numeral.int64?_toString_nat small]
  dsimp only
  rw [Int64.toInt_ofNat_of_lt small, Operation.ofCode?_code]

theorem pop_stack (stack : state.stack = value :: rest) :
    state.pop = .ok (value, { state with stack := rest }) := by
  rw [pop, stack]

theorem execute_load (size : Nat) (state : MachineState) (name : String) :
    state.execute size (.load name) =
      (state.environment.get name).map fun value => (Flow.next, state.push value) := by
  show (do
    let value ← state.environment.get name
    return (Flow.next, state.push value)) = _
  cases state.environment.get name <;> rfl

theorem execute_store (size : Nat) (name : String) (stack : state.stack = value :: rest) :
    state.execute size (.store name) =
      (state.environment.assign name value).map fun environment =>
        (Flow.next, { state with stack := rest, environment := environment }) := by
  show (do
    let popped ← state.pop
    let environment ← popped.2.environment.assign name popped.1
    return (Flow.next, { popped.2 with environment := environment })) = _
  rw [pop_stack stack]
  show (do
    let environment ← state.environment.assign name value
    return (Flow.next, { state with stack := rest, environment := environment })) = _
  cases state.environment.assign name value <;> rfl

theorem execute_operate (size : Nat) (state : MachineState) (operation : Operation) :
    state.execute size (.operate operation) = state.operate operation := by
  show (do state.operate (← operationOf (toString operation.code))) = _
  rw [operationOf_code]
  rfl

theorem execute_halt (size : Nat) (state : MachineState) :
    state.execute size (.operate .halt) = .ok (.halt, state) :=
  execute_operate size state .halt

theorem runFor_of_halts {program : Array Instruction} (halts : state.Halts program)
    (budget : Nat) :
    runFor program (budget + 1) state =
      (state.log (.executing (.operate .halt)), .halted) := by
  rw [runFor, halts]
  dsimp only
  rw [execute_halt]

theorem step?_of_halts {program : Array Instruction} (halts : state.Halts program) :
    step? program state = none := by
  rw [step?, halts]
  dsimp only
  rw [execute_halt]

theorem applyPair_stack (stack : state.stack = right :: left :: rest)
    (function : Value → Value → Except Fault Value) :
    state.applyPair function =
      (function left right).map fun value => (Flow.next, { state with stack := value :: rest }) := by
  have popped : state.popPair = .ok (left, right, { state with stack := rest }) := by
    rw [popPair, pop_stack stack]
    rfl
  rw [applyPair, popped]
  show (do
    let value ← function left right
    return (Flow.next, ({ state with stack := rest } : MachineState).push value)) = _
  cases function left right <;> rfl

theorem execute_jumpIf {size index : Nat} {label : String} (expected : Bool)
    (stack : state.stack = value :: rest)
    (target : { state with stack := rest }.target size label = .ok index) :
    state.execute size (.jumpIf label expected) =
      .ok (if value.flag = (Value.bool expected).flag then .jump index else .next,
        { state with stack := rest }) := by
  have flag : canonicalFlag (if expected then "1" else "0") = (Value.bool expected).flag := by
    cases expected <;> decide
  show (do
    let popped ← state.pop
    if popped.1.flag = canonicalFlag (if expected then "1" else "0") then
      let position ← popped.2.target size label
      return (Flow.jump position, popped.2)
    else return (Flow.next, popped.2)) = _
  rw [pop_stack stack, flag]
  show (if value.flag = (Value.bool expected).flag then
      { state with stack := rest }.target size label >>= fun position =>
        pure (Flow.jump position, { state with stack := rest })
    else pure (Flow.next, { state with stack := rest })) = _
  rw [target]
  split <;> rfl

end MachineState

namespace Setup

variable {setup : Setup} {position : Nat} {store : Store} {stack : List Value}
  {state : MachineState}

namespace Stacked

/-- A state is admitted at every instruction but a conditional jump. -/
theorem admitted {instruction : Instruction} (stacked : setup.Stacked position store stack state)
    (here : setup.program[position]? = some instruction) (other : instruction.opcode ≠ .jmc) :
    setup.Admits state := by
  constructor
  · exact ⟨store, stacked.matching, stacked.holds⟩
  · intro found there jump
    rw [stacked.position, here] at there
    obtain rfl := Option.some.inj there
    contradiction

theorem logged (stacked : setup.Stacked position store stack state) (entry : ConsoleEntry) :
    setup.Stacked position store stack (state.log entry) :=
  ⟨stacked.matching.carry rfl rfl rfl, stacked.holds, stacked.position, stacked.stack⟩

/-- The same store is shown behind an instruction that changes the stack only. -/
theorem moved (stacked : setup.Stacked position store stack state) (entry : ConsoleEntry)
    (target : Nat) (values : List Value) :
    setup.Stacked target store values
      { state.log entry with stack := values, position := target } :=
  ⟨stacked.matching.carry rfl rfl rfl, stacked.holds, rfl, rfl⟩

theorem stuck {instruction : Instruction} {fault : Fault}
    (stacked : setup.Stacked position store stack state)
    (here : setup.program[position]? = some instruction) (other : instruction.opcode ≠ .jmc)
    (result : (state.log (.executing instruction)).execute setup.program.size instruction =
      .error fault) :
    setup.Stuck store fault state := by
  constructor
  · exact stacked.matching
  · exact stacked.admitted here other
  · exact ⟨instruction, stacked.position ▸ here, result⟩

/-- An instruction that goes on with the next one. -/
theorem next {instruction : Instruction} {after : MachineState}
    {goal : MachineState → Prop} (stacked : setup.Stacked position store stack state)
    (here : setup.program[position]? = some instruction) (other : instruction.opcode ≠ .jmc)
    (result : (state.log (.executing instruction)).execute setup.program.size instruction =
      .ok (.next, after))
    (reached : goal { after with position := after.position + 1 }) :
    setup.Reaches 0 state goal := by
  have step := MachineState.step?_of_next (stacked.position ▸ here) result
  exact (Reaches.step (stacked.admitted here other) step reached).mono (Nat.zero_le 1)
    fun _ found => found

/-- An instruction that pushes what it computes from the top of the stack. -/
theorem compute {instruction : Instruction} {rest : List Value} (value? : Except Fault Value)
    (stacked : setup.Stacked position store stack state)
    (here : setup.program[position]? = some instruction) (other : instruction.opcode ≠ .jmc)
    (result : (state.log (.executing instruction)).execute setup.program.size instruction =
      value?.map fun value =>
        (.next, { state.log (.executing instruction) with stack := value :: rest })) :
    setup.Reaches 0 state (setup.Computed (position + 1) store rest value?) := by
  cases value? with
  | ok value =>
      apply stacked.next here other result
      have place : state.position + 1 = position + 1 := congrArg (· + 1) stacked.position
      exact place ▸ stacked.moved _ _ _
  | error fault => exact Reaches.here (stacked.stuck here other result)

theorem literal {text : String} (stacked : setup.Stacked position store stack state)
    (here : setup.program[position]? = some (.literal text)) :
    setup.Reaches 0 state (setup.Stacked (position + 1) store (.ofLiteral text :: stack)) := by
  apply stacked.compute (.ok (.ofLiteral text)) here nofun
  rw [← stacked.stack]
  rfl

theorem load {name : String} (stacked : setup.Stacked position store stack state)
    (plain : Plain name) (here : setup.program[position]? = some (.load name)) :
    setup.Reaches 0 state
      (setup.Computed (position + 1) store stack (store.environment.get name)) := by
  apply stacked.compute _ here nofun
  rw [MachineState.execute_load, ← stacked.matching.get_plain plain, ← stacked.stack]
  rfl

theorem pair {operation : Operation} {left right : Value}
    {function : Value → Value → Except Fault Value}
    (stacked : setup.Stacked position store (right :: left :: stack) state)
    (here : setup.program[position]? = some (.operate operation))
    (operates : ∀ state : MachineState, state.operate operation = state.applyPair function) :
    setup.Reaches 0 state (setup.Computed (position + 1) store stack (function left right)) := by
  apply stacked.compute _ here nofun
  rw [MachineState.execute_operate, operates]
  exact MachineState.applyPair_stack (stacked.logged _).stack function

theorem invert {value : Value} (stacked : setup.Stacked position store (value :: stack) state)
    (here : setup.program[position]? = some (.operate .not)) :
    setup.Reaches 0 state
      (setup.Stacked (position + 1) store (.ofFlag (!value.isTruthy) :: stack)) := by
  apply stacked.compute (.ok (.ofFlag (!value.isTruthy))) here nofun
  have popped := MachineState.pop_stack (stacked.logged (.executing (.operate .not))).stack
  rw [MachineState.execute_operate, MachineState.operate, popped]
  rfl

theorem print {value : Value} (stacked : setup.Stacked position store (value :: stack) state)
    (here : setup.program[position]? = some (.operate .print)) :
    setup.Reaches 0 state (setup.Stacked (position + 1) (store.write value.text) stack) := by
  have popped := MachineState.pop_stack (stacked.logged (.executing (.operate .print))).stack
  apply stacked.next here nofun
  · rw [MachineState.execute_operate, MachineState.operate, popped]
    rfl
  · constructor
    · constructor
      · exact stacked.matching.environment
      · exact stacked.matching.plain
      · exact stacked.matching.input
      · exact congrArg (· ++ value.text) stacked.matching.output
    · exact stacked.holds
    · exact congrArg (· + 1) stacked.position
    · rfl

theorem printLine {value : Value} (stacked : setup.Stacked position store (value :: stack) state)
    (here : setup.program[position]? = some (.operate .printLine)) :
    setup.Reaches 0 state (setup.Stacked (position + 1) (store.write (value.text ++ "\n")) stack) := by
  have popped := MachineState.pop_stack (stacked.logged (.executing (.operate .printLine))).stack
  apply stacked.next here nofun
  · rw [MachineState.execute_operate, MachineState.operate, popped]
    rfl
  · constructor
    · constructor
      · exact stacked.matching.environment
      · exact stacked.matching.plain
      · exact stacked.matching.input
      · show state.output ++ value.text ++ "\n" = store.output ++ (value.text ++ "\n")
        rw [stacked.matching.output, String.append_assoc]
    · exact stacked.holds
    · exact congrArg (· + 1) stacked.position
    · rfl

theorem read (stacked : setup.Stacked position store stack state)
    (here : setup.program[position]? = some (.operate .read)) :
    setup.Reaches 0 state
      (setup.Stacked (position + 1) store.takeLine (store.nextInput :: stack)) := by
  apply stacked.next here nofun
  · rw [MachineState.execute_operate, MachineState.operate]
  · constructor
    · constructor
      · exact stacked.matching.environment
      · exact stacked.matching.plain
      · exact congrArg List.tail stacked.matching.input
      · exact stacked.matching.output
    · exact stacked.holds
    · exact congrArg (· + 1) stacked.position
    · show Value.ofInput (state.input.head?.getD "0") :: state.stack = _
      rw [stacked.matching.input, stacked.stack]
      rfl

theorem giveBack (stacked : setup.Stacked position store stack state)
    (here : setup.program[position]? = some (.operate .giveBack)) :
    setup.Reaches 0 state (setup.Stacked (position + 1) store stack) := by
  apply stacked.next here nofun
  · rw [MachineState.execute_operate, MachineState.operate]
  · constructor
    · exact stacked.matching.carry rfl rfl rfl
    · exact stacked.holds
    · exact congrArg (· + 1) stacked.position
    · exact stacked.stack

theorem storing {name : String} {value : Value} {exit : Option String}
    (stacked : setup.Stacked position store (value :: stack) state) (plain : Plain name)
    (here : setup.program[position]? = some (.store name))
    (stores : setup.discipline.Stores name store.environment value) :
    setup.Reaches 0 state (setup.Lands (position + 1) exit (store.assign name value)) := by
  have result := MachineState.execute_store setup.program.size name
    (stacked.logged (.executing (.store name))).stack
  have assigned := (stacked.logged (.executing (.store name))).matching.assign_plain plain value
  unfold Discipline.Stores at stores
  unfold Store.assign
  cases outcome : store.environment.assign name value with
  | ok environment =>
      rw [outcome] at assigned stores
      obtain ⟨machine, found, entries, names⟩ := assigned
      rw [found] at result
      apply stacked.next here nofun result
      refine ⟨stack, ?_⟩
      constructor
      · constructor
        · exact entries
        · exact names
        · exact stacked.matching.input
        · exact stacked.matching.output
      · exact stores
      · exact congrArg (· + 1) stacked.position
      · rfl
  | error fault =>
      rw [outcome] at assigned stores
      rw [assigned] at result
      exact Reaches.here ⟨stores, stacked.stuck here nofun result⟩

end Stacked

/-- A label leads to the index in front of which it stands. -/
theorem Shows.target {label : String} {index : Nat} (shows_store : setup.Shows store state)
    (placed : (label, index + 1) ∈ setup.labels) :
    state.target setup.program.size label = .ok index := by
  have bounds := setup.bounded _ placed
  have small : index + 1 < 2 ^ 63 := Nat.lt_of_le_of_lt bounds.2 setup.small
  have number : state.jumpNumber label = .ok (Int64.ofNat (index + 1)) := by
    rw [MachineState.jumpNumber, Numeral.int64?_hidden (setup.hidden _ placed)]
    show (state.environment.get label >>= _) = _
    rw [shows_store.get_label placed]
    rfl
  have inside : (1 : Int) ≤ (index + 1 : Nat) ∧
      ((index + 1 : Nat) : Int) ≤ setup.program.size + 1 := by
    omega
  have back : (((index + 1 : Nat) : Int) - 1).toNat = index := by omega
  rw [MachineState.target, number]
  show (if 1 ≤ (Int64.ofNat (index + 1)).toInt ∧
      (Int64.ofNat (index + 1)).toInt ≤ setup.program.size + 1 then
        Except.ok ((Int64.ofNat (index + 1)).toInt - 1).toNat
      else .error _) = _
  rw [Int64.toInt_ofNat_of_lt small, if_pos inside, back]

namespace Stacked

theorem jump {label : String} {index : Nat} (stacked : setup.Stacked position store stack state)
    (here : setup.program[position]? = some (.jump label))
    (placed : (label, index + 1) ∈ setup.labels) :
    setup.Reaches 1 state (setup.Stacked index store stack) := by
  have logged := stacked.logged (.executing (.jump label))
  have result : (state.log (.executing (.jump label))).execute setup.program.size (.jump label) =
      .ok (.jump index, state.log (.executing (.jump label))) := by
    show (do
      let position ← (state.log (.executing (.jump label))).target setup.program.size label
      return (Flow.jump position, state.log (.executing (.jump label)))) = _
    rw [logged.matching.target placed]
    rfl
  have step := MachineState.step?_of_jump (stacked.position ▸ here) result
  apply Reaches.step (stacked.admitted here nofun) step
  exact ⟨stacked.matching.carry rfl rfl rfl, stacked.holds, rfl, stacked.stack⟩

/-- A conditional jump is taken if the flag of the value is the expected one. -/
theorem jumpIf {label : String} {index : Nat} {expected : Bool} {value : Value}
    (stacked : setup.Stacked position store (value :: stack) state)
    (here : setup.program[position]? = some (.jumpIf label expected))
    (placed : (label, index + 1) ∈ setup.labels) (tests : setup.discipline.tests value) :
    setup.Reaches 1 state (setup.Stacked
      (if value.flag = (Value.bool expected).flag then index else position + 1)
      store stack) := by
  have admitted : setup.Admits state := by
    constructor
    · exact ⟨store, stacked.matching, stacked.holds⟩
    · intro instruction there jump popped top
      rw [stacked.stack] at top
      obtain rfl := Option.some.inj top
      exact tests
  have logged := stacked.logged (.executing (.jumpIf label expected))
  have moved : setup.Shows store { state.log (.executing (.jumpIf label expected)) with
      stack := stack } := logged.matching.carry rfl rfl rfl
  have result := MachineState.execute_jumpIf expected logged.stack (moved.target placed)
  have here' : setup.program[state.position]? = some (.jumpIf label expected) :=
    stacked.position ▸ here
  split
  · next same =>
      rw [if_pos same] at result
      apply Reaches.step admitted (MachineState.step?_of_jump here' result)
      exact ⟨stacked.matching.carry rfl rfl rfl, stacked.holds, rfl, rfl⟩
  · next different =>
      rw [if_neg different] at result
      apply Reaches.step admitted (MachineState.step?_of_next here' result)
      exact ⟨stacked.matching.carry rfl rfl rfl, stacked.holds,
        congrArg (· + 1) stacked.position, rfl⟩

end Stacked

end Setup

end StackLang
