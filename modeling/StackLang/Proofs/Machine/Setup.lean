import StackLang.Proofs.Machine.Walk
import StackLang.Proofs.Meaning.Discipline
import StackLang.Proofs.Numeral.Decimal

/-!
# Stores and machine states

A machine shows a store if it has the variables of the store beside those of the
labels, and the same input and output.  A discipline is a parameter of everything
that is said about walks.
-/

namespace StackLang

/-- The names of variables of a source; those of labels start with a hash. -/
def Plain (name : String) : Prop := name.toList.head? ≠ some '#'

instance (name : String) : Decidable (Plain name) := inferInstanceAs (Decidable (_ ≠ _))

/-- The variables that hold the numbers of labels. -/
def labelVariables (labels : List (String × Nat)) : List (String × Variable) :=
  labels.map fun (name, number) => (name, ⟨.int, .int (Int64.ofNat number)⟩)

theorem labelVariables_names (labels : List (String × Nat)) :
    (labelVariables labels).map Prod.fst = labels.map Prod.fst := by
  rw [labelVariables, List.map_map]
  rfl

/-- A program with resolved labels and what has to hold while it runs. -/
structure Setup where
  program : Array Instruction
  labels : List (String × Nat)
  discipline : Discipline
  hidden : ∀ label ∈ labels, ¬ Plain label.1
  distinct : (labels.map Prod.fst).Nodup
  bounded : ∀ label ∈ labels, 1 ≤ label.2 ∧ label.2 ≤ program.size
  small : program.size < 2 ^ 63

namespace Setup

variable (setup : Setup)

/-- The labels have the numbers that they stand for. -/
theorem number_unique {name : String} {first second : Nat} (one : (name, first) ∈ setup.labels)
    (other : (name, second) ∈ setup.labels) : first = second := by
  have found := OrderedMap.lookup?_of_mem setup.distinct one
  rw [OrderedMap.lookup?_of_mem setup.distinct other] at found
  exact (Option.some.inj found).symm

structure Shows (store : Store) (state : MachineState) : Prop where
  environment : state.environment.toList = store.environment.toList ++ labelVariables setup.labels
  plain : ∀ name ∈ store.environment.bindings.keys, Plain name
  input : state.input = store.input
  output : state.output = store.output

/-- The machine shows a store that satisfies the invariant, and a conditional jump
is ahead only of a value that it may pop. -/
structure Admits (state : MachineState) : Prop where
  shows_store : ∃ store, setup.Shows store state ∧ setup.discipline.holds store.environment
  pops : ∀ instruction, setup.program[state.position]? = some instruction →
    instruction.opcode = .jmc → ∀ value ∈ state.stack.head?, setup.discipline.tests value

/-- The machine is about to execute the instruction at an index. -/
structure Stacked (position : Nat) (store : Store) (stack : List Value) (state : MachineState) :
    Prop where
  matching : setup.Shows store state
  holds : setup.discipline.holds store.environment
  position : state.position = position
  stack : state.stack = stack

/-- The next instruction faults. -/
structure Stuck (store : Store) (fault : Fault) (state : MachineState) : Prop where
  matching : setup.Shows store state
  admitted : setup.Admits state
  faults : state.Faults setup.program fault

/-- A value has been pushed, or computing it has failed. -/
def Computed (position : Nat) (store : Store) (stack : List Value) :
    Except Fault Value → MachineState → Prop
  | .ok value => setup.Stacked position store (value :: stack)
  | .error fault => setup.Stuck store fault

/-- The machine shows a store at an index, whatever is on the stack. -/
def At (position : Nat) (store : Store) (state : MachineState) : Prop :=
  ∃ stack, setup.Stacked position store stack state

/-- Where the machine is after a part of the program that ends at `finish` and
whose breaks go to `exit`. -/
def Lands (finish : Nat) (exit : Option String) (outcome : Outcome) (state : MachineState) : Prop :=
  match outcome.progress with
  | .done => setup.At finish outcome.store state
  | .left => ∃ label target, exit = some label ∧ (label, target + 1) ∈ setup.labels ∧
      setup.At target outcome.store state
  | .faulted fault => setup.discipline.allows fault ∧ setup.Stuck outcome.store fault state
  | .exhausted => True

/-- At least `least` steps lead from a state to one with some property. -/
def Reaches (least : Nat) (state : MachineState) (goal : MachineState → Prop) : Prop :=
  ∃ count last, least ≤ count ∧ Walk setup.Admits setup.program count state last ∧ goal last

variable {setup} {least more : Nat} {store : Store} {state : MachineState}
  {goal middle : MachineState → Prop} {name : String}

theorem Reaches.here (reached : goal state) : setup.Reaches 0 state goal :=
  ⟨0, state, Nat.le_refl 0, Walk.here state, reached⟩

theorem Reaches.step {after : MachineState} (admitted : setup.Admits state)
    (next : MachineState.step? setup.program state = some after) (reached : goal after) :
    setup.Reaches 1 state goal :=
  ⟨1, after, Nat.le_refl 1, Walk.step admitted next (Walk.here after), reached⟩

theorem Reaches.bind (front : setup.Reaches least state middle)
    (back : ∀ reached, middle reached → setup.Reaches more reached goal) :
    setup.Reaches (least + more) state goal := by
  obtain ⟨count, reached, enough, walk, found⟩ := front
  obtain ⟨others, last, enoughOthers, walked, final⟩ := back reached found
  exact ⟨count + others, last, by omega, walk.trans walked, final⟩

theorem Reaches.follow (front : setup.Reaches 0 state middle)
    (back : ∀ reached, middle reached → setup.Reaches more reached goal) :
    setup.Reaches more state goal := by
  have both := front.bind back
  rwa [Nat.zero_add] at both

theorem Reaches.mono {fewer : Nat} (reaches : setup.Reaches least state middle)
    (enough : fewer ≤ least) (implied : ∀ reached, middle reached → goal reached) :
    setup.Reaches fewer state goal := by
  obtain ⟨count, last, counted, walk, found⟩ := reaches
  exact ⟨count, last, by omega, walk, implied last found⟩

namespace Shows

/-- The stack, the position and the console make no difference. -/
theorem carry {after : MachineState} (shows_store : setup.Shows store state)
    (environment : after.environment = state.environment) (input : after.input = state.input)
    (output : after.output = state.output) : setup.Shows store after where
  environment := environment ▸ shows_store.environment
  plain := shows_store.plain
  input := input.trans shows_store.input
  output := output.trans shows_store.output

theorem lookup?_plain (shows_store : setup.Shows store state) (plain : Plain name) :
    state.environment.bindings.get? name = store.environment.bindings.get? name := by
  have noLabel : OrderedMap.lookup? name (labelVariables setup.labels) = none := by
    rw [OrderedMap.lookup?_eq_none_iff, labelVariables_names]
    intro member
    obtain ⟨label, listed, rfl⟩ := List.mem_map.mp member
    exact setup.hidden label listed plain
  have entries : state.environment.bindings.entries = _ := shows_store.environment
  rw [OrderedMap.get?, entries, OrderedMap.lookup?_append, noLabel, Option.or_none]
  rfl

theorem get_plain (shows_store : setup.Shows store state) (plain : Plain name) :
    state.environment.get name = store.environment.get name := by
  rw [Environment.get, Environment.get, shows_store.lookup?_plain plain]

theorem get_label (shows_store : setup.Shows store state) {number : Nat}
    (label : (name, number) ∈ setup.labels) :
    state.environment.get name = .ok (.int (Int64.ofNat number)) := by
  have absent : OrderedMap.lookup? name store.environment.bindings.entries = none := by
    rw [OrderedMap.lookup?_eq_none_iff]
    intro member
    exact setup.hidden _ label (shows_store.plain name member)
  have distinct : ((labelVariables setup.labels).map Prod.fst).Nodup := by
    rw [labelVariables_names]
    exact setup.distinct
  have listed : (name, (⟨.int, .int (Int64.ofNat number)⟩ : Variable)) ∈
      labelVariables setup.labels := List.mem_map_of_mem label
  have found : state.environment.bindings.get? name =
      some ⟨.int, .int (Int64.ofNat number)⟩ := by
    have entries : state.environment.bindings.entries = _ := shows_store.environment
    rw [OrderedMap.get?, entries, OrderedMap.lookup?_append]
    exact absent ▸ OrderedMap.lookup?_of_mem distinct listed
  rw [Environment.get, found]

/-- Both sides store the same value, or neither knows the variable. -/
theorem assign_plain (shows_store : setup.Shows store state) (plain : Plain name)
    (value : Value) :
    match store.environment.assign name value with
    | .ok environment => ∃ machine, state.environment.assign name value = .ok machine ∧
        machine.toList = environment.toList ++ labelVariables setup.labels ∧
        ∀ other ∈ environment.bindings.keys, Plain other
    | .error fault => state.environment.assign name value = .error fault := by
  have lookup := shows_store.lookup?_plain plain
  cases found : store.environment.bindings.get? name with
  | none =>
      rw [found] at lookup
      simp only [Environment.assign, found, lookup]
  | some declared =>
      rw [found] at lookup
      simp only [Environment.assign, found, lookup, Environment.define]
      have present := OrderedMap.mem_keys_of_get? found
      refine ⟨_, rfl, ?_, ?_⟩
      · have entries : state.environment.bindings.entries = _ := shows_store.environment
        show OrderedMap.place _ _ state.environment.bindings.entries = _
        rw [entries]
        exact OrderedMap.place_append present _
      · intro other member
        rw [OrderedMap.keys_insert, if_pos present] at member
        exact shows_store.plain other member

end Shows

end Setup

end StackLang
