import StackLang.Proofs.Simulation.Expression

/-!
# Simulation of parts of programs

A part of a program is simulated if the machine, started at its first
instruction in a state that shows a store, gets to where the interpretation of
the part ends.  Steps are counted as far as loops need it: a part that is done
takes some least number of them, and one in which a loop exceeds the bound takes
at least as many as the bound.
-/

namespace StackLang

/-- The number of steps that is known to lead to an outcome. -/
def Outcome.cost (least bound : Nat) (outcome : Outcome) : Nat :=
  match outcome.progress with
  | .done => least
  | .exhausted => bound
  | _ => 0

namespace Setup

variable (setup : Setup)

/-- The machine gets from a state to where an interpretation ends. -/
def Attains (least bound finish : Nat) (exit : Option String) (outcome : Outcome)
    (state : MachineState) : Prop :=
  setup.Reaches (outcome.cost least bound) state (setup.Lands finish exit outcome)

def Simulates (least bound position finish : Nat) (exit : Option String)
    (meaning : Store → Outcome) : Prop :=
  ∀ store state, setup.At position store state →
    setup.Attains least bound finish exit (meaning store) state

variable {setup} {least more bound position middle finish : Nat} {exit : Option String}
  {store : Store} {state : MachineState} {first next round : Store → Outcome}

theorem Attains.fewer {outcome : Outcome} {fewer : Nat} (enough : fewer ≤ least)
    (attains : setup.Attains least bound finish exit outcome state) :
    setup.Attains fewer bound finish exit outcome state := by
  apply Reaches.mono attains
  · unfold Outcome.cost
    split
    · exact enough
    · exact Nat.le_refl _
    · exact Nat.le_refl _
  · intro reached lands
    exact lands

theorem Attains.ends {outcome : Outcome} {other : Nat}
    (attains : setup.Attains least bound finish exit outcome state) (same : finish = other) :
    setup.Attains least bound other exit outcome state :=
  same ▸ attains

theorem Attains.andThen {outcome : Outcome}
    (front : setup.Attains least bound middle exit outcome state)
    (back : outcome.progress = .done → ∀ reached, setup.At middle outcome.store reached →
      setup.Attains more bound finish exit (next outcome.store) reached) :
    setup.Attains (least + more) bound finish exit (outcome.andThen next) state := by
  obtain ⟨progress, left⟩ := outcome
  cases progress with
  | done =>
      have both := Reaches.bind front fun reached found => back rfl reached found
      apply both.mono
      · show Outcome.cost (least + more) bound (next left) ≤
          least + Outcome.cost more bound (next left)
        unfold Outcome.cost
        split <;> omega
      · intro reached lands
        exact lands
  | left | faulted | exhausted => exact front

/-- A break goes to the label at the end. -/
theorem Attains.caught {outcome : Outcome} {label : String}
    (placed : (label, finish + 1) ∈ setup.labels)
    (inside : setup.Attains 0 bound finish (some label) outcome state) :
    setup.Attains 0 bound finish exit outcome.caught state := by
  obtain ⟨progress, left⟩ := outcome
  cases progress with
  | left =>
      apply Reaches.mono inside (Nat.le_refl _)
      intro reached lands
      obtain ⟨other, target, same, known, found⟩ := lands
      obtain rfl := Option.some.inj same
      obtain rfl := Nat.succ.inj (setup.number_unique known placed)
      exact found
  | done | faulted | exhausted => exact inside

theorem Simulates.fewer {fewer : Nat}
    (simulates : setup.Simulates least bound position finish exit first) (enough : fewer ≤ least) :
    setup.Simulates fewer bound position finish exit first := by
  intro store state here
  exact (simulates store state here).fewer enough

theorem Simulates.ends {other : Nat}
    (simulates : setup.Simulates least bound position finish exit first) (same : finish = other) :
    setup.Simulates least bound position other exit first :=
  same ▸ simulates

theorem Simulates.andThen (front : setup.Simulates least bound position middle exit first)
    (back : setup.Simulates more bound middle finish exit next) :
    setup.Simulates (least + more) bound position finish exit
      fun store => (first store).andThen next := by
  intro store state here
  exact (front store state here).andThen fun _ reached found => back _ reached found

theorem Simulates.caught {label : String} (placed : (label, finish + 1) ∈ setup.labels)
    (inside : setup.Simulates 0 bound position finish (some label) first) :
    setup.Simulates 0 bound position finish exit fun store => (first store).caught := by
  intro store state here
  exact Attains.caught placed (inside store state here)

/-- Rounds that take at least a step each make up a loop; it ends only by leaving
its last round. -/
theorem Simulates.repeatRounds {rounds : Nat} (enough : rounds ≤ bound)
    (inside : setup.Simulates 1 bound position position exit round) :
    setup.Simulates 0 rounds position finish exit (StackLang.repeatRounds round rounds) := by
  induction rounds with
  | zero =>
      intro store state here
      exact Reaches.here trivial
  | succ rounds ih =>
      intro store state here
      have reaches := inside store state here
      rw [StackLang.repeatRounds]
      generalize round store = outcome at reaches ⊢
      obtain ⟨progress, left⟩ := outcome
      cases progress with
      | done =>
          have both := Reaches.bind reaches fun reached found =>
            ih (Nat.le_of_succ_le enough) left reached found
          apply both.mono
          · show Outcome.cost 0 (rounds + 1) (StackLang.repeatRounds round rounds left) ≤
              1 + Outcome.cost 0 rounds (StackLang.repeatRounds round rounds left)
            unfold Outcome.cost
            split <;> omega
          · intro reached lands
            exact lands
      | exhausted => exact Reaches.mono reaches enough fun reached lands => lands
      | left | faulted => exact reaches

/-- The value of an expression is computed before a part goes on with it. -/
theorem Attains.evaluate {stack : List Value} {value? : Except Fault Value}
    {next : Value → Outcome} {good : Value → Prop}
    (computed : setup.Reaches 0 state (setup.Computed middle store stack value?))
    (sound : setup.discipline.Accepts good value?)
    (back : ∀ value reached, good value → setup.Stacked middle store (value :: stack) reached →
      setup.Attains least bound finish exit (next value) reached) :
    setup.Attains least bound finish exit (store.evaluate value? next) state := by
  cases value? with
  | ok value => exact computed.follow fun reached pushed => back value reached sound pushed
  | error fault => exact Reaches.mono computed (Nat.le_refl _) fun reached stuck => ⟨sound, stuck⟩

end Setup

end StackLang
