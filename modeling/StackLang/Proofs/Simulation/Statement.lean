import StackLang.Proofs.Code.Lowered
import StackLang.Proofs.Simulation.Action

/-!
# Simulation of statements

The listing of a statement simulates its interpretation.  A clause of a switch is
entered at two places: in front of its test, where a failed test before goes, and
directly in front of its body, where the clause before runs into it.
-/

namespace StackLang

open Setup

/-- The label that breaks go to is placed. -/
def Setup.Known (setup : Setup) (exit : Option String) : Prop :=
  ∀ label ∈ exit, ∃ target, (label, target + 1) ∈ setup.labels

theorem Setup.known_some {setup : Setup} {label : String} {target : Nat}
    (placed : (label, target + 1) ∈ setup.labels) : setup.Known (some label) := by
  intro other same
  obtain rfl := Option.some.inj same
  exact ⟨target, placed⟩

theorem Outcome.andThen_done (outcome : Outcome) :
    (outcome.andThen fun store => ⟨.done, store⟩) = outcome := by
  obtain ⟨progress, store⟩ := outcome
  cases progress <;> rfl

section

variable {setup : Setup} {bound position : Nat} {exit : Option String} {methods : MethodTable}

/-- A guarded body that jumps back to its guard. -/
theorem Setup.Simulates.loop {middle finish : Nat} {start label : String}
    {round : Store → Outcome}
    (inside : setup.Simulates 0 bound position middle (some label) round)
    (back : setup.program[middle]? = some (.jump start))
    (again : (start, position + 1) ∈ setup.labels)
    (ends : (label, finish + 1) ∈ setup.labels) :
    setup.Simulates 0 bound position finish exit
      fun store => (StackLang.repeatRounds round bound store).caught := by
  have rounds := inside.andThen (Simulates.jump back again)
  simp only [Outcome.andThen_done] at rounds
  exact Simulates.caught ends (Simulates.repeatRounds (Nat.le_refl bound) rounds)

theorem simulates_guard (bound : Nat) (condition : Option Foreseen) {label : String} {finish : Nat}
    (solid : OptionMeets (Foreseen.Meets .solid) condition)
    (respects : OptionRespects (Foreseen.Tests setup.discipline methods) condition)
    (code : Listing.PlacedAt setup.program setup.labels position
      (guardCode methods condition label))
    (placed : (label, finish + 1) ∈ setup.labels) :
    setup.Simulates 0 bound position (position + Listing.size (guardCode methods condition label))
      (some label) (interpretOption (Foreseen.leaveIf methods "0") condition) := by
  cases condition with
  | none => exact Simulates.nothing
  | some condition => exact Simulates.leaveIf bound solid (respects condition rfl) code placed

theorem simulates_step (bound : Nat) (exit : Option String) (step : Option Assignment)
    (solid : OptionMeets (Assignment.Meets .solid) step)
    (respects : OptionRespects (Assignment.Respects setup.discipline methods) step)
    (code : Listing.PlacedAt setup.program setup.labels position (stepCode methods step)) :
    setup.Simulates 0 bound position (position + Listing.size (stepCode methods step)) exit
      (interpretOption (Assignment.interpret methods) step) := by
  cases step with
  | none => exact Simulates.nothing
  | some step =>
      rw [stepCode, Option.elim, Listing.size_ofInstructions]
      exact step.simulates solid (respects step rfl) code

/-- A value is computed and then printed. -/
theorem Setup.Attains.print {middle : Nat} {store : Store} {state : MachineState}
    {stack : List Value} {value? : Except Fault Value} (endsLine : Bool)
    (computed : setup.Reaches 0 state (setup.Computed middle store stack value?))
    (here : setup.program[middle]? =
      some (.operate (if endsLine then .printLine else .print)))
    (sound : setup.discipline.Accepts (fun _ => True) value?) :
    setup.Attains 0 bound (middle + 1) exit
      (store.evaluate value? fun value =>
        ⟨.done, store.write (if endsLine then value.text ++ "\n" else value.text)⟩) state := by
  apply Attains.evaluate computed sound
  intro value reached _ pushed
  cases endsLine with
  | false =>
      apply Reaches.mono (pushed.print here) (Nat.le_refl 0)
      intro last found
      exact ⟨stack, found⟩
  | true =>
      apply Reaches.mono (pushed.printLine here) (Nat.le_refl 0)
      intro last found
      exact ⟨stack, found⟩

/-- Where the test of the first clause is. -/
def Clause.entry (entered : Bool) (clauses : List Clause) : Nat :=
  if entered && !clauses.isEmpty then 1 else 0

@[simp]
theorem size_skipCode (entered : Bool) (target : String) :
    Listing.size (skipCode entered target) = if entered then 1 else 0 := by
  cases entered <;> rfl

@[simp]
theorem size_markerOf (label? : Option String) : Listing.size (markerOf label?) = 0 := by
  cases label? <;> rfl

theorem placed_markerOf {label : String} {label? : Option String} (pending : label ∈ label?)
    (placed : Listing.PlacedAt setup.program setup.labels position (markerOf label?)) :
    (label, position + 1) ∈ setup.labels := by
  obtain rfl := Option.mem_def.mp pending
  exact placed.1

/-- A pending label is placed in front of the test of the first clause. -/
theorem Clause.placed_pending {selector finish label : String} {pending : Option String}
    {entered : Bool} {clauses : List Clause} {made : Nat} (isPending : label ∈ pending)
    (placed : Listing.PlacedAt setup.program setup.labels position
      (Clause.listingAll methods selector finish pending entered clauses made)) :
    (label, position + Clause.entry entered clauses + 1) ∈ setup.labels := by
  cases clauses with
  | nil =>
      rw [Clause.listingAll_nil] at placed
      have place := placed_markerOf isPending placed
      cases entered <;> exact place
  | cons clause rest =>
      obtain ⟨test, body⟩ := clause
      rw [Clause.listingAll_cons] at placed
      have place := placed_markerOf isPending placed.right.left
      rw [size_skipCode] at place
      cases entered <;> exact place

/-- The test of a clause compares the selector with the value of the case. -/
theorem Setup.Attains.caseTest {store : Store} {state : MachineState} {name label : String}
    {index finish : Nat} {value : Foreseen} {selector : Value} {next : Value → Outcome}
    (plain : Plain name) (solid : value.Meets .solid)
    (respects : value.value.Computes setup.discipline methods)
    (code : setup.Code position
      (StackLang.caseTest methods name value ++ [.jumpIf label false]))
    (placed : (label, index + 1) ∈ setup.labels) (here : setup.At position store state)
    (kept : store.environment.get name = .ok selector)
    (differs : ∀ other reached, selector.agree other = false → setup.At index store reached →
      setup.Attains 0 bound finish exit (next other) reached)
    (agrees : ∀ other reached, selector.agree other = true →
      setup.At (position + Listing.size (.ofInstructions
        (StackLang.caseTest methods name value ++ [.jumpIf label false]))) store reached →
      setup.Attains 0 bound finish exit (next other) reached) :
    setup.Attains 0 bound finish exit
      (store.evaluate (value.value.eval methods store.environment) next) state := by
  obtain ⟨stack, stacked⟩ := here
  obtain ⟨test, jump⟩ := code_append.mp code
  obtain ⟨load, rest⟩ := test
  obtain ⟨inside, equal⟩ := code_append.mp rest
  have loaded := stacked.load plain load
  rw [kept] at loaded
  apply Reaches.follow loaded
  intro first pushed
  have computed := value.value.simulates methods solid.2 _ _ first inside pushed
  apply Attains.evaluate computed (respects store.environment stacked.holds)
  intro other second _ both
  apply Reaches.follow (both.operator .equal equal)
  intro third compared
  have size : (StackLang.caseTest methods name value).length =
      1 + (value.value.code methods).length + 1 := by
    simp only [StackLang.caseTest, List.length_cons, List.length_append, List.length_nil]
    omega
  rw [size, ← Nat.add_assoc, ← Nat.add_assoc] at jump
  apply Reaches.follow ((compared.jumpIf jump.1 placed (setup.discipline.tests_flag _)).mono
    (Nat.zero_le 1) fun _ found => found)
  intro last jumped
  cases agree : selector.agree other with
  | false =>
      rw [agree, if_pos (by decide)] at jumped
      exact differs other last agree ⟨stack, jumped⟩
  | true =>
      rw [agree, if_neg (by decide)] at jumped
      have past : position + Listing.size (.ofInstructions
          (StackLang.caseTest methods name value ++ [.jumpIf label false])) =
          position + 1 + (value.value.code methods).length + 1 + 1 := by
        rw [Listing.size_ofInstructions, List.length_append, size, List.length_singleton]
        omega
      apply agrees other last agree
      rw [past]
      exact ⟨stack, jumped⟩

theorem selectorName_plain (number : Nat) : Plain (selectorName number) := by
  have first : (selectorName number).toList.head? = some 's' := by
    rw [selectorName, String.toList_append]
    rfl
  intro hidden
  rw [first] at hidden
  exact absurd (Option.some.inj hidden) (by decide)

end

mutual

theorem Statement.simulates {setup : Setup} {methods : MethodTable} (bound : Nat)
    (exit : Option String) (known : setup.Known exit) (statement : Statement)
    (solid : statement.Meets .solid)
    (respects : statement.Respects setup.discipline methods) (made position : Nat)
    (placed : Listing.PlacedAt setup.program setup.labels position
      (statement.listing methods exit made)) :
    setup.Simulates 0 bound position
      (position + Listing.size (statement.listing methods exit made)) exit
      (statement.interpret methods bound exit.isSome) := by
  cases statement with
  | skipped => exact solid.elim
  | declare declaration =>
      rw [Statement.listing, Statement.lower] at placed ⊢
      apply (declaration.simulates solid respects placed).ends
      rw [Lowering.run_pure, Listing.size_ofInstructions]
  | assign assignment =>
      rw [Statement.listing, Statement.lower] at placed ⊢
      apply (assignment.simulates solid respects placed).ends
      rw [Lowering.run_pure, Listing.size_ofInstructions]
  | call callee arguments =>
      rw [Statement.listing, Statement.lower]
      exact Simulates.nothing
  | print endsLine value =>
      intro store state here
      obtain ⟨stack, stacked⟩ := here
      cases value with
      | none =>
          rw [Statement.listing, Statement.lower] at placed ⊢
          have computed : setup.Reaches 0 state
              (setup.Computed (position + 1) store stack (.ok (.string ""))) :=
            stacked.literal placed.1
          exact Attains.print endsLine computed placed.2.1 trivial
      | some expression =>
          rw [Statement.listing, Statement.lower] at placed ⊢
          obtain ⟨inside, operate⟩ := code_append.mp placed
          have computed := expression.simulates methods solid position stack state inside stacked
          rw [Lowering.run_pure, Listing.size_ofInstructions, List.length_append]
          exact Attains.print endsLine computed operate.1
            (respects expression rfl store.environment stacked.holds)
  | read target =>
      intro store state here
      obtain ⟨stack, stacked⟩ := here
      rw [Statement.listing, Statement.lower] at placed ⊢
      apply (stacked.read placed.1).follow
      intro reached pushed
      exact pushed.storingAttains solid placed.2.1 (respects store.environment _ stacked.holds)
  | leave line =>
      rw [Statement.listing, Statement.lower] at placed ⊢
      cases exit with
      | none => exact Simulates.nothing
      | some label =>
          obtain ⟨target, there⟩ := known label rfl
          intro store state here
          obtain ⟨stack, stacked⟩ := here
          apply Reaches.mono (stacked.jump placed.1 there) (Nat.zero_le 1)
          intro reached jumped
          exact ⟨label, target, rfl, there, stack, jumped⟩
  | giveBack line value =>
      rw [Statement.listing, Statement.lower] at placed ⊢
      cases value with
      | value given =>
          intro store state here
          obtain ⟨stack, stacked⟩ := here
          obtain ⟨inside, operate⟩ := code_append.mp placed
          have computed := given.simulates methods solid position stack state inside stacked
          rw [Lowering.run_pure, Listing.size_ofInstructions, List.length_append]
          apply Attains.evaluate computed (respects store.environment stacked.holds)
          intro result reached _ pushed
          apply Reaches.mono (pushed.giveBack operate.1) (Nat.le_refl 0)
          intro last found
          exact ⟨_, found⟩
      | nothing | unknown =>
          intro store state here
          obtain ⟨stack, stacked⟩ := here
          apply Reaches.mono (stacked.giveBack placed.1) (Nat.le_refl 0)
          intro last found
          exact ⟨stack, found⟩
  | evaluate value =>
      rw [Statement.listing, Statement.lower] at placed ⊢
      intro store state here
      obtain ⟨stack, stacked⟩ := here
      have computed := value.simulates methods solid position stack state placed stacked
      rw [Lowering.run_pure, Listing.size_ofInstructions]
      exact Attains.drop computed (respects store.environment stacked.holds)
  | block body =>
      rw [Statement.listing, Statement.lower_block] at placed ⊢
      exact Statement.simulatesAll bound exit known body solid respects made position placed
  | whileLoop condition body =>
      rw [Statement.listing, Statement.lower_whileLoop] at placed ⊢
      obtain ⟨start, placed⟩ := placed
      obtain ⟨back, finish, -⟩ := placed.right.right
      have guard := Simulates.leaveIf bound solid.1 respects.1 placed.left finish
      have inside := body.simulates bound _ (known_some finish) solid.2 respects.2 _ _
        placed.right.left
      apply ((guard.andThen inside).loop back start finish).ends
      simp only [Listing.size_label_cons, Listing.size_append, Listing.size_instruction_cons,
        Listing.size_nil]
      omega
  | ifThen condition yes =>
      rw [Statement.listing, Statement.lower_ifThen] at placed ⊢
      obtain ⟨otherwise, -⟩ := placed.right.right
      have inside := yes.simulates bound exit known solid.2 respects.2 _ _ placed.right.left
      apply (Simulates.choose solid.1 respects.1 placed.left otherwise Simulates.nothing inside).ends
      simp only [Listing.size_label_cons, Listing.size_append, Listing.size_nil]
      omega
  | ifElse condition yes no =>
      rw [Statement.listing, Statement.lower_ifElse] at placed ⊢
      obtain ⟨past, otherwise, rest⟩ := placed.right.right
      obtain ⟨finish, -⟩ := rest.right
      have taken := yes.simulates bound exit known solid.2.1 respects.2.1 _ _ placed.right.left
      have other := no.simulates bound exit known solid.2.2 respects.2.2 _ _ rest.left
      have both := (taken.andThen (Simulates.jump past finish)).fewer (Nat.zero_le _)
      simp only [Outcome.andThen_done] at both
      apply (Simulates.choose solid.1 respects.1 placed.left otherwise other both).ends
      simp only [Listing.size_label_cons, Listing.size_append, Listing.size_instruction_cons,
        Listing.size_nil]
      omega
  | doWhile body condition =>
      rw [Statement.listing, Statement.lower_doWhile] at placed ⊢
      obtain ⟨start, placed⟩ := placed
      obtain ⟨finish, -⟩ := placed.right.right
      cases condition with
      | none => exact solid.1.elim
      | some condition =>
          have inside := body.simulates bound _ (known_some finish) solid.1 respects.1 _ _
            placed.left
          have test := Simulates.leaveUnless bound solid.2 (respects.2 condition rfl) placed.right.left
            start finish
          have rounds := inside.andThen test
          apply (Simulates.caught finish (Simulates.repeatRounds (Nat.le_refl bound) rounds)).ends
          simp only [againCode, Option.elim, Listing.size_label_cons, Listing.size_append,
            Listing.size_nil]
          omega
  | forLoop start condition step body =>
      rw [Statement.listing, Statement.lower_forLoop] at placed ⊢
      have first := start.simulates bound exit solid.1 respects.1 placed.left
      rw [← Listing.size_ofInstructions] at first
      obtain ⟨again, placed⟩ := placed.right
      obtain ⟨back, finish, -⟩ := placed.right.right.right
      have guard := simulates_guard bound condition solid.2.1 respects.2.1 placed.left finish
      have inside := body.simulates bound _ (known_some finish) solid.2.2.2 respects.2.2.2 _ _
        placed.right.left
      have last := simulates_step bound (some (labelName (made + 2))) step solid.2.2.1
        respects.2.2.1 placed.right.right.left
      apply (first.andThen (((guard.andThen inside).andThen last).loop back again finish)).ends
      simp only [Listing.size_label_cons, Listing.size_append, Listing.size_instruction_cons,
        Listing.size_nil]
      omega
  | switch line number value clauses =>
      rw [Statement.listing, Statement.lower_switch] at placed ⊢
      obtain ⟨inside, keep⟩ := code_append.mp placed.left
      obtain ⟨finish, -⟩ := placed.right.right
      intro store state here
      obtain ⟨stack, stacked⟩ := here
      have computed := value.value.simulates methods solid.1.2 position stack state inside stacked
      apply Attains.evaluate computed (respects.1 store.environment stacked.holds)
      intro result reached stores pushed
      have stored : setup.Attains 0 bound _ exit (store.assign (selectorName number) result)
          reached := pushed.storingAttains (selectorName_plain number) keep.1 stores
      show setup.Attains (0 + 0) bound _ exit _ reached
      apply stored.andThen
      intro assigned last found
      obtain ⟨selector, kept⟩ := Store.get_assign assigned
      rw [kept]
      have body := placed.right.left
      rw [Listing.size_ofInstructions, List.length_append, ← Nat.add_assoc] at body finish
      have cases := Clause.simulatesFrom bound (selectorName_plain number) (known_some finish)
        clauses solid.2 respects.2 none false (made + 1) _ body selector _ last found kept
      apply (Attains.caught finish cases).ends
      simp only [Listing.size_append, Listing.size_ofInstructions, List.length_append,
        Listing.size_label_cons, Listing.size_nil]
      omega
  | switchHead line number value => exact solid.1.elim

theorem Statement.simulatesAll {setup : Setup} {methods : MethodTable} (bound : Nat)
    (exit : Option String) (known : setup.Known exit) (statements : List Statement)
    (solid : Statement.AllMeet .solid statements)
    (respects : Statement.AllRespect setup.discipline methods statements) (made position : Nat)
    (placed : Listing.PlacedAt setup.program setup.labels position
      (Statement.listingAll methods exit statements made)) :
    setup.Simulates 0 bound position
      (position + Listing.size (Statement.listingAll methods exit statements made)) exit
      (Statement.interpretAll methods bound exit.isSome statements) := by
  cases statements with
  | nil =>
      rw [Statement.listingAll, Statement.lowerAll]
      exact Simulates.nothing
  | cons statement rest =>
      rw [Statement.listingAll, Statement.lowerAll_cons] at placed ⊢
      have first := statement.simulates bound exit known solid.1 respects.1 _ _ placed.left
      have others := Statement.simulatesAll bound exit known rest solid.2 respects.2 _ _ placed.right
      apply (first.andThen others).ends
      rw [Listing.size_append, Nat.add_assoc]

/-- The bodies of clauses run into each other. -/
theorem Clause.simulatesAll {setup : Setup} {methods : MethodTable} (bound : Nat)
    {selector finish : String} (known : setup.Known (some finish)) (clauses : List Clause)
    (solid : Clause.AllMeet .solid clauses)
    (respects : Clause.AllRespect setup.discipline methods clauses) (pending : Option String)
    (made position : Nat)
    (placed : Listing.PlacedAt setup.program setup.labels position
      (Clause.listingAll methods selector finish pending true clauses made)) :
    setup.Simulates 0 bound position
      (position + Listing.size
        (Clause.listingAll methods selector finish pending true clauses made))
      (some finish) (Clause.interpretAll methods bound clauses) := by
  cases clauses with
  | nil =>
      rw [Clause.listingAll_nil, size_markerOf]
      exact Simulates.nothing
  | cons clause rest =>
      obtain ⟨test, body⟩ := clause
      rw [Clause.listingAll_cons] at placed ⊢
      obtain ⟨inside, placed'⟩ := placed.right.right.right
      have jump : setup.Simulates 0 bound position _ (some finish) fun store => ⟨.done, store⟩ :=
        (Simulates.jump placed.1 inside).fewer (Nat.zero_le 1)
      have first := Statement.simulatesAll bound (some finish) known body solid.1.2 respects.1.2 _ _
        placed'.left
      have others := Clause.simulatesAll bound known rest solid.2 respects.2 _ _ _ placed'.right
      apply (jump.andThen (first.andThen others)).ends
      simp only [Listing.size_append, Listing.size_label_cons]
      omega

/-- The clauses are tested from the first one on. -/
theorem Clause.simulatesFrom {setup : Setup} {methods : MethodTable} (bound : Nat)
    {name finish : String} (plain : Plain name) (known : setup.Known (some finish))
    (clauses : List Clause) (solid : Clause.AllMeet .solid clauses)
    (respects : Clause.AllRespect setup.discipline methods clauses) (pending : Option String)
    (entered : Bool) (made position : Nat)
    (placed : Listing.PlacedAt setup.program setup.labels position
      (Clause.listingAll methods name finish pending entered clauses made))
    (selector : Value) (store : Store) (state : MachineState)
    (here : setup.At (position + Clause.entry entered clauses) store state)
    (kept : store.environment.get name = .ok selector) :
    setup.Attains 0 bound
      (position + Listing.size
        (Clause.listingAll methods name finish pending entered clauses made))
      (some finish) (Clause.interpretFrom methods bound selector clauses store) state := by
  cases clauses with
  | nil =>
      rw [Clause.listingAll_nil, size_markerOf]
      have start : Clause.entry entered [] = 0 := by
        cases entered <;> rfl
      rw [start] at here
      exact Reaches.here here
  | cons clause rest =>
      obtain ⟨test, body⟩ := clause
      have whole := placed
      rw [Clause.listingAll_cons] at whole
      have start : position + Clause.entry entered (.clause test body :: rest) =
          position + Listing.size (skipCode entered (labelName (made + 1))) +
            Listing.size (markerOf pending) := by
        rw [size_markerOf]
        cases entered <;> rfl
      rw [start] at here
      obtain ⟨-, behind⟩ := whole.right.right.right
      have first := Statement.simulatesAll bound (some finish) known body solid.1.2 respects.1.2 _ _
        behind.left
      have others := Clause.simulatesAll bound known rest solid.2 respects.2 _ _ _ behind.right
      have run := first.andThen others
      have ends : position + Listing.size (skipCode entered (labelName (made + 1))) +
            Listing.size (markerOf pending) +
            Listing.size (testCode methods name test (labelName (made + 2))) +
            Listing.size (Statement.listingAll methods (some finish) body
              (made + 1 + test.toList.length)) +
            Listing.size (Clause.listingAll methods name finish
              (test.map fun _ => labelName (made + 2)) true rest
              (Statement.labelsAll methods (some finish) body (made + 1 + test.toList.length))) =
          position + Listing.size (Clause.listingAll methods name finish pending entered
            (.clause test body :: rest) made) := by
        rw [Clause.listingAll_cons]
        simp only [Listing.size_append, Listing.size_label_cons]
        omega
      cases test with
      | none =>
          exact (run store state here).ends ends
      | some value =>
          have failed := Clause.placed_pending rfl behind.right
          have code := whole.right.right.left
          apply Attains.caseTest plain solid.1.1 (respects.1.1 value rfl) code failed here kept
          · intro other reached differs found
            rw [if_neg (by simp [differs])]
            exact (Clause.simulatesFrom bound plain known rest solid.2 respects.2 _ true _ _
              behind.right selector store reached found kept).ends ends
          · intro other reached agrees found
            rw [if_pos agrees]
            exact (run store reached found).ends ends

end

end StackLang
