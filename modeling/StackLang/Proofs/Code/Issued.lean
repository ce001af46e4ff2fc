import StackLang.Proofs.Code.Labels
import StackLang.Proofs.Grammar.TreeStandard

/-!
# Instructions of lowered programs

The operands of lowered code are literals and names of the tree, hidden variables
of switches, fixed spellings and labels.  A jump goes to a label that is placed in
the same listing, or to the exit of the loop or switch around it.
-/

namespace StackLang

/-- A name of the tree or of the hidden variable of a switch. -/
inductive VariableName (standard : TreeStandard) : String → Prop where
  | source {token : Token} : standard.name token → VariableName standard token.value
  | selector (number : Nat) : VariableName standard (selectorName number)

/-- The spellings of literals that do not come from the tree. -/
def fixedTexts : List String := ["0", "1", "''", "\"\"", "0.0", "false"]

/-- An instruction as lowering issues it. -/
inductive Issued (standard : TreeStandard) (targets : String → Prop) : Instruction → Prop where
  | literal {token : Token} :
      standard.literal token → Issued standard targets (.literal token.literalText)
  | fixed {text : String} : text ∈ fixedTexts → Issued standard targets (.literal text)
  | load {name : String} : VariableName standard name → Issued standard targets (.load name)
  | store {name : String} : VariableName standard name → Issued standard targets (.store name)
  | jump {label : String} : targets label → Issued standard targets (.jump label)
  | jumpIf {label : String} (condition : Bool) :
      targets label → Issued standard targets (.jumpIf label condition)
  | operate (operation : Operation) : Issued standard targets (.operate operation)

theorem Issued.mono {standard : TreeStandard} {targets wider : String → Prop}
    {instruction : Instruction} (issued : Issued standard targets instruction)
    (widen : ∀ label, targets label → wider label) : Issued standard wider instruction := by
  cases issued with
  | literal known => exact .literal known
  | fixed listed => exact .fixed listed
  | load named => exact .load named
  | store named => exact .store named
  | jump target => exact .jump (widen _ target)
  | jumpIf condition target => exact .jumpIf condition (widen _ target)
  | operate operation => exact .operate operation

/-- All of the code was issued by lowering. -/
def AllIssued (standard : TreeStandard) (targets : String → Prop) (code : List Instruction) :
    Prop :=
  ∀ instruction ∈ code, Issued standard targets instruction

theorem MethodTable.callText_fixed (methods : MethodTable) (name : String) :
    methods.callText name ∈ fixedTexts := by
  rw [MethodTable.callText]
  split
  · decide
  · decide
  · next type noVoid _ =>
      cases type with
      | void => contradiction
      | int | float | char | string | boolean => decide

section

variable {standard : TreeStandard} {targets : String → Prop}

@[simp]
theorem allIssued_nil : AllIssued standard targets [] :=
  fun _ impossible => absurd impossible List.not_mem_nil

@[simp]
theorem allIssued_cons {instruction : Instruction} {code : List Instruction} :
    AllIssued standard targets (instruction :: code) ↔
      Issued standard targets instruction ∧ AllIssued standard targets code :=
  List.forall_mem_cons

@[simp]
theorem allIssued_append {front back : List Instruction} :
    AllIssued standard targets (front ++ back) ↔
      AllIssued standard targets front ∧ AllIssued standard targets back :=
  List.forall_mem_append

@[simp]
theorem allIssued_operations (operations : List Operation) :
    AllIssued standard targets (operations.map .operate) := by
  intro instruction member
  obtain ⟨operation, -, rfl⟩ := List.mem_map.mp member
  exact .operate operation

variable (methods : MethodTable)

theorem Expr.code_issued (expression : Expr) (meets : expression.Meets standard) :
    AllIssued standard targets (expression.code methods) := by
  cases expression with
  | missing => simp [Expr.code]
  | literal token => simpa [Expr.code] using Issued.literal meets
  | name token => simpa [Expr.code] using Issued.load (.source meets)
  | call callee arguments =>
      simpa [Expr.code] using Issued.fixed (methods.callText_fixed callee.value)
  | negate line operand =>
      have inside := operand.code_issued meets
      have zero : Issued standard targets (.literal "0") := .fixed (by decide)
      simpa [Expr.code, zero, inside] using Issued.operate .sub
  | invert line operand =>
      have inside := operand.code_issued meets
      simpa [Expr.code, inside] using Issued.operate .not
  | binary operator line left right =>
      have first := left.code_issued meets.1
      have second := right.code_issued meets.2
      simp [Expr.code, first, second]

theorem Declaration.code_issued (declaration : Declaration) (meets : declaration.Meets standard) :
    AllIssued standard targets (declaration.code methods) := by
  obtain ⟨type, name, initializer⟩ := declaration
  cases initializer with
  | none => simp [Declaration.code]
  | some initializer =>
      have inside : AllIssued standard targets (initializer.value.value.code methods) :=
        initializer.value.value.code_issued methods meets.2.2
      simpa [Declaration.code, inside] using Issued.store (.source meets.1)

theorem Assignment.code_issued (assignment : Assignment) (meets : assignment.Meets standard) :
    AllIssued standard targets (assignment.code methods) := by
  obtain ⟨target, form⟩ := assignment
  have load : Issued standard targets (.load target.value) := .load (.source meets.1)
  have store : Issued standard targets (.store target.value) := .store (.source meets.1)
  cases form with
  | unfinished => simp [Assignment.code]
  | step operator =>
      have one : Issued standard targets (.literal "1") := .fixed (by decide)
      simp [Assignment.code, load, one, store]
  | store operator value =>
      have inside : AllIssued standard targets (value.value.code methods) :=
        value.value.code_issued methods meets.2.2
      cases operator with
      | none => simp [Assignment.code, inside, store]
      | some operator => simp [Assignment.code, load, inside, store]

theorem LoopStart.code_issued (start : LoopStart) (meets : start.Meets standard) :
    AllIssued standard targets (start.code methods) := by
  cases start with
  | nothing => simp [LoopStart.code]
  | declare declaration => exact declaration.code_issued methods meets
  | assign assignment => exact assignment.code_issued methods meets

theorem Foreseen.code_issued (foreseen : Foreseen) (meets : foreseen.Meets standard) :
    AllIssued standard targets (foreseen.value.code methods) :=
  foreseen.value.code_issued methods meets.2

variable {label : String}

theorem targets_some (target : targets label) : ∀ exit ∈ some label, targets exit := by
  intro exit member
  exact Option.some.inj member ▸ target

theorem leaveUnless_issued {condition : Foreseen} (meets : condition.Meets standard)
    (target : targets label) :
    AllIssued standard targets (Listing.instructions (leaveUnless methods condition label)) := by
  have value : AllIssued standard targets (condition.value.code methods) :=
    condition.code_issued methods meets
  simpa [leaveUnless, value] using Issued.jumpIf false target

theorem guardCode_issued {condition : Option Foreseen}
    (meets : OptionMeets (Foreseen.Meets standard) condition) (target : targets label) :
    AllIssued standard targets (Listing.instructions (guardCode methods condition label)) := by
  cases condition with
  | none => simp [guardCode]
  | some condition => exact leaveUnless_issued methods meets target

theorem againCode_issued {condition : Option Foreseen}
    (meets : OptionMeets (Foreseen.Meets standard) condition) (target : targets label) :
    AllIssued standard targets (Listing.instructions (againCode methods condition label)) := by
  cases condition with
  | none => simp [againCode]
  | some condition =>
      have value : AllIssued standard targets (condition.value.code methods) :=
        condition.code_issued methods meets
      simpa [againCode, repeatIf, value] using Issued.jumpIf true target

theorem stepCode_issued {step : Option Assignment}
    (meets : OptionMeets (Assignment.Meets standard) step) :
    AllIssued standard targets (Listing.instructions (stepCode methods step)) := by
  cases step with
  | none => simp [stepCode]
  | some step => simpa [stepCode] using step.code_issued methods meets

theorem skipCode_issued (entered : Bool) (target : targets label) :
    AllIssued standard targets (Listing.instructions (skipCode entered label)) := by
  cases entered with
  | false => simp [skipCode]
  | true => simpa [skipCode] using Issued.jump target

theorem testCode_issued {number : Nat} {test : Option Foreseen}
    (meets : OptionMeets (Foreseen.Meets standard) test) (target : ∀ _ ∈ test, targets label) :
    AllIssued standard targets
      (Listing.instructions (testCode methods (selectorName number) test label)) := by
  cases test with
  | none => simp [testCode]
  | some test =>
      have value : AllIssued standard targets (test.value.code methods) :=
        test.code_issued methods meets
      have selector : Issued standard targets (.load (selectorName number)) :=
        .load (.selector number)
      have leave : Issued standard targets (.jumpIf label false) :=
        .jumpIf false (target test rfl)
      simp [testCode, caseTest, value, selector, leave, Issued.operate]

@[simp]
theorem instructions_markerOf (label? : Option String) :
    Listing.instructions (markerOf label?) = [] := by
  cases label? <;> rfl

/-- The label of a failed test is placed by the clauses behind. -/
theorem Clause.pending_placed (selector finish : String) {pending : Option String}
    (entered : Bool) (clauses : List Clause) (made : Nat) (waiting : label ∈ pending) :
    label ∈ Listing.markers
      (Clause.listingAll methods selector finish pending entered clauses made) := by
  have inside : label ∈ pending.toList := Option.mem_toList.mpr waiting
  cases clauses with
  | nil => simpa [Clause.listingAll_nil] using waiting
  | cons clause rest =>
      obtain ⟨test, body⟩ := clause
      simp [Clause.listingAll_cons, inside]

mutual

theorem Statement.listing_issued {exit : Option String} (exits : ∀ label ∈ exit, targets label)
    (statement : Statement) (meets : statement.Meets standard) (made : Nat)
    (placed : ∀ label ∈ Listing.markers (statement.listing methods exit made), targets label) :
    AllIssued standard targets
      (Listing.instructions (statement.listing methods exit made)) := by
  cases statement with
  | skipped | call =>
      rw [Statement.listing, Statement.lower, Lowering.run_pure]
      exact allIssued_nil
  | declare declaration =>
      rw [Statement.listing, Statement.lower, Lowering.run_pure, Listing.instructions_ofInstructions]
      exact declaration.code_issued methods meets
  | assign assignment =>
      rw [Statement.listing, Statement.lower, Lowering.run_pure, Listing.instructions_ofInstructions]
      exact assignment.code_issued methods meets
  | print endsLine value =>
      rw [Statement.listing]
      cases value with
      | none =>
          rw [Statement.lower, Lowering.run_pure, Listing.instructions_ofInstructions]
          have empty : Issued standard targets (.literal "\"\"") := .fixed (by decide)
          simp [empty, Issued.operate]
      | some expression =>
          rw [Statement.lower, Lowering.run_pure, Listing.instructions_ofInstructions]
          have value : AllIssued standard targets (expression.code methods) :=
            expression.code_issued methods meets
          simp [value, Issued.operate]
  | read target =>
      rw [Statement.listing, Statement.lower, Lowering.run_pure, Listing.instructions_ofInstructions]
      have store : Issued standard targets (.store target.value) := .store (.source meets)
      simp [store, Issued.operate]
  | leave line =>
      rw [Statement.listing, Statement.lower, Lowering.run_pure, Listing.instructions_ofInstructions]
      cases exit with
      | none => exact allIssued_nil
      | some label => simpa using Issued.jump (exits label rfl)
  | giveBack line value =>
      rw [Statement.listing, Statement.lower, Lowering.run_pure, Listing.instructions_ofInstructions]
      cases value with
      | nothing | unknown => simp [Returned.code, Issued.operate]
      | value given =>
          have value : AllIssued standard targets (given.code methods) :=
            given.code_issued methods meets
          simp [Returned.code, value, Issued.operate]
  | evaluate value =>
      rw [Statement.listing, Statement.lower, Lowering.run_pure, Listing.instructions_ofInstructions]
      exact value.code_issued methods meets
  | block body =>
      rw [Statement.listing, Statement.lower_block] at placed ⊢
      exact Statement.listingAll_issued exits body meets made placed
  | whileLoop condition body =>
      rw [Statement.listing, Statement.lower_whileLoop] at placed ⊢
      simp only [Listing.markers_label_cons, Listing.markers_append, markers_leaveUnless,
        Listing.markers_instruction_cons, Listing.markers_nil, List.forall_mem_cons,
        List.forall_mem_append] at placed
      obtain ⟨start, -, inside, finish, -⟩ := placed
      have body := body.listing_issued (targets_some finish) meets.2 _ inside
      simp [leaveUnless_issued methods meets.1 finish, body, Issued.jump start]
  | ifThen condition yes =>
      rw [Statement.listing, Statement.lower_ifThen] at placed ⊢
      simp only [Listing.markers_label_cons, Listing.markers_append, markers_leaveUnless,
        Listing.markers_nil, List.forall_mem_cons, List.forall_mem_append] at placed
      obtain ⟨-, inside, otherwise, -⟩ := placed
      have yes := yes.listing_issued exits meets.2 _ inside
      simp [leaveUnless_issued methods meets.1 otherwise, yes]
  | ifElse condition yes no =>
      rw [Statement.listing, Statement.lower_ifElse] at placed ⊢
      simp only [Listing.markers_label_cons, Listing.markers_append, markers_leaveUnless,
        Listing.markers_instruction_cons, Listing.markers_nil, List.forall_mem_cons,
        List.forall_mem_append] at placed
      obtain ⟨-, taken, otherwise, other, finish, -⟩ := placed
      have yes := yes.listing_issued exits meets.2.1 _ taken
      have no := no.listing_issued exits meets.2.2 _ other
      simp [leaveUnless_issued methods meets.1 otherwise, yes, Issued.jump finish, no]
  | doWhile body condition =>
      rw [Statement.listing, Statement.lower_doWhile] at placed ⊢
      simp only [Listing.markers_label_cons, Listing.markers_append, markers_againCode,
        Listing.markers_nil, List.forall_mem_cons, List.forall_mem_append] at placed
      obtain ⟨start, inside, -, finish, -⟩ := placed
      have given : body.Meets standard ∧ OptionMeets (Foreseen.Meets standard) condition := by
        cases condition with
        | none => exact ⟨meets.2, trivial⟩
        | some condition => exact meets
      have body := body.listing_issued (targets_some finish) given.1 _ inside
      simp [body, againCode_issued methods given.2 start]
  | forLoop start condition step body =>
      rw [Statement.listing, Statement.lower_forLoop] at placed ⊢
      simp only [Listing.markers_ofInstructions, Listing.markers_label_cons,
        Listing.markers_append, markers_guardCode, markers_stepCode,
        Listing.markers_instruction_cons, Listing.markers_nil, List.forall_mem_cons,
        List.forall_mem_append] at placed
      obtain ⟨-, test, -, inside, -, finish, -⟩ := placed
      have body := body.listing_issued (targets_some finish) meets.2.2.2 _ inside
      simp [start.code_issued methods meets.1, guardCode_issued methods meets.2.1 finish, body,
        stepCode_issued methods meets.2.2.1, Issued.jump test]
  | switch line number value clauses =>
      rw [Statement.listing, Statement.lower_switch] at placed ⊢
      simp only [Listing.markers_ofInstructions, Listing.markers_label_cons,
        Listing.markers_append, Listing.markers_nil, List.forall_mem_cons,
        List.forall_mem_append] at placed
      obtain ⟨-, inside, finish, -⟩ := placed
      have clauses := Clause.listingAll_issued finish false clauses meets.2 _ inside
      have store : Issued standard targets (.store (selectorName number)) :=
        .store (.selector number)
      simp [value.code_issued methods meets.1, store, clauses]
  | switchHead line number value =>
      rw [Statement.listing, Statement.lower, Lowering.run_pure, Listing.instructions_ofInstructions]
      have store : Issued standard targets (.store (selectorName number)) :=
        .store (.selector number)
      simp [value.code_issued methods meets.2, store]

theorem Statement.listingAll_issued {exit : Option String} (exits : ∀ label ∈ exit, targets label)
    (statements : List Statement) (meets : Statement.AllMeet standard statements) (made : Nat)
    (placed : ∀ label ∈ Listing.markers (Statement.listingAll methods exit statements made),
      targets label) :
    AllIssued standard targets
      (Listing.instructions (Statement.listingAll methods exit statements made)) := by
  cases statements with
  | nil =>
      rw [Statement.listingAll, Statement.lowerAll]
      exact allIssued_nil
  | cons statement rest =>
      rw [Statement.listingAll, Statement.lowerAll_cons, Listing.markers_append,
        List.forall_mem_append] at placed
      rw [Statement.listingAll, Statement.lowerAll_cons, Listing.instructions_append,
        allIssued_append]
      exact ⟨statement.listing_issued exits meets.1 made placed.1,
        Statement.listingAll_issued exits rest meets.2 _ placed.2⟩

theorem Clause.listingAll_issued {finish : String} (exits : targets finish) {number : Nat}
    {pending : Option String} (entered : Bool)
    (clauses : List Clause) (meets : Clause.AllMeet standard clauses) (made : Nat)
    (placed : ∀ label ∈ Listing.markers (Clause.listingAll methods (selectorName number) finish
      pending entered clauses made), targets label) :
    AllIssued standard targets (Listing.instructions (Clause.listingAll methods
      (selectorName number) finish pending entered clauses made)) := by
  cases clauses with
  | nil =>
      rw [Clause.listingAll_nil, instructions_markerOf]
      exact allIssued_nil
  | cons clause rest =>
      obtain ⟨test, body⟩ := clause
      rw [Clause.listingAll_cons] at placed ⊢
      simp only [Listing.markers_label_cons, Listing.markers_append, markers_skipCode,
        markers_testCode, markers_markerOf, List.forall_mem_cons,
        List.forall_mem_append] at placed
      obtain ⟨-, -, -, inside, first, others⟩ := placed
      have failed : ∀ _ ∈ test, targets (labelName (made + 2)) := by
        intro value present
        apply others
        apply Clause.pending_placed
        rw [present]
        rfl
      have body := Statement.listingAll_issued (targets_some exits) body
        meets.1.2 _ first
      have rest := Clause.listingAll_issued exits true rest meets.2 _ others
      simp [skipCode_issued entered inside, testCode_issued methods meets.1.1 failed, body, rest]

end

end

section

variable {standard : TreeStandard}

theorem Member.lowerAll_issued {targets : String → Prop} (methods : MethodTable)
    (members : List Member) (meets : ∀ member ∈ members, member.Meets standard) (made : Nat)
    (placed : ∀ label ∈ Listing.markers ((Member.lowerAll methods members).run made).1,
      targets label) :
    AllIssued standard targets
      (Listing.instructions ((Member.lowerAll methods members).run made).1) := by
  induction members generalizing methods made with
  | nil => exact allIssued_nil
  | cons member rest ih =>
      have others : ∀ member ∈ rest, member.Meets standard := fun other listed =>
        meets other (List.mem_cons_of_mem _ listed)
      have first := meets member List.mem_cons_self
      cases member with
      | skipped => exact ih methods others made placed
      | field declaration =>
          rw [Member.lowerAll, Lowering.run_bind, Lowering.run_pure, Listing.markers_append,
            Listing.markers_ofInstructions] at placed
          rw [Member.lowerAll, Lowering.run_bind, Lowering.run_pure, Listing.instructions_append,
            Listing.instructions_ofInstructions, allIssued_append]
          exact ⟨declaration.code_issued methods first, ih methods others made placed⟩
      | method declared =>
          simp only [Member.lowerAll, Lowering.run_bind, Lowering.run_pure,
            Listing.markers_append, List.forall_mem_append] at placed
          simp only [Member.lowerAll, Lowering.run_bind, Lowering.run_pure,
            Listing.instructions_append, allIssued_append]
          exact ⟨Statement.listingAll_issued _ (by simp) declared.body first.2.2 _ placed.1,
            ih _ others _ placed.2⟩

/-- Every instruction of a lowered program is issued by lowering, and every jump goes
to a label that is placed. -/
theorem Program.lower_issued (program : Program) (meets : program.Meets standard) :
    AllIssued standard (· ∈ Listing.markers program.lower.listing)
      (Listing.instructions program.lower.listing) := by
  cases program with
  | statements body =>
      exact Statement.listingAll_issued .empty nofun body meets 0 fun _ placed => placed
  | members all => exact Member.lowerAll_issued .empty all meets 0 fun _ placed => placed

end

end StackLang
