import Mathlib.Data.List.Nodup
import StackLang.Proofs.Grammar.Switches
import StackLang.Proofs.Reading.Program

/-!
# Numbers of switches

Reading counts the switches as they come, so the switches of a tree have different
numbers, however the tree was repaired.
-/

namespace StackLang

namespace Reading

variable {α β : Type}

/-- The numbers are handed out between two counts, each of them once. -/
structure Between (low : Nat) (numbers : List Nat) (high : Nat) : Prop where
  ordered : low ≤ high
  within : ∀ number ∈ numbers, low < number ∧ number ≤ high
  distinct : numbers.Nodup

namespace Between

variable {low middle high : Nat} {first second : List Nat}

theorem none (ordered : low ≤ high) : Between low [] high := ⟨ordered, nofun, List.nodup_nil⟩

theorem one (low : Nat) : Between low [low + 1] (low + 1) :=
  ⟨Nat.le_succ low, by simp, List.nodup_singleton _⟩

theorem append (front : Between low first middle) (back : Between middle second high) :
    Between low (first ++ second) high := by
  refine ⟨Nat.le_trans front.ordered back.ordered, ?_, ?_⟩
  · intro number member
    rcases List.mem_append.mp member with early | late
    · exact ⟨(front.within number early).1, Nat.le_trans (front.within number early).2 back.ordered⟩
    · exact ⟨Nat.lt_of_le_of_lt front.ordered (back.within number late).1,
        (back.within number late).2⟩
  · apply List.nodup_append'.mpr ⟨front.distinct, back.distinct, ?_⟩
    intro number early late
    exact Nat.not_lt.mpr (front.within number early).2 (back.within number late).1

end Between

/-- Reading never moves back, nor does the count of switches. -/
def Moves (reader : Reading α) : Prop :=
  ∀ before : Cursor, before.Advances (reader.run before).2

theorem Moves.of_gives {reader : Reading α} {always : Cursor → α → Prop}
    {clean : Cursor → α → Cursor → Prop}
    (given : ∀ before, Gives reader before (always before) (clean before)) : Moves reader :=
  fun before => (given before).advances

theorem Moves.of_repairs {reader : Reading Unit} (repairs : Repairs reader) : Moves reader :=
  .of_gives repairs

/-- With the numbers handed out before, those of the result were each handed out once. -/
def Counts (seen : List Nat) (numbers : α → List Nat) (reader : Reading α) : Prop :=
  ∀ low before, Between low seen before.switches →
    Between low (numbers (reader.run before).1) (reader.run before).2.switches

namespace Counts

variable {seen front : List Nat} {counted : α → List Nat} {numbers : β → List Nat}

theorem pure {result : β} (same : numbers result = seen) :
    Counts seen numbers (Pure.pure result) :=
  fun _ _ between => same ▸ between

/-- What is read first has no switches. -/
theorem behind {reader : Reading α} {next : α → Reading β} (moves : Moves reader)
    (later : ∀ result, Counts seen numbers (next result)) :
    Counts seen numbers (reader >>= next) := by
  intro low before between
  have still := between.append (.none (moves before).switches)
  rw [List.append_nil] at still
  exact later _ low _ still

/-- What is read first has switches of its own. -/
theorem andThen {reader : Reading α} {next : α → Reading β} (first : Counts [] counted reader)
    (later : ∀ result, Counts (seen ++ counted result) numbers (next result)) :
    Counts seen numbers (reader >>= next) :=
  fun low before between =>
    later _ low _ (between.append (first before.switches before (.none (Nat.le_refl _))))

theorem count {next : Nat → Reading β}
    (later : ∀ number, Counts (seen ++ [number]) numbers (next number)) :
    Counts seen numbers (countSwitch >>= next) :=
  fun low before between =>
    later (before.switches + 1) low { before with switches := before.switches + 1 }
      (between.append (.one before.switches))

theorem ite {condition : Prop} [Decidable condition] {yes no : Reading β}
    (holds : Counts seen numbers yes) (fails : Counts seen numbers no) :
    Counts seen numbers (if condition then yes else no) := by
  split
  · exact holds
  · exact fails

theorem map {reader : Reading α} {function : α → β} (moves : Moves reader)
    (same : ∀ result, numbers (function result) = seen) :
    Counts seen numbers (function <$> reader) :=
  behind moves fun result => pure (same result)

/-- A question about the tokens ahead decides between two ways to go on. -/
theorem branch {question : Reading Bool} {yes no : Reading β} (moves : Moves question)
    (holds : Counts seen numbers yes) (fails : Counts seen numbers no) :
    Counts seen numbers (do if ← question then yes else no) :=
  behind moves fun _ => ite holds fails

theorem rule {nonterminal : Nonterminal} {body : Reading β} (inside : Counts seen numbers body) :
    Counts seen numbers (Reading.rule nonterminal body) :=
  fun low before between => inside low (before.enter nonterminal) between

theorem collectFor {round : Reading (Option α)} {item : α → List Nat}
    (each : Counts [] (Option.elim · [] item) round) (bound : Nat) :
    Counts [] (List.flatMap item) (Reading.collectFor round bound) := by
  induction bound with
  | zero => exact .pure rfl
  | succ bound ih =>
      refine each.andThen fun next? => ?_
      cases next? with
      | none => exact .pure rfl
      | some next => exact ih.andThen fun rest => .pure rfl

theorem collect {round : Reading (Option α)} {item : α → List Nat}
    (each : Counts [] (Option.elim · [] item) round) :
    Counts [] (List.flatMap item) (Reading.collect round) :=
  fun low before => each.collectFor (before.rest.length + 1) low before

end Counts

/-! ## Readers without switches -/

section

variable (symbol : String) (complaint : Complaint) (stop : Option Token → Bool)

theorem accept_moves : Moves (accept symbol) := .of_gives (accept_gives symbol)

theorem keyword_moves : Moves (keyword symbol) := .of_gives (keyword_reads symbol)

theorem abandon_moves : Moves (abandon complaint stop) := .of_repairs (abandon_repairs _ _)

theorem demand_moves {repair : Reading Unit} (repairs : Repairs repair) :
    Moves (demand symbol repair) := .of_gives (demand_gives repairs symbol)

theorem closeHeader_moves : Moves (closeHeader complaint) := .of_gives (closeHeader_gives complaint)

theorem expression_moves : Moves expression :=
  .of_gives fun before => expression_gives before (List.Subset.refl before.rest)

theorem foreseen_moves : Moves foreseen :=
  .of_gives fun before => foreseen_gives before (List.Subset.refl before.rest)

theorem declaration_moves : Moves declaration :=
  .of_gives fun before => declaration_obeys before (List.Subset.refl before.rest)

theorem assignment_moves : Moves assignment :=
  .of_gives fun before => assignment_obeys before (List.Subset.refl before.rest)

theorem condition_moves (form : ConditionForm) : Moves (condition form) :=
  .of_gives fun before => condition_obeys form before (List.Subset.refl before.rest)

/-- A look at the cursor. -/
theorem looks {reader : Reading α} {answer : Cursor → α}
    (run : ∀ before, reader.run before = (answer before, before)) : Moves reader := by
  intro before
  rw [run]
  exact .refl before

end

/-! ## Statements -/

/-- The reader counts the switches of the statement that it reads. -/
def CountsStatement (reader : Reading Statement) : Prop := Counts [] Statement.switches reader

theorem terminated_counts (complaint : Complaint) {statement : Reading Statement}
    (counts : CountsStatement statement) : CountsStatement (terminated complaint statement) :=
  counts.andThen fun _ => .behind (.of_gives (terminate_gives complaint)) fun _ => .pure rfl

theorem print_counts : CountsStatement print := by
  refine .rule (.behind (.of_gives fun before => take_gives _ before fun _ => rfl) fun keyword? => ?_)
  cases keyword? with
  | none => exact .pure rfl
  | some keyword =>
      refine .behind (accept_moves _) fun _ => .ite ?_ ?_
      · exact .behind (abandon_moves _ _) fun _ => .pure rfl
      · refine .behind (.of_gives fun before =>
          unlessSees_obeys ")" (expression_obeys before (List.Subset.refl before.rest))) fun _ => ?_
        exact .behind (demand_moves _ (abandon_repairs _ _)) fun _ => .pure rfl

theorem read_counts : CountsStatement read := by
  refine .rule (.behind (keyword_moves _) fun _ => .behind (accept_moves _) fun _ => .ite ?_ ?_)
  · exact .behind (abandon_moves _ _) fun _ => .pure rfl
  · refine .behind (.of_gives identifier?_gives) fun target? => ?_
    cases target? with
    | none => exact .behind (abandon_moves _ _) fun _ => .pure rfl
    | some target => exact .behind (demand_moves _ (abandon_repairs _ _)) fun _ => .pure rfl

theorem leave_counts : CountsStatement leave :=
  .behind (looks fun _ => rfl) fun _ => .behind (keyword_moves _) fun _ =>
    .behind (.of_gives (terminate_gives _)) fun _ => .pure rfl

theorem giveBack_counts : CountsStatement giveBack :=
  .rule (.behind (looks fun _ => rfl) fun _ => .behind (keyword_moves _) fun _ =>
    .behind (.of_gives fun before => returned_obeys before (List.Subset.refl before.rest)) fun _ =>
      .behind (.of_gives (terminate_gives _)) fun _ => .pure rfl)

theorem evaluation_counts : CountsStatement evaluation :=
  terminated_counts _ (.map expression_moves fun _ => rfl)

theorem named_counts : CountsStatement named := by
  refine .behind (looks fun _ => rfl) fun _ => .ite ?_ ?_
  · refine terminated_counts _ (.behind (.of_gives fun before =>
      call_gives (expression_right before.rest before.rest.length) before
        (List.Subset.refl before.rest)) fun call? => ?_)
    cases call? <;> exact .pure rfl
  · refine .behind (looks fun _ => rfl) fun _ => .ite ?_ evaluation_counts
    refine terminated_counts _ (.behind assignment_moves fun assignment? => ?_)
    cases assignment? <;> exact .pure rfl

theorem stray_counts : CountsStatement stray :=
  .behind (.of_repairs (complain_repairs _)) fun _ => .behind (.of_gives (resume_gives _)) fun _ =>
    .pure rfl

section

variable {block statement : Reading Statement} {body : Reading (List Statement)}

theorem whileLoop_counts (blocks : CountsStatement block) : CountsStatement (whileLoop block) :=
  .rule (.behind (keyword_moves _) fun _ => .behind (condition_moves _) fun _ =>
    blocks.andThen fun _ => .pure rfl)

theorem choice_counts (blocks : CountsStatement block) : CountsStatement (choice block) := by
  refine .rule (.behind (keyword_moves _) fun _ => .behind (condition_moves _) fun _ =>
    blocks.andThen fun yes => .behind (accept_moves _) fun _ => .ite ?_ (.pure rfl))
  exact blocks.andThen fun no => .pure rfl

theorem doWhile_counts (blocks : CountsStatement block) : CountsStatement (doWhile block) := by
  refine .rule (.behind (keyword_moves _) fun _ => blocks.andThen fun body =>
    .behind (.of_gives repeatKeyword_gives) fun _ => .ite (.pure rfl) ?_)
  exact .behind (condition_moves _) fun _ => .behind (.of_gives (terminate_gives _)) fun _ =>
    .pure rfl

theorem forLoop_counts (blocks : CountsStatement block) : CountsStatement (forLoop block) := by
  refine .rule (.behind (keyword_moves _) fun _ =>
    .behind (demand_moves _ (complain_repairs _)) fun _ => ?_)
  refine .behind (.of_gives fun before => loopStart_obeys before (List.Subset.refl before.rest))
    fun start => .behind (.of_gives (headerSeparator_gives _)) fun _ => ?_
  refine .behind (.of_gives fun before =>
    unlessSees_obeys ";" (foreseen_obeys before (List.Subset.refl before.rest)))
      fun condition => .behind (.of_gives (headerSeparator_gives _)) fun _ => ?_
  refine .behind (.of_gives fun before => loopStep_obeys before (List.Subset.refl before.rest))
    fun step => .behind (closeHeader_moves _) fun _ => ?_
  exact blocks.andThen fun _ => .pure rfl

/-- The reader counts the switches of the statements that it reads. -/
def CountsStatements (reader : Reading (List Statement)) : Prop :=
  Counts [] Statement.allSwitches reader

theorem clauseFrom_counts (bodies : CountsStatements body) (test : Option Foreseen) :
    Counts [] Clause.switches (clauseFrom body test) :=
  .behind (demand_moves _ (complain_repairs _)) fun _ => bodies.andThen fun _ => .pure rfl

theorem clause?_counts (bodies : CountsStatements body) :
    Counts [] (Option.elim · [] (Option.elim · [] Clause.switches)) (clause? body) := by
  have clause (test : Option Foreseen) :
      Counts [] (Option.elim · [] (Option.elim · [] Clause.switches))
        (do return some (some (← clauseFrom body test))) :=
    (clauseFrom_counts bodies test).andThen fun _ => .pure rfl
  have keyword (isCase : Bool) :
      Counts [] (Option.elim · [] (Option.elim · [] Clause.switches)) (do
        skip
        log (.symbol (if isCase then "case" else "default"))
        let test ← if isCase then caseValue else pure none
        return some (some (← clauseFrom body test))) := by
    refine .behind (.of_gives skip_gives) fun _ => .behind (.of_gives (log_gives _)) fun _ => ?_
    refine .ite (.behind ?_ clause) (.behind (looks fun _ => rfl) clause)
    exact .of_gives fun before => caseValue_obeys before (List.Subset.refl before.rest)
  have other : Counts [] (Option.elim · [] (Option.elim · [] Clause.switches))
      (do
        if (← atEnd) || (← sees "\x7d") then return none
        abandon .clauseKeyword (Terminal.anyAccepts [.word "case", .word "default", .word "\x7d"])
        return some none : Reading (Option (Option Clause))) := by
    refine .behind (looks fun _ => rfl) fun _ => .branch (looks fun _ => rfl) (.pure rfl) ?_
    exact .behind (abandon_moves _ _) fun _ => .pure rfl
  exact .behind (looks fun _ => rfl) fun isCase =>
    .branch (looks fun _ => rfl) (keyword isCase) other

theorem switch_counts (bodies : CountsStatements body) : CountsStatement (switch body) := by
  refine .rule (.behind (looks fun _ => rfl) fun _ => .behind (keyword_moves _) fun _ =>
    .behind (demand_moves _ (complain_repairs _)) fun _ => ?_)
  refine .behind (.of_gives fun before =>
    demandForeseen_gives (complain_repairs _) before (List.Subset.refl before.rest)) fun value =>
      .behind (closeHeader_moves _) fun _ => .count fun number => ?_
  refine .behind (accept_moves _) fun _ => .ite ?_ ?_
  · exact .behind (abandon_moves _ _) fun _ => .pure rfl
  · refine (Counts.collect (clause?_counts bodies)).andThen fun clauses =>
      .behind (demand_moves _ (complain_repairs _)) fun _ => .pure ?_
    exact congrArg (number :: ·) (Clause.allSwitches_filterMap clauses)

theorem nextStatement_counts (statements : CountsStatement statement) :
    Counts [] (Option.elim · [] Statement.switches) (nextStatement statement) := by
  refine .behind (looks fun _ => rfl) fun _ => .branch (looks fun _ => rfl) (.pure rfl) ?_
  refine .behind (looks fun _ => rfl) fun _ => statements.andThen fun _ => ?_
  exact .behind (.of_gives (skipUnlessBelow_gives _)) fun _ => .pure rfl

theorem bodyOf_counts (statements : CountsStatement statement) :
    CountsStatements (bodyOf statement) := by
  have counts : Counts [] (List.flatMap Statement.switches) (bodyOf statement) :=
    .rule (.collect (nextStatement_counts statements))
  rwa [← funext Statement.allSwitches_eq] at counts

theorem expect_moves (nonterminal : Nonterminal) (complaint : Complaint) :
    Moves (expect nonterminal complaint) := by
  have given (before : Cursor) :
      Gives (expect nonterminal complaint) before (fun _ => True) fun _ _ => True := by
    refine .branch _ rfl (fun _ => .pure trivial trivial) fun _ => ?_
    exact .repaired (abandon_repairs _ _) fun middle _ => ⟨.refl middle, trivial, fun _ => trivial⟩
  exact .of_gives given

theorem blockOf_counts (statements : CountsStatement statement) :
    CountsStatement (blockOf statement) := by
  refine .rule (.behind (expect_moves _ _) fun _ => .ite (.pure rfl) ?_)
  refine .behind (accept_moves _) fun _ => .ite ?_ statements
  exact (bodyOf_counts statements).andThen fun _ =>
    .behind (demand_moves _ (complain_repairs _)) fun _ => .pure rfl

theorem statementOf_counts (statements : CountsStatement statement) :
    CountsStatement (statementOf statement) := by
  have blocks := blockOf_counts statements
  refine .branch (looks fun _ => rfl) ?_ ?_
  · refine terminated_counts _ (.behind declaration_moves fun declaration? => ?_)
    cases declaration? <;> exact .pure rfl
  refine .branch (looks fun _ => rfl) named_counts ?_
  refine .branch (looks fun _ => rfl) (terminated_counts _ print_counts) ?_
  refine .branch (looks fun _ => rfl) (terminated_counts _ read_counts) ?_
  refine .branch (looks fun _ => rfl) leave_counts ?_
  refine .branch (looks fun _ => rfl) giveBack_counts ?_
  refine .branch (looks fun _ => rfl) (whileLoop_counts blocks) ?_
  refine .branch (looks fun _ => rfl) (choice_counts blocks) ?_
  refine .branch (looks fun _ => rfl) (doWhile_counts blocks) ?_
  refine .branch (looks fun _ => rfl) (forLoop_counts blocks) ?_
  refine .branch (looks fun _ => rfl) (switch_counts (bodyOf_counts statements)) ?_
  refine .branch (looks fun _ => rfl) blocks ?_
  exact .branch (looks fun _ => rfl) evaluation_counts stray_counts

end

theorem statementFor_counts (depth : Nat) : CountsStatement (statementFor depth) := by
  induction depth with
  | zero => exact .pure rfl
  | succ depth ih => exact statementOf_counts ih

theorem body_counts : CountsStatements body :=
  .behind (looks fun _ => rfl) fun _ => bodyOf_counts (statementFor_counts _)

/-! ## Programs -/

theorem methodBody_counts : CountsStatements methodBody := by
  refine .behind (.of_gives closeParameters_gives) fun _ => .ite (.pure rfl) ?_
  refine .branch (accept_moves _) ?_ ?_
  · exact body_counts.andThen fun _ =>
      .behind (demand_moves _ (abandonMethod_repairs _)) fun _ => .pure rfl
  · exact .behind (.of_repairs (abandonMethod_repairs _)) fun _ => .pure rfl

theorem typeName_moves : Moves typeName :=
  .of_gives fun before => typeName_obeys before.rest before

theorem method_counts :
    Counts [] (Option.elim · [] fun method => Statement.allSwitches method.body) method := by
  refine .rule (.behind typeName_moves fun type? => ?_)
  cases type? with
  | none => exact .pure rfl
  | some type =>
      refine .behind (.of_gives identifier?_gives) fun name? => ?_
      cases name? with
      | none => exact .pure rfl
      | some name =>
          refine .behind (accept_moves _) fun _ => .behind (.of_gives fun before =>
            parameters_gives before (List.Subset.refl before.rest)) fun _ => ?_
          exact methodBody_counts.andThen fun _ => .pure rfl

theorem member?_counts : Counts [] (Option.elim · [] Member.switches) member? := by
  refine .behind (looks fun _ => rfl) fun _ => .branch (looks fun _ => rfl) (.pure rfl) ?_
  refine .behind (looks fun _ => rfl) fun _ => .ite ?_ ?_
  · exact .behind (.of_repairs (skipMember_repairs _)) fun _ => .pure rfl
  refine .branch (.of_gives seesMethod_gives) ?_ ?_
  · refine method_counts.andThen fun method? => ?_
    cases method? <;> exact .pure rfl
  · refine .behind declaration_moves fun declaration? =>
      .behind (demand_moves _ (skipMember_repairs _)) fun _ => ?_
    cases declaration? <;> exact .pure rfl

theorem classOf_counts : Counts [] (List.flatMap Member.switches) classOf := by
  refine .behind (.of_gives className_gives) fun _ => .ite (.pure rfl) ?_
  refine .behind (accept_moves _) fun _ => .ite ?_ ?_
  · exact .behind (.of_repairs (complain_repairs _)) fun _ => .pure rfl
  · exact (Counts.collect member?_counts).andThen fun _ =>
      .behind (demand_moves _ (complain_repairs _)) fun _ => .pure rfl

theorem program_counts : Counts [] Program.switches program := by
  refine .rule (.behind (.of_gives seesProgram_gives) fun _ => .ite (.pure rfl) ?_)
  refine .branch (accept_moves _) ?_ (.branch (accept_moves _) ?_ ?_)
  · exact body_counts.andThen fun _ =>
      .behind (demand_moves _ (abandon_repairs _ _)) fun _ => .pure rfl
  · exact classOf_counts.andThen fun _ => .pure rfl
  · exact body_counts.andThen fun _ => .pure rfl

end Reading

/-- No two switches of a tree have the same number, whatever the tokens are. -/
theorem Program.ofTokens_switches_nodup (tokens : List Token) :
    (Program.ofTokens tokens).program.switches.Nodup :=
  have counts : Reading.Counts [] Program.switches Reading.wholeProgram :=
    Reading.program_counts.andThen fun _ =>
      .behind (.of_gives Reading.checkEnd_gives) fun _ => .pure rfl
  (counts 0 (.initial tokens) (.none (Nat.le_refl 0))).distinct

end StackLang
