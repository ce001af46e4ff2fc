import StackLang.Proofs.Checking.Probe
import StackLang.Proofs.Checking.Typed

/-!
# Silent checks

A check of an expression or an assignment adds errors to the analyzer and changes nothing
else, so it records an error unless it leaves the analyzer as it was.  When that is the
case is computed along the check: a sequence is silent if both of its parts are.
-/

namespace StackLang

/-- Errors have been added, and nothing else has changed. -/
def Analyzer.Reported (before after : Analyzer) : Prop :=
  ∃ added : Array SemanticError, after = { before with errors := before.errors ++ added }

namespace Analyzer.Reported

theorem refl (analyzer : Analyzer) : analyzer.Reported analyzer :=
  ⟨#[], by rw [Array.append_empty]⟩

theorem invariant (before : Analyzer) : ReportInvariant before.Reported where
  report error := by
    rintro _ ⟨added, rfl⟩
    refine ⟨added.push error, ?_⟩
    rw [Array.append_push]
    rfl

/-- Without a new error nothing has changed. -/
theorem eq_of_errors {before after : Analyzer} (reported : before.Reported after)
    (same : after.errors = before.errors) : after = before := by
  obtain ⟨added, rfl⟩ := reported
  exact congrArg (fun errors => { before with errors := errors }) same

/-- If nothing has changed in the end, nothing had changed on the way. -/
theorem eq_of_returned {before middle after : Analyzer} (first : before.Reported middle)
    (second : middle.Reported after) (returned : after = before) : middle = before := by
  obtain ⟨added, rfl⟩ := first
  obtain ⟨more, rfl⟩ := second
  have errors : before.errors ++ added ++ more = before.errors := congrArg Analyzer.errors returned
  have none : added = #[] ∧ more = #[] := by simpa [Array.append_assoc] using errors
  rw [none.1, Array.append_empty]

end Analyzer.Reported

namespace Analysis

variable {α β : Type} {analyzer : Analyzer} {action : Analysis α} {next : α → Analysis β}

/-- The check leaves the analyzer as it is. -/
def Silent (action : Analysis α) (analyzer : Analyzer) : Prop := (action.run analyzer).2 = analyzer

/-- The check does nothing but add errors. -/
def OnlyReports (action : Analysis α) : Prop :=
  ∀ analyzer : Analyzer, analyzer.Reported (action.run analyzer).2

theorem OnlyReports.of_invariant
    (kept : ∀ before : Analyzer, ReportInvariant before.Reported → Keeps before.Reported action) :
    OnlyReports action :=
  fun analyzer => kept analyzer (Analyzer.Reported.invariant analyzer) analyzer (.refl analyzer)

theorem OnlyReports.errors_eq_iff (reports : OnlyReports action) :
    (action.run analyzer).2.errors = analyzer.errors ↔ Silent action analyzer :=
  ⟨(reports analyzer).eq_of_errors, congrArg Analyzer.errors⟩

theorem silent_pure (result : α) : Silent (pure result) analyzer := rfl

theorem silent_bind (first : OnlyReports action) (later : ∀ result, OnlyReports (next result)) :
    Silent (action >>= next) analyzer ↔
      Silent action analyzer ∧ Silent (next (action.run analyzer).1) analyzer := by
  have run : ((action >>= next).run analyzer).2 =
      ((next (action.run analyzer).1).run (action.run analyzer).2).2 := rfl
  constructor
  · intro silent
    have early : Silent action analyzer :=
      (first analyzer).eq_of_returned (later _ _) (run.symm.trans silent)
    rw [Silent, run, early] at silent
    exact ⟨early, silent⟩
  · rintro ⟨early, silent⟩
    rw [Silent, run, early]
    exact silent

theorem silent_optionally {check : β → Analysis Unit} (part? : Option β) :
    Silent (optionally check part?) analyzer ↔
      ∀ part, part? = some part → Silent (check part) analyzer := by
  cases part? with
  | none => exact iff_of_true (silent_pure ()) fun _ absent => nomatch absent
  | some part =>
      constructor
      · rintro silent _ ⟨⟩
        exact silent
      · exact fun silent => silent part rfl

/-- A report on a condition is silent if the condition fails. -/
theorem silent_reportIf {condition : Prop} [Decidable condition] (error : SemanticError)
    (result : α) :
    Silent (if condition then do
      report error
      pure result else pure result) analyzer ↔ ¬condition := by
  split
  · next holds =>
      refine iff_of_false (fun silent => ?_) (not_not_intro holds)
      have pushed : (analyzer.errors.push error).size = analyzer.errors.size :=
        congrArg (fun analyzer => analyzer.errors.size) silent
      rw [Array.size_push] at pushed
      omega
  · next fails => exact iff_of_true (silent_pure result) fails

theorem silent_useVariable (name : String) (line : Nat) :
    Silent (useVariable name line) analyzer ↔ ∃ type, analyzer.lookup? name = some type := by
  have silent : Silent (useVariable name line) analyzer ↔
      ¬(analyzer.lookup? name).isNone = true := silent_reportIf _ _
  rw [silent, Option.isNone_iff_eq_none, ← ne_eq, Option.ne_none_iff_exists']

theorem silent_checkOperation (left right : TypeName) (operator : Operator) (line : Nat) :
    Silent (checkOperation left right operator line) analyzer ↔
      ∃ type, operator.result? left right = some type := by
  have silent : Silent (checkOperation left right operator line) analyzer ↔
      ¬(operator.result? left right).isNone = true := silent_reportIf _ _
  rw [silent, Option.isNone_iff_eq_none, ← ne_eq, Option.ne_none_iff_exists']

theorem silent_checkAssignment (target found : TypeName) (line : Nat) :
    Silent (checkAssignment target found line) analyzer ↔
      ∃ type, Operator.assign.result? target found = some type := by
  have silent : Silent (checkAssignment target found line) analyzer ↔
      Silent (checkOperation target found .assign line) analyzer := Iff.rfl
  rw [silent, silent_checkOperation]

theorem silent_combine (operator : Operator) (line : Nat) (left? right? : Option TypeName) :
    Silent (combine operator line left? right?) analyzer ↔
      ∀ left right, left? = some left → right? = some right →
        ∃ type, operator.result? left right = some type := by
  cases left? with
  | none => exact iff_of_true (silent_pure none) fun _ _ absent => nomatch absent
  | some left =>
      cases right? with
      | none => exact iff_of_true (silent_pure none) fun _ _ _ absent => nomatch absent
      | some right =>
          rw [combine, silent_checkOperation]
          constructor
          · rintro valid _ _ ⟨⟩ ⟨⟩
            exact valid
          · exact fun valid => valid left right rfl rfl

theorem reports_expression (expression : Expr) : OnlyReports expression.check :=
  .of_invariant fun _ kept => kept.expression expression

theorem reports_combine (operator : Operator) (line : Nat) (left? right? : Option TypeName) :
    OnlyReports (combine operator line left? right?) :=
  .of_invariant fun _ kept => kept.combine operator line left? right?

section

variable {name : Token} {type : TypeName} (known : analyzer.lookup? name.value = some type)

include known in
theorem silent_name : Silent (Expr.name name).check analyzer := by
  rw [Expr.check, silent_useVariable]
  exact ⟨type, known⟩

include known in
/-- An operation on a variable of known type is silent if its right side is and if the type of
that, where it is known, goes together with the one of the variable. -/
theorem silent_operation (operator : BinaryOperator) (line : Nat) (right : Expr) :
    Silent (Expr.binary operator line (.name name) right).check analyzer ↔
      Silent right.check analyzer ∧ ∀ found, analyzer.typeOf? right = some found →
        ∃ result, operator.checkedAs.result? type found = some result := by
  have left : ((Expr.name name).check.run analyzer).1 = some type :=
    ((Expr.name name).check_answer analyzer).trans known
  rw [Expr.check, silent_bind (reports_expression _) fun left? =>
    .of_invariant fun _ kept => (kept.expression right).bind fun right? => kept.combine _ _ _ _]
  rw [silent_bind (reports_expression right) fun right? => reports_combine _ _ _ _, left,
    right.check_answer, silent_combine]
  constructor
  · rintro ⟨_, silent, valid⟩
    exact ⟨silent, fun found answer => valid type found rfl answer⟩
  · rintro ⟨silent, valid⟩
    refine ⟨silent_name known, silent, ?_⟩
    rintro _ found ⟨⟩ answer
    exact valid found answer

end

/-! ## Assignments -/

theorem silent_checkStore (operator? : Option BinaryOperator) (target found : TypeName)
    (line : Nat) :
    Silent (checkStore operator? target found line) analyzer ↔
      ∃ stored result, storedType? operator? target found = some stored ∧
        Operator.assign.result? target stored = some result := by
  cases operator? with
  | none =>
      have silent : Silent (checkStore none target found line) analyzer ↔
          Silent (checkAssignment target found line) analyzer := Iff.rfl
      rw [silent, silent_checkAssignment]
      constructor
      · rintro ⟨result, admitted⟩
        exact ⟨found, result, rfl, admitted⟩
      · rintro ⟨_, result, ⟨⟩, admitted⟩
        exact ⟨result, admitted⟩
  | some operator =>
      let assign (result : TypeName) : Analysis Unit := do
        let _ ← checkAssignment target result line
      have form : checkStore (some operator) target found line =
          (do optionally assign (← checkOperation target found operator.checkedAs line)) := by
        refine congrArg (checkOperation target found operator.checkedAs line >>= ·) ?_
        funext result?
        cases result? <;> rfl
      have answer : ((checkOperation target found operator.checkedAs line).run analyzer).1 =
          operator.checkedAs.result? target found :=
        Expr.combine_answer operator.checkedAs line (some target) (some found) analyzer
      rw [form, silent_bind (.of_invariant fun _ kept => kept.checkOperation _ _ _ _) fun result? =>
        .of_invariant fun _ kept => .optionally (fun result =>
          (kept.checkAssignment target result line).bind fun _ => Keeps.pure ()) result?,
        answer, silent_checkOperation, silent_optionally]
      constructor
      · rintro ⟨⟨stored, combined⟩, silent⟩
        obtain ⟨result, admitted⟩ := (silent_checkAssignment _ _ _).mp (silent stored combined)
        exact ⟨stored, result, combined, admitted⟩
      · rintro ⟨stored, result, combined, admitted⟩
        refine ⟨⟨stored, combined⟩, fun other same => ?_⟩
        obtain rfl := Option.some.inj (combined.symm.trans same)
        exact (silent_checkAssignment _ _ line).mpr ⟨result, admitted⟩

/-- Storing a value is silent if its check is and if the type that its preview shows, where there
is one, can be stored. -/
theorem silent_store (operator? : Option BinaryOperator) (value : Foreseen) (line : Nat)
    (type : TypeName) :
    Silent ((AssignmentForm.store operator? value).check line (some type)) analyzer ↔
      (∀ found, value.preview.bind analyzer.typeOf? = some found →
        ∃ stored result, storedType? operator? type found = some stored ∧
          Operator.assign.result? type stored = some result) ∧
        Silent value.value.check analyzer := by
  have form : (AssignmentForm.store operator? value).check line (some type) = (do
      optionally (checkStore operator? type · line) (← value.type?)
      value.check) := by
    refine congrArg (value.type? >>= ·) (funext fun found? => ?_)
    cases found? <;> rfl
  have silent : Silent ((AssignmentForm.store operator? value).check line (some type)) analyzer ↔
      Silent (do
        optionally (checkStore operator? type · line) (value.preview.bind analyzer.typeOf?)
        value.check) analyzer := by
    rw [form]
    exact Iff.rfl
  have parts : Silent value.check analyzer ↔ Silent value.value.check analyzer := Iff.rfl
  rw [silent, silent_bind (.of_invariant fun _ kept => .optionally (kept.store _ _ · _) _) fun _ =>
    .of_invariant fun _ kept => kept.foreseen value, silent_optionally, parts]
  simp only [silent_checkStore]

theorem silent_assignment (assignment : Assignment) :
    Silent assignment.check analyzer ↔
      ∃ type, analyzer.lookup? assignment.target.value = some type ∧
        Silent (assignment.form.check assignment.target.line (some type)) analyzer := by
  rw [assignment.check_form, silent_bind (.of_invariant fun _ kept => kept.useVariable _ _)
    fun target? => .of_invariant fun _ kept => kept.form _ target? _, silent_useVariable]
  have answer : ((useVariable assignment.target.value assignment.target.line).run analyzer).1 =
      analyzer.lookup? assignment.target.value :=
    (Expr.name assignment.target).check_answer analyzer
  rw [answer]
  constructor
  · rintro ⟨⟨type, known⟩, silent⟩
    rw [known] at silent
    exact ⟨type, known, silent⟩
  · rintro ⟨type, known, silent⟩
    rw [known]
    exact ⟨⟨type, rfl⟩, silent⟩

end Analysis

end StackLang
