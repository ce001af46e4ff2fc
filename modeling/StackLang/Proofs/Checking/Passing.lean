import StackLang.Proofs.Checking.Growth
import StackLang.Proofs.Reading.Foresight

/-!
# Checks that pass

A check that records no error finds what it looks for.  A check of an expression that
passes finds the inferred type and changes nothing, and it passes only if the integers
of the expression are in range.
-/

namespace StackLang

namespace Analysis

variable {α β : Type} {analyzer final : Analyzer} {action : Analysis α} {next : α → Analysis β}

/-- The analyzer has no errors after the check. -/
def Passes (action : Analysis α) (analyzer : Analyzer) : Prop :=
  (action.run analyzer).2.errors = #[]

/-- The check has the result and changes nothing. -/
def Finds (action : Analysis α) (analyzer : Analyzer) (result : α) : Prop :=
  action.run analyzer = (result, analyzer)

theorem passes_of_grows (grows : (action.run analyzer).2.Grows final)
    (clean : final.errors = #[]) : Passes action analyzer := by
  apply Array.eq_empty_iff_forall_not_mem.mpr
  intro error reported
  have still := grows.errors error reported
  rw [clean] at still
  exact Array.not_mem_empty error still

theorem Passes.first (passes : Passes (action >>= next) analyzer)
    (adds : ∀ result, Adds (next result)) : Passes action analyzer :=
  passes_of_grows (adds _ _ _ (.refl _)) passes

theorem Passes.behind {result : α} (passes : Passes (action >>= next) analyzer)
    (finds : Finds action analyzer result) : Passes (next result) analyzer := by
  rw [Passes, StateT.run_bind, finds] at passes
  exact passes

theorem Finds.bind {result : α} {last : β} (first : Finds action analyzer result)
    (second : Finds (next result) analyzer last) : Finds (action >>= next) analyzer last := by
  rw [Finds, StateT.run_bind, first]
  exact second

theorem Passes.get {next : Analyzer → Analysis β}
    (passes : Passes (MonadState.get >>= next) analyzer) : Passes (next analyzer) analyzer :=
  passes

theorem Finds.get {next : Analyzer → Analysis β} {last : β}
    (finds : Finds (next analyzer) analyzer last) :
    Finds (MonadState.get >>= next) analyzer last :=
  finds

theorem Finds.pure (result : α) : Finds (Pure.pure result) analyzer result := rfl

theorem not_passes_report {error : SemanticError} : ¬ Passes (report error) analyzer := by
  intro passes
  have sizes := congrArg Array.size passes
  simp [report, modify, modifyGet, MonadStateOf.modifyGet, StateT.modifyGet, StateT.run,
    Pure.pure] at sizes

theorem reportIf_finds {condition : Prop} [Decidable condition] {error : SemanticError} {result : α}
    (passes : Passes (if condition then do
      report error
      Pure.pure result else Pure.pure result) analyzer) :
    ¬ condition ∧ Finds (if condition then do
      report error
      Pure.pure result else Pure.pure result) analyzer result := by
  split at passes
  · exact absurd (passes.first fun _ _ => Keeps.pure _) not_passes_report
  · next fails => exact ⟨fails, by rw [if_neg fails]; exact Finds.pure result⟩

theorem exists_of_not_isNone {value? : Option α} (present : ¬ value?.isNone = true) :
    ∃ value, value? = some value := by
  cases value? with
  | none => exact absurd rfl present
  | some value => exact ⟨value, rfl⟩

theorem useVariable_finds {name : String} {line : Nat}
    (passes : Passes (useVariable name line) analyzer) :
    ∃ type, analyzer.lookup? name = some type ∧
      Finds (useVariable name line) analyzer (some type) := by
  have parts : ¬ (analyzer.lookup? name).isNone = true ∧
      Finds (useVariable name line) analyzer (analyzer.lookup? name) := reportIf_finds passes
  obtain ⟨type, found⟩ := exists_of_not_isNone parts.1
  exact ⟨type, found, found ▸ parts.2⟩

theorem checkOperation_finds {left right : TypeName} {operator : Operator} {line : Nat}
    (passes : Passes (checkOperation left right operator line) analyzer) :
    ∃ type, operator.result? left right = some type ∧
      Finds (checkOperation left right operator line) analyzer (some type) := by
  have parts : ¬ (operator.result? left right).isNone = true ∧
      Finds (checkOperation left right operator line) analyzer (operator.result? left right) :=
    reportIf_finds passes
  obtain ⟨type, found⟩ := exists_of_not_isNone parts.1
  exact ⟨type, found, found ▸ parts.2⟩

theorem checkAssignment_finds {target found : TypeName} {line : Nat}
    (passes : Passes (checkAssignment target found line) analyzer) :
    ∃ type, Operator.assign.result? target found = some type ∧
      Finds (checkAssignment target found line) analyzer true := by
  obtain ⟨type, admitted, finds⟩ :=
    checkOperation_finds (passes.first fun _ _ => Keeps.pure _)
  exact ⟨type, admitted, finds.bind (.pure true)⟩

theorem checkBoolean_finds {found : TypeName} {context : String} {line : Nat}
    (passes : Passes (checkBoolean found context line) analyzer) :
    found = .boolean ∧ Finds (checkBoolean found context line) analyzer true := by
  rw [checkBoolean] at passes ⊢
  split at passes
  · next boolean => exact ⟨boolean, by rw [if_pos boolean]; exact .pure true⟩
  · exact absurd (passes.first fun _ _ => Keeps.pure _) not_passes_report

theorem checkArguments_finds {name : String} {line index : Nat}
    {parameters : List (TypeName × String)} {arguments : List (Option TypeName)}
    (passes : Passes (checkArguments name line index parameters arguments) analyzer) :
    Finds (checkArguments name line index parameters arguments) analyzer () := by
  induction parameters generalizing index arguments with
  | nil => exact .pure ()
  | cons parameter parameters ih =>
      cases arguments with
      | nil => exact .pure ()
      | cons found? arguments =>
          cases found? with
          | none => exact ih passes
          | some found =>
              have adds (base : Analyzer) := Analyzer.Grows.invariant base (.loose [])
              unfold checkArguments at passes ⊢
              dsimp only at passes ⊢
              split at passes
              · have reported := passes.first fun _ base => (adds base).checkArguments _ _ _ _ _
                exact absurd reported not_passes_report
              · next fits =>
                  rw [if_neg fits]
                  exact ih passes

theorem checkCall_finds {name : String} {arguments : List (Option TypeName)} {line : Nat}
    (passes : Passes (checkCall name arguments line) analyzer) :
    ∃ method, analyzer.method? name = some method ∧
      Finds (checkCall name arguments line) analyzer (some method.returnType) := by
  rw [checkCall] at passes ⊢
  have passes := passes.get
  cases known : analyzer.method? name with
  | none =>
      rw [known] at passes
      exact absurd (passes.first fun _ _ => Keeps.pure _) not_passes_report
  | some method =>
      refine ⟨method, rfl, .get ?_⟩
      rw [known] at passes ⊢
      dsimp only at passes ⊢
      split at passes
      · exact absurd (passes.first fun _ _ => Keeps.pure _) not_passes_report
      · next fits =>
          rw [if_neg fits]
          exact (checkArguments_finds (passes.first fun _ _ => Keeps.pure _)).bind (.pure _)

end Analysis

mutual

/-- The integers of the expression are in the range of the machine. -/
def Expr.InRange : Expr → Prop
  | .missing => True
  | .literal token => token.isOutOfRange = false
  | .name _ => True
  | .call _ arguments => Expr.AllInRange arguments
  | .negate _ operand => operand.InRange
  | .invert _ operand => operand.InRange
  | .binary _ _ left right => left.InRange ∧ right.InRange

def Expr.AllInRange : List Expr → Prop
  | [] => True
  | expression :: rest => expression.InRange ∧ Expr.AllInRange rest

end

namespace Expr

open Analysis

variable {source : List Token} {analyzer : Analyzer}

mutual

/-- A check of an expression that passes finds the inferred type. -/
theorem check_finds (expression : Expr) (meets : expression.Meets (.strict source))
    (passes : Passes expression.check analyzer) :
    expression.InRange ∧ ∃ type, analyzer.typeOf? expression = some type ∧
      Finds expression.check analyzer (some type) := by
  have adds (base : Analyzer) := Analyzer.Grows.invariant base (.loose [])
  cases expression with
  | missing => exact meets.elim
  | literal token =>
      rw [Expr.check] at passes ⊢
      obtain ⟨inRange, finds⟩ := reportIf_finds passes
      obtain ⟨type, known⟩ := Option.isSome_iff_exists.mp (Token.literalType?_isSome meets.1)
      exact ⟨Bool.eq_false_iff.mpr inRange, type, known, known ▸ finds⟩
  | name token =>
      rw [Expr.check] at passes ⊢
      exact ⟨trivial, useVariable_finds passes⟩
  | call callee arguments =>
      rw [Expr.check] at passes ⊢
      obtain ⟨inRange, types, finds⟩ := checkAll_finds arguments meets.2
        (passes.first fun _ base => (adds base).checkCall _ _ _)
      obtain ⟨method, known, found⟩ := checkCall_finds (passes.behind finds)
      refine ⟨inRange, method.returnType, ?_, finds.bind found⟩
      rw [Analyzer.typeOf?, known]
      rfl
  | negate line operand | invert line operand =>
      rw [Expr.check] at passes ⊢
      obtain ⟨inRange, type, inferred, finds⟩ := operand.check_finds meets
        (passes.first fun _ base => (adds base).combine _ _ _ _)
      obtain ⟨result, admitted, found⟩ := checkOperation_finds (passes.behind finds)
      refine ⟨inRange, result, ?_, finds.bind found⟩
      rw [Analyzer.typeOf?, inferred]
      exact admitted
  | binary operator line left right =>
      rw [Expr.check] at passes ⊢
      obtain ⟨leftInRange, leftType, leftInferred, leftFinds⟩ := left.check_finds meets.1
        (passes.first fun _ base => ((adds base).expression right).bind fun _ =>
          (adds base).combine _ _ _ _)
      have rest := passes.behind leftFinds
      obtain ⟨rightInRange, rightType, rightInferred, rightFinds⟩ := right.check_finds meets.2
        (rest.first fun _ base => (adds base).combine _ _ _ _)
      obtain ⟨result, admitted, found⟩ := checkOperation_finds (rest.behind rightFinds)
      refine ⟨⟨leftInRange, rightInRange⟩, result, ?_, leftFinds.bind (rightFinds.bind found)⟩
      rw [Analyzer.typeOf?, leftInferred, rightInferred]
      exact admitted

theorem checkAll_finds (expressions : List Expr) (meets : Expr.AllMeet (.strict source) expressions)
    (passes : Passes (Expr.checkAll expressions) analyzer) :
    Expr.AllInRange expressions ∧ ∃ types, Finds (Expr.checkAll expressions) analyzer types := by
  have adds (base : Analyzer) := Analyzer.Grows.invariant base (.loose [])
  cases expressions with
  | nil =>
      rw [Expr.checkAll]
      exact ⟨trivial, [], .pure []⟩
  | cons expression rest =>
      rw [Expr.checkAll] at passes ⊢
      obtain ⟨inRange, type, -, finds⟩ := expression.check_finds meets.1
        (passes.first fun _ base => ((adds base).expressions rest).bind fun _ => Keeps.pure _)
      obtain ⟨othersInRange, types, others⟩ := checkAll_finds rest meets.2
        ((passes.behind finds).first fun _ _ => Keeps.pure _)
      exact ⟨⟨inRange, othersInRange⟩, _, finds.bind (others.bind (.pure _))⟩

end

end Expr

namespace Analyzer

/-- The arguments of calls are not looked at. -/
theorem typeOf?_skeleton (analyzer : Analyzer) (expression : Expr) :
    analyzer.typeOf? expression.skeleton = analyzer.typeOf? expression := by
  induction expression using Expr.skeleton.induct with
  | case1 | case2 | case3 | case4 => rfl
  | case5 line operand ih | case6 line operand ih => rw [Expr.skeleton, typeOf?, typeOf?, ih]
  | case7 operator line left right leftSame rightSame =>
      rw [Expr.skeleton, typeOf?, typeOf?, leftSame, rightSame]

/-- Inference depends on the visible variables and the methods only. -/
theorem typeOf?_congr {analyzer other : Analyzer}
    (visible : ∀ name, other.lookup? name = analyzer.lookup? name)
    (methods : other.methods = analyzer.methods) (expression : Expr) :
    other.typeOf? expression = analyzer.typeOf? expression := by
  induction expression using Expr.skeleton.induct with
  | case1 | case2 => rfl
  | case3 token => exact visible token.value
  | case4 callee arguments => rw [typeOf?, typeOf?, method?, method?, methods]
  | case5 line operand ih | case6 line operand ih => rw [typeOf?, typeOf?, ih]
  | case7 operator line left right leftSame rightSame =>
      rw [typeOf?, typeOf?, leftSame, rightSame]

end Analyzer

end StackLang
