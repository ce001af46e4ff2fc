import StackLang.Proofs.Checking.Growth
import StackLang.Proofs.Machine.Effects

/-!
# Names that checking knows

Every name that a program reads or writes was declared, or else it was reported as
undeclared.  So a program whose variables are all there fails for its operands only, or
for a name that was reported.
-/

namespace StackLang

/-- The name was declared in some scope, or it was reported as undeclared. -/
def Analyzer.Knows (analyzer : Analyzer) (name : String) : Prop :=
  (∃ scope type, analyzer.symbols.type? scope name = some type) ∨
    ∃ line, .undeclared name line ∈ analyzer.errors

/-- A fault in the operands, or the use of a name that was reported. -/
inductive Analyzer.Excuses (analyzer : Analyzer) : Fault → Prop where
  | operands {fault : Fault} : fault.OfOperands → Excuses analyzer fault
  | undeclared {name : String} {line : Nat} : .undeclared name line ∈ analyzer.errors →
      Excuses analyzer (.undefinedVariable name)

/-- Every declared name is that of a variable. -/
def Analyzer.Provides (analyzer : Analyzer) (environment : Environment) : Prop :=
  ∀ scope name type, analyzer.symbols.type? scope name = some type →
    name ∈ environment.bindings.keys

/-- The declared variables are there, and only excused faults occur. -/
def Discipline.declared (final : Analyzer) : Discipline where
  holds := final.Provides
  tests _ := True
  allows := final.Excuses
  tests_flag _ := trivial

theorem Discipline.accepts_iff {discipline : Discipline} {good : Value → Prop}
    {result : Except Fault Value} :
    discipline.Accepts good result ↔ Answers discipline.allows good result := by
  cases result <;> rfl

theorem BinaryOperator.apply_answers (operator : BinaryOperator) (left right : Value) :
    Answers Fault.OfOperands (fun _ => True) (operator.apply left right) := by
  cases operator with
  | or | and | equal | notEqual => trivial
  | greater | less => exact MachineState.compare_answers _ _ _
  | greaterEqual | lessEqual => exact (MachineState.compare_answers _ _ _).bind fun _ _ => trivial
  | add | sub | mul | div => exact Value.arithmetic_answers _ _ _

namespace Analyzer

variable {before after final : Analyzer} {name : String} {environment : Environment}

theorem Grows.knows (grows : before.Grows after) (known : before.Knows name) :
    after.Knows name := by
  rcases known with ⟨scope, type, declared⟩ | ⟨line, reported⟩
  · exact .inl ⟨scope, type, grows.types _ _ _ declared⟩
  · exact .inr ⟨line, grows.errors _ reported⟩

theorem Knows.get? (known : final.Knows name) (provides : final.Provides environment) :
    name ∈ environment.bindings.keys ∨ final.Excuses (.undefinedVariable name) := by
  rcases known with ⟨scope, type, declared⟩ | ⟨line, reported⟩
  · exact .inl (provides _ _ _ declared)
  · exact .inr (.undeclared reported)

theorem Knows.get_answers (known : final.Knows name) (provides : final.Provides environment) :
    Answers final.Excuses (fun _ => True) (environment.get name) := by
  rw [Environment.get]
  cases found : environment.bindings.get? name with
  | some declared => trivial
  | none =>
      have absent := OrderedMap.get?_eq_none_iff.mp found
      exact (known.get? provides).resolve_left absent

theorem Knows.stores (known : final.Knows name) (provides : final.Provides environment)
    (value : Value) : (Discipline.declared final).Stores name environment value := by
  rw [Discipline.Stores, Environment.assign]
  cases found : environment.bindings.get? name with
  | some declared =>
      intro scope other type there
      have present := provides scope other type there
      show other ∈ (environment.bindings.insert name _).keys
      rw [OrderedMap.keys_insert, if_pos (OrderedMap.mem_keys_of_get? found)]
      exact present
  | none =>
      have absent := OrderedMap.get?_eq_none_iff.mp found
      exact (known.get? provides).resolve_left absent

end Analyzer

namespace Analysis

variable {final : Analyzer} {methods : MethodTable}

theorem ensures_useVariable (name : String) (line : Nat) :
    Ensures methods final (final.Knows name) (useVariable name line) := by
  intro analyzer _ grows
  have run : (useVariable name line).run analyzer = (analyzer.lookup? name,
      if (analyzer.lookup? name).isNone then
        ((report (.undeclared name line)).run analyzer).2 else analyzer) := by
    show ((do
      if (analyzer.lookup? name).isNone then report (.undeclared name line)
      return analyzer.lookup? name) : Analysis _).run analyzer = _
    cases analyzer.lookup? name <;> rfl
  rw [run] at grows
  apply grows.knows
  cases found : analyzer.lookup? name with
  | none => exact .inr ⟨line, Array.mem_push_self⟩
  | some type =>
      rw [Analyzer.lookup?, Option.map_eq_some_iff] at found
      obtain ⟨symbol, found, -⟩ := found
      rcases Option.or_eq_some_iff.mp found with inner | ⟨-, outer⟩
      · exact .inl ⟨_, _, congrArg (Option.map Symbol.type) inner⟩
      · exact .inl ⟨_, _, congrArg (Option.map Symbol.type) outer⟩

theorem ensures_declareVariable (type : TypeName) (name : String) (line : Nat) :
    Ensures methods final (final.Knows name) (declareVariable type name line) := by
  intro analyzer _ grows
  rw [declareVariable_run] at grows
  apply grows.knows
  cases added : analyzer.symbols.insert? (.fresh name type analyzer.scope) with
  | some symbols =>
      refine .inl ⟨analyzer.scope, type, ?_⟩
      show symbols.type? analyzer.scope name = some type
      rw [SymbolTable.type?_of_insert? added, if_pos ⟨rfl, rfl⟩]
      rfl
  | none =>
      have taken : analyzer.symbols.contains analyzer.scope name = true :=
        SymbolTable.insert?_eq_none_iff.mp added
      cases known : analyzer.symbols.type? analyzer.scope name with
      | some found => exact .inl ⟨analyzer.scope, found, known⟩
      | none =>
          rw [SymbolTable.type?_eq_none_iff.mp known] at taken
          contradiction

end Analysis

namespace Expr

open Analysis

variable {final : Analyzer} {methods : MethodTable}

/-- An expression with known names fails for its operands only, or for a reported name. -/
def Evaluates (final : Analyzer) (methods : MethodTable) (expression : Expr) : Prop :=
  ∀ environment, final.Provides environment →
    Answers final.Excuses (fun _ => True) (expression.eval methods environment)

theorem ensures_evaluates (expression : Expr) :
    Ensures methods final (expression.Evaluates final methods) expression.check := by
  have adds (base : Analyzer) := Analyzer.Grows.invariant base (TreeStandard.loose [])
  have keeps := keepsMethods_invariant (TreeStandard.loose [])
  have excuse : ∀ fault : Fault, fault.OfOperands → final.Excuses fault := fun _ => .operands
  cases expression with
  | missing => exact fun _ _ _ _ _ => .operands (.malformed "")
  | literal | call => exact fun _ _ _ _ _ => trivial
  | name token =>
      rw [Expr.check]
      exact (ensures_useVariable token.value token.line).imp fun known _ => known.get_answers
  | negate line operand =>
      have inside := operand.ensures_evaluates
      rw [Expr.check]
      refine (inside.first fun _ base => (adds base).combine _ _ _ _).imp ?_
      intro evaluates environment provides
      apply (evaluates environment provides).bind
      exact fun value _ => (Value.arithmetic_answers _ _ value).mono excuse fun _ => id
  | invert line operand =>
      have inside := operand.ensures_evaluates
      rw [Expr.check]
      refine (inside.first fun _ base => (adds base).combine _ _ _ _).imp ?_
      intro evaluates environment provides
      exact (evaluates environment provides).bind fun _ _ => trivial
  | binary operator line left right =>
      have first := left.ensures_evaluates
      have second := right.ensures_evaluates
      rw [Expr.check]
      refine (Ensures.both (first.first fun _ base => ((adds base).expression right).bind fun _ =>
        (adds base).combine _ _ _ _) (.later (fun methods => (keeps methods).expression left)
          fun _ => second.first fun _ base => (adds base).combine _ _ _ _)).imp ?_
      rintro ⟨leftEvaluates, rightEvaluates⟩ environment provides
      apply (leftEvaluates environment provides).bind
      intro leftValue _
      apply (rightEvaluates environment provides).bind
      intro rightValue _
      exact (operator.apply_answers leftValue rightValue).mono excuse fun _ => id

/-- What is good wherever the declared variables are there. -/
theorem Evaluates.respects {expression : Expr} {good : Environment → Value → Prop}
    (evaluates : expression.Evaluates final methods)
    (always : ∀ environment value, final.Provides environment → good environment value) :
    expression.Respects (.declared final) methods good := by
  intro environment provides
  rw [Discipline.accepts_iff]
  exact (evaluates environment provides).mono (fun _ => id)
    fun value _ => always environment value provides

theorem Evaluates.stores {expression : Expr} {name : String}
    (evaluates : expression.Evaluates final methods) (known : final.Knows name) :
    expression.Respects (.declared final) methods ((Discipline.declared final).Stores name) :=
  evaluates.respects fun _ value provides => known.stores provides value

end Expr

/-- The value that an assignment stores can be computed. -/
def AssignmentForm.Evaluates (final : Analyzer) (methods : MethodTable) : AssignmentForm → Prop
  | .store _ value => value.value.Evaluates final methods
  | _ => True

namespace Analysis

variable {final : Analyzer} {methods : MethodTable}

theorem ensures_foreseen (foreseen : Foreseen) :
    Ensures methods final (foreseen.value.Evaluates final methods) foreseen.check :=
  foreseen.value.ensures_evaluates.first fun _ _ => Keeps.pure _

theorem ensures_condition (condition : Foreseen) (context : String) :
    Ensures methods final (condition.value.Evaluates final methods)
      (condition.checkCondition context) := by
  refine .later (fun _ => ReportInvariant.foreseenType condition) fun type? => ?_
  cases type? with
  | none => exact ensures_foreseen condition
  | some found =>
      have keeps := keepsMethods_invariant (TreeStandard.loose [])
      exact .later (fun methods => (keeps methods).checkBoolean _ _ _) fun _ =>
        ensures_foreseen condition

theorem ensures_initializer (type : TypeName) (name : Token) (declared : Bool)
    (initializer : Initializer) :
    Ensures methods final (initializer.value.value.Evaluates final methods)
      (initializer.check type name declared) := by
  have keeps := keepsMethods_invariant (TreeStandard.loose [])
  have value : Ensures methods final (initializer.value.value.Evaluates final methods)
      (initializer.checkValue name declared) := by
    have check : Ensures methods final (initializer.value.value.Evaluates final methods)
        initializer.value.check := ensures_foreseen initializer.value
    rw [Initializer.checkValue]
    cases declared with
    | false => exact check
    | true =>
        cases initializer.constant with
        | none => exact check
        | some constant => exact .later (fun methods => (keeps methods).setValue _ _) fun _ => check
  refine .later (fun _ => ReportInvariant.foreseenType initializer.value) fun type? => ?_
  cases type? with
  | none => exact value
  | some found => exact .later (fun methods => (keeps methods).checkAssignment _ _ _) fun _ => value

theorem ensures_declaration (declaration : Declaration) :
    Ensures methods final (declaration.Respects (.declared final) methods) declaration.check := by
  obtain ⟨type, name, initializer⟩ := declaration
  cases initializer with
  | none => exact .trivial
  | some initializer =>
      rw [Declaration.check_some]
      refine (Ensures.both
        ((ensures_declareVariable type name.value name.line).first fun declared _ =>
          (Analyzer.Grows.invariant _ (TreeStandard.loose [])).initializer type name declared _)
        (.later (keepsMethods_declare type name.value name.line) fun declared =>
          ensures_initializer type name declared initializer)).imp ?_
      rintro ⟨known, evaluates⟩
      exact evaluates.stores known

theorem ensures_form (line : Nat) (target? : Option TypeName) (form : AssignmentForm) :
    Ensures methods final (form.Evaluates final methods) (form.check line target?) := by
  cases form with
  | unfinished | step => exact .trivial
  | store operator? value =>
      have keeps := keepsMethods_invariant (TreeStandard.loose [])
      have evaluates : Ensures methods final (value.value.Evaluates final methods) value.check :=
        ensures_foreseen value
      cases target? with
      | none => exact evaluates
      | some target =>
          refine .later (fun _ => ReportInvariant.foreseenType value) fun type? => ?_
          cases type? with
          | none => exact evaluates
          | some found => exact .later (fun methods => (keeps methods).store _ _ _ _) fun _ => evaluates

theorem ensures_assignment (assignment : Assignment) :
    Ensures methods final (assignment.Respects (.declared final) methods) assignment.check := by
  obtain ⟨target, form⟩ := assignment
  have keeps := keepsMethods_invariant (TreeStandard.loose [])
  rw [Assignment.check_form]
  refine (Ensures.both
    ((ensures_useVariable target.value target.line).first fun target? _ =>
      (Analyzer.Grows.invariant _ (TreeStandard.loose [])).form _ target? form)
    (.later (fun methods => (keeps methods).useVariable _ _) fun target? =>
      ensures_form _ target? form)).imp ?_
  rintro ⟨known, evaluates⟩
  have excuse : ∀ fault : Fault, fault.OfOperands → final.Excuses fault := fun _ => .operands
  cases form with
  | unfinished => trivial
  | step operator =>
      intro environment provides
      rw [Discipline.accepts_iff]
      apply (known.get_answers provides).bind
      intro old _
      exact (operator.apply_answers old (.int 1)).mono excuse fun value _ =>
        known.stores provides value
  | store operator? value =>
      have evaluates : value.value.Evaluates final methods := evaluates
      cases operator? with
      | none => exact evaluates.stores known
      | some operator =>
          intro environment provides
          rw [Discipline.accepts_iff]
          apply (known.get_answers provides).bind
          intro old _
          apply (evaluates environment provides).bind
          intro given _
          exact (operator.apply_answers old given).mono excuse fun value _ =>
            known.stores provides value

theorem ensures_selector (value : Foreseen) (line number : Nat) :
    Ensures methods final
      (value.value.Respects (.declared final) methods
        ((Discipline.declared final).Stores (selectorName number)))
      (value.checkSelector line number) := by
  have adds (base : Analyzer) := Analyzer.Grows.invariant base (TreeStandard.loose [])
  have keeps := keepsMethods_invariant (TreeStandard.loose [])
  refine .later (fun _ => ReportInvariant.foreseenType value) fun type? => ?_
  refine (Ensures.both
    ((ensures_foreseen value).first fun _ base =>
      ((adds base).select _ line number).bind fun _ => Keeps.pure _)
    (.later (fun methods => (keeps methods).foreseen value) fun _ =>
      (ensures_declareVariable _ (selectorName number) line).first fun _ _ => Keeps.pure _)).imp ?_
  rintro ⟨evaluates, known⟩
  exact evaluates.stores known

end Analysis

/-- Whatever the checks report, a program respects the discipline of declared names. -/
theorem Analyzer.checkDeclared (standard : TreeStandard) (final : Analyzer)
    (methods : MethodTable) : CheckDiscipline standard final (.declared final) False methods where
  computes expression _ :=
    expression.ensures_evaluates.imp fun evaluates => evaluates.respects fun _ _ _ => trivial
  tests condition context _ :=
    (Analysis.ensures_condition condition context).imp fun evaluates =>
      evaluates.respects fun _ _ _ => trivial
  declares declaration _ := Analysis.ensures_declaration declaration
  assigns assignment _ := Analysis.ensures_assignment assignment
  reads target _ :=
    (Analysis.ensures_useVariable target.value target.line).imp fun known _ line provides =>
      known.stores provides (.ofInput line)
  selects value line number _ := Analysis.ensures_selector value line number

end StackLang
