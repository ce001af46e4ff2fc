import StackLang.Proofs.Checking.Known
import StackLang.Proofs.Checking.Passing
import StackLang.Proofs.Typing.Literal

/-!
# Types of checked programs

If checking finds no error, every expression has values of its inferred type, every
variable keeps a value of its declared type, and every condition is a truth value.
-/

namespace StackLang

/-- The variables have the declared types, and values of these. -/
structure Analyzer.Types (analyzer : Analyzer) (environment : Environment) : Prop where
  declared : ∀ scope name type, analyzer.symbols.type? scope name = some type →
    ∃ value, environment.bindings.get? name = some ⟨type, value⟩
  typed : ∀ name entry, environment.bindings.get? name = some entry →
    entry.value.HasType entry.type

/-- The variables keep their types, conditions are truth values, and nothing fails but
divisions by zero. -/
def Discipline.typed (final : Analyzer) : Discipline where
  holds := final.Types
  tests value := value.StandsFor .boolean
  allows := Fault.OfDivision
  tests_flag := .flag

namespace Analyzer

variable {analyzer final : Analyzer} {environment : Environment} {scope name : String}
  {type target : TypeName}

theorem Types.of_grows (types : final.Types environment) (grows : analyzer.Grows final) :
    analyzer.Types environment :=
  ⟨fun scope name type declared => types.declared scope name type (grows.types _ _ _ declared),
    types.typed⟩

theorem lookup?_eq (analyzer : Analyzer) (name : String) :
    analyzer.lookup? name = (analyzer.symbols.type? analyzer.scope name).or
      (analyzer.symbols.type? globalScope name) :=
  Option.map_or

theorem type?_of_lookup? (found : analyzer.lookup? name = some type) :
    ∃ scope, analyzer.symbols.type? scope name = some type := by
  rw [lookup?_eq] at found
  rcases Option.or_eq_some_iff.mp found with inner | ⟨-, outer⟩
  · exact ⟨_, inner⟩
  · exact ⟨_, outer⟩

theorem Types.get (types : analyzer.Types environment)
    (declared : analyzer.symbols.type? scope name = some type) :
    ∃ value, environment.get name = .ok value ∧ value.HasType type := by
  obtain ⟨value, found⟩ := types.declared scope name type declared
  exact ⟨value, by rw [Environment.get, found], types.typed name _ found⟩

/-- A store of a value that fits keeps the types. -/
theorem Types.stores (types : final.Types environment)
    (declared : final.symbols.type? scope name = some target) {value : Value}
    (fits : (value.storedAs target).HasType target) :
    (Discipline.typed final).Stores name environment value := by
  obtain ⟨old, found⟩ := types.declared scope name target declared
  rw [Discipline.Stores, Environment.assign, found]
  have shown (other : String) :
      (environment.define name target (value.storedAs target)).bindings.get? other =
        if name = other then some ⟨target, value.storedAs target⟩
        else environment.bindings.get? other := OrderedMap.get?_insert _ _ _ _
  constructor
  · intro otherScope other type there
    obtain ⟨kept, known⟩ := types.declared otherScope other type there
    rw [shown]
    split
    · next same =>
        subst same
        rw [found] at known
        obtain ⟨rfl, -⟩ := Variable.mk.inj (Option.some.inj known)
        exact ⟨_, rfl⟩
    · exact ⟨kept, known⟩
  · intro other entry known
    rw [shown] at known
    split at known
    · exact Option.some.inj known ▸ fits
    · exact types.typed other entry known

end Analyzer

/-- A call has a value of its return type. -/
theorem MethodTable.callText_standsFor {methods : MethodTable} {name : String} {method : Signature}
    (declared : methods.get? name = some method) :
    (Value.ofLiteral (methods.callText name)).StandsFor method.returnType := by
  rw [callText, declared, Option.map_some]
  cases method.returnType with
  | int => exact .typed (.int 0)
  | float =>
      obtain ⟨number, value⟩ := Value.ofLiteral_floatText (.zero false)
      have text : (Numeral.Binary64.zero false).text = TypeName.float.defaultText := by decide
      rw [text] at value
      show (Value.ofLiteral TypeName.float.defaultText).StandsFor .float
      rw [value]
      exact .typed (.float number)
  | char => exact .typed (.char '\x00')
  | string => exact .typed (.string "")
  | boolean => exact .typed (.boolean false)
  | void => exact .typed (.void _)

namespace Expr

open Analysis

variable {source : List Token} {analyzer final : Analyzer} {methods : MethodTable}
  {type : TypeName}

/-- Where the variables have the declared types, the expression has a value of the type,
or it divides by zero. -/
def Typed (analyzer : Analyzer) (expression : Expr) (type : TypeName) : Prop :=
  ∀ environment, analyzer.Types environment →
    Answers Fault.OfDivision (fun value => value.StandsFor type)
      (expression.eval analyzer.methods environment)

/-- An expression has values of its inferred type. -/
theorem typed_of_typeOf? (recognised : ∀ token ∈ source, Lexeme.Recognised token)
    {type : TypeName} (expression : Expr) (meets : expression.Meets (.strict source))
    (inRange : expression.InRange) (inferred : analyzer.typeOf? expression = some type) :
    expression.Typed analyzer type := by
  intro environment types
  cases expression with
  | missing => exact meets.elim
  | literal token => exact .typed ((recognised token meets.2).literal_hasType inferred inRange)
  | name token =>
      obtain ⟨scope, declared⟩ := Analyzer.type?_of_lookup? inferred
      obtain ⟨value, found, hasType⟩ := types.get declared
      rw [eval, found]
      exact .typed hasType
  | call callee arguments =>
      obtain ⟨method, declared, rfl⟩ := Option.map_eq_some_iff.mp inferred
      exact MethodTable.callText_standsFor declared
  | negate line operand =>
      obtain ⟨inner, known, admitted⟩ := Option.bind_eq_some_iff.mp inferred
      apply (typed_of_typeOf? recognised operand meets inRange known environment types).bind
      intro value stands
      exact BinaryOperator.apply_standsFor .sub (.typed (.int 0)) stands admitted
  | invert line operand =>
      obtain ⟨inner, known, admitted⟩ := Option.bind_eq_some_iff.mp inferred
      apply (typed_of_typeOf? recognised operand meets inRange known environment types).bind
      intro value stands
      rw [Operator.result?] at admitted
      split at admitted
      · obtain rfl := Option.some.inj admitted
        exact .flag _
      · contradiction
  | binary operator line left right =>
      obtain ⟨leftType, leftKnown, rest⟩ := Option.bind_eq_some_iff.mp inferred
      obtain ⟨rightType, rightKnown, admitted⟩ := Option.bind_eq_some_iff.mp rest
      apply (typed_of_typeOf? recognised left meets.1 inRange.1 leftKnown environment types).bind
      intro leftValue leftStands
      apply (typed_of_typeOf? recognised right meets.2 inRange.2 rightKnown environment types).bind
      intro rightValue rightStands
      exact operator.apply_standsFor leftStands rightStands admitted

theorem Typed.respects {expression : Expr} {good : Environment → Value → Prop}
    (typed : expression.Typed analyzer type) (grows : analyzer.Grows final)
    (declared : analyzer.methods = methods)
    (always : ∀ environment value, final.Types environment → value.StandsFor type →
      good environment value) :
    expression.Respects (.typed final) methods good := by
  intro environment types
  rw [Discipline.accepts_iff, ← declared]
  exact (typed environment (types.of_grows grows)).mono (fun _ => id)
    fun value stands => always environment value types stands

end Expr

/-- A check of a foreseen expression that passes finds what the preview shows. -/
theorem Foreseen.check_finds {source : List Token} {analyzer : Analyzer} {foreseen : Foreseen}
    (recognised : ∀ token ∈ source, Lexeme.Recognised token)
    (meets : foreseen.Meets (.strict source)) (passes : Analysis.Passes foreseen.check analyzer) :
    ∃ type, foreseen.preview.bind analyzer.typeOf? = some type ∧
      Analysis.Finds foreseen.check analyzer () ∧ foreseen.value.Typed analyzer type := by
  obtain ⟨inRange, type, inferred, finds⟩ := foreseen.value.check_finds meets.2
    (passes.first fun _ _ => Analysis.Keeps.pure _)
  have shown : foreseen.preview = some foreseen.value.skeleton := meets.1
  refine ⟨type, ?_, finds.bind (.pure ()), ?_⟩
  · rw [shown]
    exact (analyzer.typeOf?_skeleton foreseen.value).trans inferred
  · exact Expr.typed_of_typeOf? recognised foreseen.value meets.2 inRange inferred

namespace Analysis

variable {source : List Token} {analyzer final : Analyzer} {methods : MethodTable}

theorem declareVariable_passes {type : TypeName} {name : String} {line : Nat}
    (passes : Passes (declareVariable type name line) analyzer) :
    ∃ after, (declareVariable type name line).run analyzer = (true, after) ∧
      after.symbols.type? analyzer.scope name = some type ∧ after.methods = analyzer.methods := by
  rw [Passes, declareVariable_run] at passes
  rw [declareVariable_run]
  cases added : analyzer.symbols.insert? (.fresh name type analyzer.scope) with
  | none =>
      rw [added] at passes
      exact absurd passes not_passes_report
  | some symbols =>
      refine ⟨_, rfl, ?_, rfl⟩
      rw [SymbolTable.type?_of_insert? added, if_pos ⟨rfl, rfl⟩]
      rfl

/-- Recording a value makes no difference for types. -/
theorem setValue_lookup? (name value other : String) :
    ((setValue name value).run analyzer).2.lookup? other = analyzer.lookup? other := by
  have types (scope other : String) :
      ((setValue name value).run analyzer).2.symbols.type? scope other =
        analyzer.symbols.type? scope other := by
    show ((analyzer.symbols.setValue? analyzer.scope name value).getD analyzer.symbols).type? _ _ = _
    cases replaced : analyzer.symbols.setValue? analyzer.scope name value with
    | none => rfl
    | some symbols => exact SymbolTable.type?_of_setValue? replaced scope other
  rw [Analyzer.lookup?_eq, Analyzer.lookup?_eq, types, types]
  rfl

/-- The type of what an assignment stores: that of its value, or of an operation. -/
def storedType? (operator? : Option BinaryOperator) (target found : TypeName) : Option TypeName :=
  match operator? with
  | none => some found
  | some operator => operator.checkedAs.result? target found

theorem checkStore_finds {operator? : Option BinaryOperator} {target found : TypeName} {line : Nat}
    (passes : Passes (checkStore operator? target found line) analyzer) :
    (∃ stored result, storedType? operator? target found = some stored ∧
      Operator.assign.result? target stored = some result) ∧
      Finds (checkStore operator? target found line) analyzer () := by
  have adds (base : Analyzer) := Analyzer.Grows.invariant base (.loose [])
  cases operator? with
  | none =>
      obtain ⟨result, admitted, finds⟩ :=
        checkAssignment_finds (passes.first fun _ _ => Keeps.pure _)
      exact ⟨⟨found, result, rfl, admitted⟩, finds.bind (.pure ())⟩
  | some operator =>
      have operation : Passes (checkOperation target found operator.checkedAs line) analyzer := by
        apply passes.first
        intro result? base
        cases result? with
        | none => exact Keeps.pure _
        | some result => exact ((adds base).checkAssignment _ _ _).bind fun _ => Keeps.pure _
      obtain ⟨stored, combined, first⟩ := checkOperation_finds operation
      obtain ⟨result, admitted, second⟩ :=
        checkAssignment_finds ((passes.behind first).first fun _ _ => Keeps.pure _)
      exact ⟨⟨stored, result, combined, admitted⟩, first.bind (second.bind (.pure ()))⟩

section

variable (recognised : ∀ token ∈ source, Lexeme.Recognised token) (clean : final.errors = #[])

include recognised clean

theorem ensures_computes (expression : Expr) (meets : expression.Meets (.strict source)) :
    Ensures methods final (expression.Computes (.typed final) methods) expression.check := by
  intro analyzer declared grows
  obtain ⟨inRange, type, inferred, finds⟩ :=
    expression.check_finds meets (passes_of_grows grows clean)
  rw [finds] at grows
  exact (Expr.typed_of_typeOf? recognised expression meets inRange inferred).respects grows declared
    fun _ _ _ _ => trivial

theorem ensures_tests (condition : Foreseen) (context : String)
    (meets : condition.Meets (.strict source)) :
    Ensures methods final (condition.Tests (.typed final) methods)
      (condition.checkCondition context) := by
  intro analyzer declared grows
  have adds (base : Analyzer) := Analyzer.Grows.invariant base (.loose [])
  have shown : Finds condition.type? analyzer (condition.preview.bind analyzer.typeOf?) := rfl
  have passes := (passes_of_grows grows clean).behind shown
  cases known : condition.preview.bind analyzer.typeOf? with
  | none =>
      rw [known] at passes
      obtain ⟨type, inferred, -⟩ := Foreseen.check_finds recognised meets passes
      rw [known] at inferred
      contradiction
  | some found =>
      rw [known] at passes shown
      obtain ⟨rfl, boolean⟩ := checkBoolean_finds (passes.first fun _ base => (adds base).foreseen _)
      obtain ⟨type, inferred, finds, typed⟩ :=
        Foreseen.check_finds recognised meets (passes.behind boolean)
      rw [known] at inferred
      obtain rfl := Option.some.inj inferred
      have unchanged : Finds (condition.checkCondition context) analyzer () :=
        shown.bind (boolean.bind finds)
      rw [unchanged] at grows
      exact typed.respects grows declared fun _ _ _ stands => stands

omit clean in
/-- Recording a constant makes no difference for the type of an initial value. -/
theorem checkValue_finds {name : Token} {initializer : Initializer}
    (meets : initializer.value.Meets (.strict source))
    (passes : Passes (initializer.checkValue name true) analyzer) :
    ∃ found, initializer.value.preview.bind analyzer.typeOf? = some found ∧
      initializer.value.value.Typed ((initializer.checkValue name true).run analyzer).2 found ∧
      ((initializer.checkValue name true).run analyzer).2.methods = analyzer.methods := by
  have recorded : ∃ after, (∀ other, after.lookup? other = analyzer.lookup? other) ∧
      after.methods = analyzer.methods ∧
      (initializer.checkValue name true).run analyzer = initializer.value.check.run after := by
    rw [Initializer.checkValue]
    cases initializer.constant with
    | none => exact ⟨analyzer, fun _ => rfl, rfl, rfl⟩
    | some constant =>
        exact ⟨_, setValue_lookup? name.value constant.literalText, rfl, rfl⟩
  obtain ⟨after, visible, declared, run⟩ := recorded
  rw [Passes, run] at passes
  obtain ⟨found, inferred, finds, typed⟩ := Foreseen.check_finds recognised meets passes
  rw [run, finds]
  refine ⟨found, ?_, typed, declared⟩
  rw [← inferred]
  exact congrArg _ (funext fun expression =>
    (Analyzer.typeOf?_congr visible declared expression).symm)

omit clean in
/-- An initial value fits its variable. -/
theorem initializer_typed {type : TypeName} {name : Token} {initializer : Initializer}
    (meets : initializer.value.Meets (.strict source))
    (passes : Passes (initializer.check type name true) analyzer) :
    ∃ found result, Operator.assign.result? type found = some result ∧
      initializer.value.value.Typed ((initializer.check type name true).run analyzer).2 found ∧
      ((initializer.check type name true).run analyzer).2.methods = analyzer.methods := by
  have adds (base : Analyzer) := Analyzer.Grows.invariant base (.loose [])
  have shown : Finds initializer.value.type? analyzer
      (initializer.value.preview.bind analyzer.typeOf?) := rfl
  have rest := passes.behind shown
  cases known : initializer.value.preview.bind analyzer.typeOf? with
  | none =>
      rw [known] at rest
      obtain ⟨found, inferred, -⟩ := checkValue_finds recognised meets rest
      rw [known] at inferred
      contradiction
  | some found =>
      rw [known] at rest
      obtain ⟨result, admitted, fits⟩ := checkAssignment_finds
        (rest.first fun _ base => (adds base).initializerValue name true initializer)
      have rest := rest.behind fits
      obtain ⟨inferred, same, typed, declared⟩ := checkValue_finds recognised meets rest
      rw [known] at same
      obtain rfl := Option.some.inj same
      have run : (initializer.check type name true).run analyzer =
          (initializer.checkValue name true).run analyzer := by
        rw [Initializer.check, StateT.run_bind, shown, known]
        show (checkAssignment type found name.line >>= fun _ =>
          initializer.checkValue name true).run analyzer = _
        rw [StateT.run_bind, fits]
        rfl
      rw [run]
      exact ⟨found, result, admitted, typed, declared⟩

theorem ensures_declares (declaration : Declaration) (meets : declaration.Meets (.strict source)) :
    Ensures methods final (declaration.Respects (.typed final) methods) declaration.check := by
  obtain ⟨type, name, initializer⟩ := declaration
  cases initializer with
  | none => exact .trivial
  | some initializer =>
      intro analyzer known grows
      have adds (base : Analyzer) := Analyzer.Grows.invariant base (.loose [])
      have passes := passes_of_grows grows clean
      rw [Declaration.check_some] at passes grows
      obtain ⟨after, run, declared, same⟩ := declareVariable_passes
        (passes.first fun declared base => (adds base).initializer type name declared initializer)
      rw [Passes, StateT.run_bind, run] at passes
      rw [StateT.run_bind, run] at grows
      obtain ⟨found, result, admitted, typed, methods⟩ :=
        initializer_typed recognised meets.2 passes
      have kept := (adds after).initializer type name true initializer after (.refl after)
      have target := grows.types _ _ _ (kept.types _ _ _ declared)
      exact typed.respects grows (methods.trans (same.trans known)) fun environment value types stands =>
        types.stores target (stands.assigned admitted)

omit clean in
/-- The value of an assignment can be stored into its target. -/
theorem store_typed {operator? : Option BinaryOperator} {value : Foreseen} {target : TypeName}
    {line : Nat} (meets : value.Meets (.strict source))
    (passes : Passes ((AssignmentForm.store operator? value).check line (some target)) analyzer) :
    (∃ found stored result, value.value.Typed analyzer found ∧
      storedType? operator? target found = some stored ∧
      Operator.assign.result? target stored = some result) ∧
      Finds ((AssignmentForm.store operator? value).check line (some target)) analyzer () := by
  have adds (base : Analyzer) := Analyzer.Grows.invariant base (.loose [])
  have shown : Finds value.type? analyzer (value.preview.bind analyzer.typeOf?) := rfl
  have rest := passes.behind shown
  cases known : value.preview.bind analyzer.typeOf? with
  | none =>
      rw [known] at rest
      obtain ⟨found, inferred, -⟩ := Foreseen.check_finds recognised meets rest
      rw [known] at inferred
      contradiction
  | some found =>
      rw [known] at rest shown
      obtain ⟨⟨stored, result, combined, admitted⟩, fits⟩ :=
        checkStore_finds (rest.first fun _ base => (adds base).foreseen value)
      obtain ⟨inferred, same, finds, typed⟩ :=
        Foreseen.check_finds recognised meets (rest.behind fits)
      rw [known] at same
      obtain rfl := Option.some.inj same
      exact ⟨⟨found, stored, result, typed, combined, admitted⟩, shown.bind (fits.bind finds)⟩

theorem ensures_assigns (assignment : Assignment) (meets : assignment.Meets (.strict source)) :
    Ensures methods final (assignment.Respects (.typed final) methods) assignment.check := by
  obtain ⟨target, form⟩ := assignment
  intro analyzer declared grows
  have adds (base : Analyzer) := Analyzer.Grows.invariant base (.loose [])
  have front : analyzer.Grows final :=
    ((adds analyzer).assignment _ analyzer (.refl analyzer)).trans grows
  rw [Assignment.check_form] at grows
  have passes := passes_of_grows grows clean
  obtain ⟨type, visible, uses⟩ :=
    useVariable_finds (passes.first fun target? base => (adds base).form _ target? form)
  obtain ⟨scope, known⟩ := Analyzer.type?_of_lookup? visible
  have rest := passes.behind uses
  have held := front.types _ _ _ known
  cases form with
  | unfinished => trivial
  | step operator =>
      obtain ⟨result, admitted, -⟩ := checkOperation_finds (rest.first fun _ _ => Keeps.pure _)
      intro environment types
      rw [Discipline.accepts_iff]
      obtain ⟨old, found, hasType⟩ := types.get held
      show Answers _ _ (environment.get target.value >>= fun old => operator.apply old (.int 1))
      rw [found]
      refine (operator.apply_standsFor (.typed hasType) (.typed (.int 1)) admitted).mono
        (fun _ => id) fun value stands => ?_
      rw [BinaryOperator.result?_step meets.2 admitted] at stands
      exact types.stores held stands.storedAs
  | store operator? value =>
      obtain ⟨⟨found, stored, result, typed, combined, admitted⟩, -⟩ :=
        store_typed recognised meets.2 rest
      cases operator? with
      | none =>
          obtain rfl := Option.some.inj combined
          exact typed.respects front declared fun environment value types stands =>
            types.stores held (stands.assigned admitted)
      | some operator =>
          intro environment types
          rw [Discipline.accepts_iff]
          obtain ⟨old, read, hasType⟩ := types.get held
          show Answers _ _ (do
            let old ← environment.get target.value
            let given ← value.value.eval methods environment
            operator.apply old given)
          rw [read, ← declared]
          apply (typed environment (types.of_grows front)).bind
          intro given givenStands
          exact (operator.apply_standsFor (.typed hasType) givenStands combined).mono
            (fun _ => id) fun value stands => types.stores held (stands.assigned admitted)

theorem ensures_selects (value : Foreseen) (line number : Nat)
    (meets : value.Meets (.strict source)) :
    Ensures methods final
      (value.value.Respects (.typed final) methods
        ((Discipline.typed final).Stores (selectorName number)))
      (value.checkSelector line number) := by
  intro analyzer declared grows
  have adds (base : Analyzer) := Analyzer.Grows.invariant base (.loose [])
  have shown : Finds value.type? analyzer (value.preview.bind analyzer.typeOf?) := rfl
  have rest := (passes_of_grows grows clean).behind shown
  obtain ⟨type, inferred, finds, typed⟩ := Foreseen.check_finds recognised meets
    (rest.first fun _ base => ((adds base).select _ line number).bind fun _ =>
      Keeps.pure _)
  rw [inferred] at shown rest
  obtain ⟨after, run, known, same⟩ :=
    declareVariable_passes ((rest.behind finds).first fun _ _ => Keeps.pure _)
  have whole : (value.checkSelector line number).run analyzer = (some type, after) := by
    rw [Foreseen.checkSelector, StateT.run_bind, shown]
    show (value.check >>= fun _ => declareVariable type (selectorName number) line >>= fun _ =>
      Pure.pure (some type)).run analyzer = _
    rw [StateT.run_bind, finds]
    show (declareVariable type (selectorName number) line >>= fun _ =>
      Pure.pure (some type)).run analyzer = _
    rw [StateT.run_bind]
    rw [Option.getD_some] at run
    rw [run]
    rfl
  have front : analyzer.Grows final :=
    ((adds analyzer).selector value line number analyzer (.refl analyzer)).trans grows
  rw [whole] at grows
  have target := grows.types _ _ _ known
  exact typed.respects front declared fun environment value types stands =>
    types.stores target stands.storedAs

end

end Analysis

/-- If the checks report nothing, a program that reads nothing respects the discipline of
declared types. -/
theorem Analyzer.checkTyped {source : List Token} {final : Analyzer}
    (recognised : ∀ token ∈ source, Lexeme.Recognised token) (clean : final.errors = #[])
    (methods : MethodTable) :
    CheckDiscipline (.strict source) final (.typed final) True methods where
  computes expression meets := Analysis.ensures_computes recognised clean expression meets
  tests condition context meets := Analysis.ensures_tests recognised clean condition context meets
  declares declaration meets := Analysis.ensures_declares recognised clean declaration meets
  assigns assignment meets := Analysis.ensures_assigns recognised clean assignment meets
  reads _ loud := absurd trivial loud
  selects value line number meets :=
    Analysis.ensures_selects recognised clean value line number meets

end StackLang
