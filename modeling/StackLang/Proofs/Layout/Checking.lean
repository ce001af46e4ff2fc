import StackLang.Proofs.Checking.Invariant
import StackLang.Proofs.Layout.Lowering

/-!
# Checking without lines

`Analysis.Agrees` compares two checks that start from analyzers which know the same:
they answer the same, they know the same afterwards, and the errors they report differ
in their lines alone.  So a check never looks at the errors found before, and the check
of a tree agrees with the check of the tree without lines.  How much of the symbol tables
has to be the same is left to a `SymbolView`.
-/

namespace StackLang

/-- What is looked at of symbol tables: the types of the symbols show, and tables that look
the same still do so after a declaration and after a value was recorded. -/
structure SymbolView where
  Shown : Type
  shown : SymbolTable → Shown
  type? : ∀ {one other : SymbolTable}, shown one = shown other → ∀ scope name : String,
    (one.get? scope name).map Symbol.type = (other.get? scope name).map Symbol.type
  insert? : ∀ {one other : SymbolTable}, shown one = shown other → ∀ symbol : Symbol,
    (one.insert? symbol).map shown = (other.insert? symbol).map shown
  setValue? : ∀ {one other : SymbolTable}, shown one = shown other →
    ∀ scope name value : String, shown ((one.setValue? scope name value).getD one) =
      shown ((other.setValue? scope name value).getD other)

/-- All of a symbol table. -/
def SymbolView.whole : SymbolView where
  Shown := SymbolTable
  shown := id
  type? := fun same _ _ => congrArg _ (congrArg (SymbolTable.get? · _ _) same)
  insert? := fun same _ => congrArg _ (congrArg (SymbolTable.insert? · _) same)
  setValue? := fun same scope name value =>
    congrArg (fun table : SymbolTable => (table.setValue? scope name value).getD table) same

/-- The analyzers know the same, as far as the view tells, whatever errors they found. -/
structure Analyzer.Alike (view : SymbolView) (one other : Analyzer) : Prop where
  scopes : one.scopes = other.scopes
  symbols : view.shown one.symbols = view.shown other.symbols
  methods : one.methods = other.methods

namespace Analyzer.Alike

variable {view : SymbolView} {one other : Analyzer}

theorem refl (analyzer : Analyzer) : analyzer.Alike view analyzer := ⟨rfl, rfl, rfl⟩

theorem scope (alike : one.Alike view other) : one.scope = other.scope := by
  rw [Analyzer.scope, Analyzer.scope, alike.scopes]

theorem lookup? (alike : one.Alike view other) (name : String) :
    one.lookup? name = other.lookup? name := by
  rw [Analyzer.lookup?, Analyzer.lookup?, alike.scope, Option.map_or, Option.map_or,
    view.type? alike.symbols, view.type? alike.symbols]

theorem method? (alike : one.Alike view other) (name : String) :
    one.method? name = other.method? name := by
  rw [Analyzer.method?, Analyzer.method?, alike.methods]

end Analyzer.Alike

namespace Analysis

variable {view : SymbolView} {α β : Type}

/-- The runs end alike, having reported errors that differ in their lines alone. -/
structure EndsAlike (view : SymbolView) (before counterpart : Analyzer) (one other : α × Analyzer) :
    Prop where
  answer : one.1 = other.1
  knowledge : one.2.Alike view other.2
  reports : ∃ found others : Array SemanticError,
    one.2.errors = before.errors ++ found ∧ other.2.errors = counterpart.errors ++ others ∧
      found.map SemanticError.unlined = others.map SemanticError.unlined

/-- From analyzers that know the same both checks end alike. -/
def Agrees (view : SymbolView) (one other : Analysis α) : Prop :=
  ∀ before counterpart : Analyzer, before.Alike view counterpart →
    EndsAlike view before counterpart (one.run before) (other.run counterpart)

theorem EndsAlike.quiet {before counterpart one other : Analyzer} {answer : α}
    (knowledge : one.Alike view other) (same : one.errors = before.errors)
    (still : other.errors = counterpart.errors) :
    EndsAlike view before counterpart (answer, one) (answer, other) :=
  ⟨rfl, knowledge, #[], #[], by simp [same], by simp [still], rfl⟩

/-- What two runs report behind others is added to what those have reported. -/
theorem EndsAlike.followed {before counterpart : Analyzer} {one other : α × Analyzer}
    {last final : β × Analyzer} (first : EndsAlike view before counterpart one other)
    (later : EndsAlike view one.2 other.2 last final) : EndsAlike view before counterpart last final := by
  obtain ⟨found, others, grown, widened, same⟩ := first.reports
  obtain ⟨more, further, more_grown, more_widened, more_same⟩ := later.reports
  refine ⟨later.answer, later.knowledge, found ++ more, others ++ further, ?_, ?_, ?_⟩
  · rw [more_grown, grown, Array.append_assoc]
  · rw [more_widened, widened, Array.append_assoc]
  · rw [Array.map_append, Array.map_append, same, more_same]

namespace Agrees

variable {one other : Analysis α}

theorem pure (result : α) : Agrees view (Pure.pure result) (Pure.pure result) :=
  fun _ _ alike => .quiet alike rfl rfl

theorem bind {next following : α → Analysis β} (first : Agrees view one other)
    (second : ∀ result, Agrees view (next result) (following result)) :
    Agrees view (one >>= next) (other >>= following) := by
  intro before counterpart alike
  have ended := first before counterpart alike
  show EndsAlike view before counterpart ((next (one.run before).1).run (one.run before).2)
    ((following (other.run counterpart).1).run (other.run counterpart).2)
  rw [← ended.answer]
  exact ended.followed (second _ _ _ ended.knowledge)

/-- A look at what the analyzers know. -/
theorem get {next following : Analyzer → Analysis β}
    (rest : ∀ known counterpart, known.Alike view counterpart →
      Agrees view (next known) (following counterpart)) :
    Agrees view (do next (← MonadState.get)) (do following (← MonadState.get)) :=
  fun before counterpart alike => rest before counterpart alike before counterpart alike

theorem ite {condition : Prop} [Decidable condition] {two second : Analysis α}
    (holds : Agrees view one other) (fails : Agrees view two second) :
    Agrees view (if condition then one else two) (if condition then other else second) := by
  split
  · exact holds
  · exact fails

theorem discard (given : Agrees view one other) : Agrees view (do let _ ← one) (do let _ ← other) :=
  given.bind fun _ => .pure ()

end Agrees

/-! ## Single checks -/

theorem report_agrees {error counterpart : SemanticError}
    (alike : error.unlined = counterpart.unlined) :
    Agrees view (report error) (report counterpart) := by
  refine fun before _ same => ⟨rfl, ⟨same.scopes, same.symbols, same.methods⟩, ?_⟩
  refine ⟨#[error], #[counterpart], Array.push_eq_append, Array.push_eq_append, ?_⟩
  simp [alike]

/-- The error is reported in front of the answer if something is wrong. -/
theorem reportIf_agrees {condition : Prop} [Decidable condition] {error counterpart : SemanticError}
    (result : α) (alike : error.unlined = counterpart.unlined) :
    Agrees view (if condition then do report error; Pure.pure result else Pure.pure result)
      (if condition then do report counterpart; Pure.pure result else Pure.pure result) :=
  .ite ((report_agrees alike).bind fun _ => .pure result) (.pure result)

theorem declareVariable_agrees (type : TypeName) (name : String) (line other : Nat) :
    Agrees view (declareVariable type name line) (declareVariable type name other) := by
  intro before counterpart alike
  have shown := view.insert? alike.symbols (.fresh name type counterpart.scope)
  rw [declareVariable_run, declareVariable_run, alike.scope]
  generalize before.symbols.insert? _ = found? at shown ⊢
  generalize counterpart.symbols.insert? _ = other? at shown ⊢
  match found?, other?, shown with
  | some symbols, some others, shown =>
      exact .quiet ⟨alike.scopes, Option.some.inj shown, alike.methods⟩ rfl rfl
  | none, none, _ =>
      have reported : Agrees view (report (.alreadyDeclared name counterpart.scope line))
          (report (.alreadyDeclared name counterpart.scope other)) := report_agrees rfl
      obtain ⟨_, knowledge, reports⟩ := reported _ _ alike
      exact ⟨rfl, knowledge, reports⟩

theorem useVariable_agrees (name : String) (line other : Nat) :
    Agrees view (useVariable name line) (useVariable name other) := by
  refine .get fun known counterpart alike => ?_
  rw [alike.lookup?]
  exact reportIf_agrees _ rfl

theorem checkOperation_agrees (left right : TypeName) (operator : Operator) (line other : Nat) :
    Agrees view (checkOperation left right operator line) (checkOperation left right operator other) :=
  reportIf_agrees _ rfl

theorem combine_agrees (operator : Operator) (line other : Nat) (left? right? : Option TypeName) :
    Agrees view (combine operator line left? right?) (combine operator other left? right?) := by
  unfold combine
  split
  · exact checkOperation_agrees _ _ _ _ _
  · exact .pure _

theorem checkAssignment_agrees (target value : TypeName) (line other : Nat) :
    Agrees view (checkAssignment target value line) (checkAssignment target value other) :=
  (checkOperation_agrees _ _ _ _ _).bind fun _ => .pure _

theorem checkBoolean_agrees (found : TypeName) (context : String) (line other : Nat) :
    Agrees view (checkBoolean found context line) (checkBoolean found context other) :=
  .ite (.pure _) (.bind (report_agrees rfl) fun _ => .pure _)

theorem declareMethod_agrees (signature : Signature) (line other : Nat) :
    Agrees view (declareMethod signature line) (declareMethod signature other) := by
  intro before counterpart alike
  rw [declareMethod_run, declareMethod_run, alike.methods]
  cases counterpart.methods.insert? signature with
  | some methods => exact .quiet ⟨alike.scopes, alike.symbols, rfl⟩ rfl rfl
  | none =>
      have reported : Agrees view (report (.methodAlreadyDeclared signature.name line))
          (report (.methodAlreadyDeclared signature.name other)) := report_agrees rfl
      obtain ⟨_, knowledge, reports⟩ := reported _ _ alike
      exact ⟨rfl, knowledge, reports⟩

theorem checkArguments_agrees (name : String) (line other index : Nat)
    (parameters : List (TypeName × String)) (arguments : List (Option TypeName)) :
    Agrees view (checkArguments name line index parameters arguments)
      (checkArguments name other index parameters arguments) := by
  induction parameters generalizing index arguments with
  | nil => exact .pure _
  | cons parameter parameters ih =>
      cases arguments with
      | nil => exact .pure _
      | cons found? arguments =>
          cases found? with
          | none => exact ih _ _
          | some found =>
              unfold checkArguments
              exact .ite (.bind (report_agrees rfl) fun _ => ih _ _) (ih _ _)

theorem checkCall_agrees (name : String) (arguments : List (Option TypeName)) (line other : Nat) :
    Agrees view (checkCall name arguments line) (checkCall name arguments other) := by
  refine .get fun known counterpart alike => ?_
  rw [alike.method?]
  cases counterpart.method? name with
  | none => exact .bind (report_agrees rfl) fun _ => .pure _
  | some signature =>
      refine .ite ?_ ?_
      · exact .bind (report_agrees rfl) fun _ => .pure _
      · exact (checkArguments_agrees _ _ _ _ _ _).bind fun _ => .pure _

theorem checkReturnValue_agrees (expected : TypeName) (found? : Option TypeName)
    (line other : Nat) :
    Agrees view (checkReturnValue expected found? line) (checkReturnValue expected found? other) := by
  refine .ite (report_agrees rfl) ?_
  cases found? with
  | none => exact .pure _
  | some found => exact reportIf_agrees _ rfl

theorem checkEmptyReturn_agrees (expected : TypeName) (line other : Nat) :
    Agrees view (checkEmptyReturn expected line) (checkEmptyReturn expected other) :=
  reportIf_agrees _ rfl

theorem setValue_agrees (name value : String) :
    Agrees view (setValue name value) (setValue name value) := by
  intro before counterpart alike
  refine .quiet ⟨alike.scopes, ?_, alike.methods⟩ rfl rfl
  show view.shown ((before.symbols.setValue? before.scope name value).getD before.symbols) = _
  rw [alike.scope]
  exact view.setValue? alike.symbols _ _ _

theorem checkStore_agrees (operator? : Option BinaryOperator) (target found : TypeName)
    (line other : Nat) :
    Agrees view (checkStore operator? target found line) (checkStore operator? target found other) := by
  cases operator? with
  | none => exact (checkAssignment_agrees _ _ _ _).discard
  | some operator =>
      refine (checkOperation_agrees _ _ _ _ _).bind fun result? => ?_
      cases result? with
      | none => exact .pure _
      | some result => exact (checkAssignment_agrees _ _ _ _).discard

theorem enter_agrees (scope : String) : Agrees view (enter scope) (enter scope) :=
  fun _ _ alike => .quiet ⟨congrArg (scope :: ·) alike.scopes, alike.symbols, alike.methods⟩ rfl rfl

theorem exit_agrees : Agrees view exit exit :=
  fun _ _ alike => .quiet ⟨congrArg List.tail alike.scopes, alike.symbols, alike.methods⟩ rfl rfl

/-- A part that may be missing is checked as its counterpart is. -/
theorem optionally_agrees {check counterpart : α → Analysis Unit} {erase : α → α}
    (alike : ∀ part, Agrees view (check part) (counterpart (erase part))) (part? : Option α) :
    Agrees view (optionally check part?) (optionally counterpart (part?.map erase)) := by
  cases part? with
  | none => exact .pure _
  | some part => exact alike part

end Analysis

open Analysis

variable {view : SymbolView}

/-! ## Expressions -/

theorem Analyzer.Alike.typeOf?_unlined {one other : Analyzer} (alike : one.Alike view other)
    (expression : Expr) : one.typeOf? expression = other.typeOf? expression.unlined := by
  induction expression using Analyzer.typeOf?.induct with
  | case1 => rw [Expr.unlined, typeOf?, typeOf?]
  | case2 token => rw [Expr.unlined, typeOf?, typeOf?]; rfl
  | case3 token => rw [Expr.unlined, typeOf?, typeOf?]; exact alike.lookup? _
  | case4 callee arguments =>
      rw [Expr.unlined, typeOf?, typeOf?]
      exact congrArg _ (alike.method? _)
  | case5 line operand ih => rw [Expr.unlined, typeOf?, typeOf?, ih]
  | case6 line operand ih => rw [Expr.unlined, typeOf?, typeOf?, ih]
  | case7 operator line left right first second =>
      rw [Expr.unlined, typeOf?, typeOf?, first, second]

mutual

theorem Expr.check_unlined (expression : Expr) :
    Agrees view expression.check expression.unlined.check := by
  cases expression with
  | missing =>
      rw [Expr.unlined, Expr.check]
      exact .pure _
  | literal token =>
      rw [Expr.unlined, Expr.check, Expr.check]
      exact reportIf_agrees _ rfl
  | name token =>
      rw [Expr.unlined, Expr.check, Expr.check]
      exact useVariable_agrees _ _ _
  | call callee arguments =>
      rw [Expr.unlined, Expr.check, Expr.check]
      exact (Expr.checkAll_unlined arguments).bind fun _ => checkCall_agrees _ _ _ _
  | negate line operand | invert line operand =>
      rw [Expr.unlined, Expr.check, Expr.check]
      exact operand.check_unlined.bind fun _ => combine_agrees _ _ _ _ _
  | binary operator line left right =>
      rw [Expr.unlined, Expr.check, Expr.check]
      exact left.check_unlined.bind fun _ => right.check_unlined.bind fun _ =>
        combine_agrees _ _ _ _ _

theorem Expr.checkAll_unlined (expressions : List Expr) :
    Agrees view (Expr.checkAll expressions) (Expr.checkAll (expressions.map Expr.unlined)) := by
  cases expressions with
  | nil => exact .pure _
  | cons expression rest =>
      rw [List.map_cons, Expr.checkAll, Expr.checkAll]
      exact expression.check_unlined.bind fun _ => (Expr.checkAll_unlined rest).bind fun _ =>
        .pure _

end

/-! ## Declarations and assignments -/

namespace Foreseen

theorem type?_unlined (foreseen : Foreseen) : Agrees view foreseen.type? foreseen.unlined.type? := by
  refine .get fun known counterpart alike => ?_
  have same : foreseen.preview.bind known.typeOf? =
      foreseen.unlined.preview.bind counterpart.typeOf? := by
    rw [unlined]
    cases foreseen.preview with
    | none => rfl
    | some preview => exact alike.typeOf?_unlined preview
  rw [same]
  exact .pure _

theorem check_unlined (foreseen : Foreseen) : Agrees view foreseen.check foreseen.unlined.check :=
  foreseen.value.check_unlined.discard

theorem checkCondition_unlined (foreseen : Foreseen) (context : String) :
    Agrees view (foreseen.checkCondition context) (foreseen.unlined.checkCondition context) := by
  refine foreseen.type?_unlined.bind fun type? => ?_
  cases type? with
  | none => exact foreseen.check_unlined
  | some found => exact (checkBoolean_agrees _ _ _ _).bind fun _ => foreseen.check_unlined

theorem checkSelector_unlined (value : Foreseen) (line other number : Nat) :
    Agrees view (value.checkSelector line number) (value.unlined.checkSelector other number) := by
  refine value.type?_unlined.bind fun type? => value.check_unlined.bind fun _ => ?_
  exact (declareVariable_agrees _ _ _ _).bind fun _ => .pure _

theorem checkCase_unlined (test : Foreseen) (selector? : Option TypeName) :
    Agrees view (test.checkCase selector?) (test.unlined.checkCase selector?) := by
  cases selector? with
  | none => exact test.check_unlined
  | some selector =>
      refine test.type?_unlined.bind fun type? => ?_
      cases type? with
      | none => exact test.check_unlined
      | some found => exact (checkOperation_agrees _ _ _ _ _).bind fun _ => test.check_unlined

end Foreseen

theorem Initializer.checkValue_unlined (name : Token) (declared : Bool)
    (initializer : Initializer) :
    Agrees view (initializer.checkValue name declared)
      (initializer.unlined.checkValue name.unlined declared) := by
  have value : Agrees view initializer.value.check initializer.unlined.value.check :=
    initializer.value.check_unlined
  obtain ⟨constant?, foreseen⟩ := initializer
  refine .ite ?_ value
  cases constant? with
  | none => exact value
  | some constant => exact (setValue_agrees _ _).bind fun _ => value

theorem Initializer.check_unlined (type : TypeName) (name : Token) (declared : Bool)
    (initializer : Initializer) :
    Agrees view (initializer.check type name declared)
      (initializer.unlined.check type name.unlined declared) := by
  have value : Agrees view (initializer.checkValue name declared)
      (initializer.unlined.checkValue name.unlined declared) :=
    initializer.checkValue_unlined name declared
  refine initializer.value.type?_unlined.bind fun type? => ?_
  cases type? with
  | none => exact value
  | some found => exact (checkAssignment_agrees _ _ _ _).bind fun _ => value

theorem Declaration.check_unlined (declaration : Declaration) :
    Agrees view declaration.check declaration.unlined.check := by
  obtain ⟨type, name, initializer?⟩ := declaration
  have declares : Agrees view (declareVariable type name.value name.line)
      (declareVariable type name.value name.unlined.line) := declareVariable_agrees _ _ _ _
  cases initializer? with
  | none => exact declares.bind fun _ => .pure _
  | some initializer => exact declares.bind fun _ => initializer.check_unlined _ _ _

theorem AssignmentForm.check_unlined (line other : Nat) (target? : Option TypeName)
    (form : AssignmentForm) :
    Agrees view (form.check line target?) (form.unlined.check other target?) := by
  cases form with
  | unfinished => exact .pure _
  | step operator =>
      cases target? with
      | none => exact .pure _
      | some target => exact (checkOperation_agrees _ _ _ _ _).discard
  | store operator? value =>
      cases target? with
      | none => exact value.check_unlined
      | some target =>
          refine value.type?_unlined.bind fun type? => ?_
          cases type? with
          | none => exact value.check_unlined
          | some found => exact (checkStore_agrees _ _ _ _ _).bind fun _ => value.check_unlined

theorem Assignment.check_unlined (assignment : Assignment) :
    Agrees view assignment.check assignment.unlined.check := by
  rw [Assignment.check_form, Assignment.check_form]
  exact (useVariable_agrees _ _ _).bind fun target? => assignment.form.check_unlined _ _ target?

theorem LoopStart.check_unlined (start : LoopStart) : Agrees view start.check start.unlined.check := by
  cases start with
  | nothing => exact .pure _
  | declare declaration => exact declaration.check_unlined
  | assign assignment => exact assignment.check_unlined

theorem Returned.check_unlined (returns : Option TypeName) (line other : Nat)
    (value : Returned) : Agrees view (value.check returns line) (value.unlined.check returns other) := by
  cases value with
  | unknown => exact .pure _
  | nothing =>
      cases returns with
      | none => exact .pure _
      | some expected => exact checkEmptyReturn_agrees _ _ _
  | value given =>
      refine given.check_unlined.bind fun found? => ?_
      cases returns with
      | none => exact .pure _
      | some expected => exact checkReturnValue_agrees _ _ _ _

/-! ## Statements and programs -/

mutual

theorem Statement.check_unlined (returns : Option TypeName) (breakable : Bool)
    (statement : Statement) :
    Agrees view (statement.check returns breakable) (statement.unlined.check returns breakable) := by
  cases statement with
  | skipped =>
      rw [Statement.unlined, Statement.check]
      exact .pure _
  | declare declaration =>
      rw [Statement.unlined, Statement.check, Statement.check]
      exact declaration.check_unlined
  | assign assignment =>
      rw [Statement.unlined, Statement.check, Statement.check]
      exact assignment.check_unlined
  | call callee arguments =>
      have called : Agrees view (Expr.call callee arguments).check
          (Expr.call callee arguments).unlined.check := (Expr.call callee arguments).check_unlined
      rw [Expr.unlined] at called
      rw [Statement.unlined, Statement.check, Statement.check]
      exact called.discard
  | print endsLine value =>
      rw [Statement.unlined, Statement.check_print, Statement.check_print]
      exact optionally_agrees (fun expression => expression.check_unlined.discard) value
  | read target =>
      rw [Statement.unlined, Statement.check, Statement.check]
      exact (useVariable_agrees _ _ _).discard
  | leave line =>
      rw [Statement.unlined, Statement.check, Statement.check]
      exact reportIf_agrees _ rfl
  | giveBack line value =>
      rw [Statement.unlined, Statement.check, Statement.check]
      exact value.check_unlined _ _ _
  | evaluate value =>
      rw [Statement.unlined, Statement.check, Statement.check]
      exact value.check_unlined.discard
  | block body =>
      rw [Statement.unlined, Statement.check, Statement.check]
      exact Statement.checkAll_unlined returns breakable body
  | whileLoop condition body =>
      rw [Statement.unlined, Statement.check, Statement.check]
      exact (condition.checkCondition_unlined _).bind fun _ => body.check_unlined returns true
  | ifThen condition yes =>
      rw [Statement.unlined, Statement.check, Statement.check]
      exact (condition.checkCondition_unlined _).bind fun _ => yes.check_unlined returns breakable
  | ifElse condition yes no =>
      rw [Statement.unlined, Statement.check, Statement.check]
      exact (condition.checkCondition_unlined _).bind fun _ =>
        (yes.check_unlined returns breakable).bind fun _ => no.check_unlined returns breakable
  | doWhile body condition =>
      rw [Statement.unlined, Statement.check_doWhile, Statement.check_doWhile]
      exact (body.check_unlined returns true).bind fun _ =>
        optionally_agrees (Foreseen.checkCondition_unlined · _) condition
  | forLoop start condition step body =>
      rw [Statement.unlined, Statement.check_forLoop, Statement.check_forLoop]
      refine start.check_unlined.bind fun _ => ?_
      refine (optionally_agrees (Foreseen.checkCondition_unlined · _) condition).bind fun _ => ?_
      exact (optionally_agrees Assignment.check_unlined step).bind fun _ =>
        body.check_unlined returns true
  | switch line number value clauses =>
      rw [Statement.unlined, Statement.check, Statement.check]
      exact (value.checkSelector_unlined _ _ _).bind fun selector? =>
        Clause.checkAll_unlined returns selector? clauses
  | switchHead line number value =>
      rw [Statement.unlined, Statement.check, Statement.check]
      exact (value.checkSelector_unlined _ _ _).discard

theorem Statement.checkAll_unlined (returns : Option TypeName) (breakable : Bool)
    (statements : List Statement) :
    Agrees view (Statement.checkAll returns breakable statements)
      (Statement.checkAll returns breakable (statements.map Statement.unlined)) := by
  cases statements with
  | nil => exact .pure _
  | cons statement rest =>
      rw [List.map_cons, Statement.checkAll, Statement.checkAll]
      exact (statement.check_unlined returns breakable).bind fun _ =>
        Statement.checkAll_unlined returns breakable rest

theorem Clause.checkAll_unlined (returns selector? : Option TypeName) (clauses : List Clause) :
    Agrees view (Clause.checkAll returns selector? clauses)
      (Clause.checkAll returns selector? (clauses.map Clause.unlined)) := by
  cases clauses with
  | nil => exact .pure _
  | cons clause rest =>
      rw [List.map_cons, Clause.checkAll, Clause.checkAll]
      exact (clause.check_unlined returns selector?).bind fun _ =>
        Clause.checkAll_unlined returns selector? rest

theorem Clause.check_unlined (returns selector? : Option TypeName) (clause : Clause) :
    Agrees view (clause.check returns selector?) (clause.unlined.check returns selector?) := by
  obtain ⟨test, body⟩ := clause
  rw [Clause.unlined, Clause.check_clause, Clause.check_clause]
  exact (optionally_agrees (Foreseen.checkCase_unlined · selector?) test).bind fun _ =>
    Statement.checkAll_unlined returns true body

end

theorem Method.declareParameters_unlined (parameters : List (TypeName × Token)) :
    Agrees view (declareParameters parameters)
      (declareParameters (parameters.map (Prod.map id Token.unlined))) := by
  induction parameters with
  | nil => exact .pure _
  | cons parameter rest ih => exact (declareVariable_agrees _ _ _ _).bind fun _ => ih

theorem Method.check_unlined (method : Method) : Agrees view method.check method.unlined.check := by
  unfold Method.check
  rw [method.signature_unlined]
  refine (declareMethod_agrees _ _ _).bind fun _ => (enter_agrees _).bind fun _ => ?_
  refine (declareParameters_unlined method.parameters).bind fun _ => ?_
  exact (Statement.checkAll_unlined _ _ method.body).bind fun _ => exit_agrees

theorem Member.check_unlined (member : Member) : Agrees view member.check member.unlined.check := by
  cases member with
  | field declaration => exact declaration.check_unlined
  | method declared => exact declared.check_unlined
  | skipped => exact .pure _

theorem Member.checkAll_unlined (members : List Member) :
    Agrees view (Member.checkAll members) (Member.checkAll (members.map Member.unlined)) := by
  induction members with
  | nil => exact .pure _
  | cons member rest ih => exact member.check_unlined.bind fun _ => ih

theorem Program.check_unlined (program : Program) : Agrees view program.check program.unlined.check := by
  cases program with
  | statements body => exact Statement.checkAll_unlined _ _ body
  | members all => exact Member.checkAll_unlined all

/-- The program without lines declares the same variables. -/
theorem Program.analyze_symbols_unlined (program : Program) :
    program.unlined.analyze.symbols = program.analyze.symbols := by
  have agrees : Agrees .whole program.check program.unlined.check := program.check_unlined
  exact (agrees .initial .initial (.refl _)).knowledge.symbols.symm

/-- The program without lines has the same errors, up to their lines. -/
theorem Program.analyze_errors_unlined (program : Program) :
    program.unlined.analyze.errors.map SemanticError.unlined =
      program.analyze.errors.map SemanticError.unlined := by
  have agrees : Agrees .whole program.check program.unlined.check := program.check_unlined
  obtain ⟨found, others, grown, widened, same⟩ := (agrees .initial .initial (.refl _)).reports
  have none : Analyzer.initial.errors = #[] := rfl
  rw [none, Array.empty_append] at grown widened
  rw [analyze, analyze, grown, widened, same]

end StackLang
