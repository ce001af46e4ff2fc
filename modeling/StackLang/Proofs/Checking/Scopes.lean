import StackLang.Compilation
import StackLang.Proofs.Checking.Selectors
import StackLang.Proofs.Grammar.Uses

/-!
# Scopes of methods

Each method is checked in a scope of its own above the global one.  A name that is neither
a field nor declared in a method is unknown throughout the method, whatever other methods
declare, unless one of these has the name of the global scope.
-/

namespace StackLang

/-- The reports of the uses of a name, in their order. -/
def undeclaredReports (name : String) (uses : List Token) : List SemanticError :=
  (uses.filter fun token => token.value == name).map fun token =>
    .undeclared token.value token.line

theorem undeclaredReports_append (name : String) (front back : List Token) :
    undeclaredReports name (front ++ back) =
      undeclaredReports name front ++ undeclaredReports name back := by
  rw [undeclaredReports, List.filter_append, List.map_append]
  rfl

namespace Analyzer

variable {name : String} {before middle after : Analyzer}

theorem lookup?_eq_none_iff {analyzer : Analyzer} :
    analyzer.lookup? name = none ↔ ⟨analyzer.scope, name⟩ ∉ analyzer.symbols.keys ∧
      ⟨globalScope, name⟩ ∉ analyzer.symbols.keys := by
  rw [lookup?, Option.map_eq_none_iff, Option.or_eq_none_iff, SymbolTable.get?, SymbolTable.get?,
    Option.map_eq_none_iff, Option.map_eq_none_iff, OrderedMap.get?_eq_none_iff,
    OrderedMap.get?_eq_none_iff]
  rfl

/-- Between two analyzers no variable of the name was declared, and its uses were reported. -/
structure Misses (name : String) (uses : List Token) (before after : Analyzer) : Prop where
  scopes : after.scopes = before.scopes
  symbols : ∀ key ∈ after.symbols.keys, key.name = name → key ∈ before.symbols.keys
  reports : ∃ found, after.errors.toList = before.errors.toList ++ found ∧
    (undeclaredReports name uses).Sublist found

namespace Misses

variable {uses others : List Token}

theorem refl (name : String) (analyzer : Analyzer) : Misses name [] analyzer analyzer :=
  ⟨rfl, fun _ member _ => member, [], (List.append_nil _).symm, .slnil⟩

theorem trans (first : Misses name uses before middle) (second : Misses name others middle after) :
    Misses name (uses ++ others) before after := by
  obtain ⟨found, front, reported⟩ := first.reports
  obtain ⟨more, back, listed⟩ := second.reports
  refine ⟨second.scopes.trans first.scopes, ?_, found ++ more, ?_, ?_⟩
  · exact fun key member same => first.symbols key (second.symbols key member same) same
  · rw [back, front, List.append_assoc]
  · rw [undeclaredReports_append]
    exact reported.append listed

/-- What is not known stays unknown. -/
theorem hidden (misses : Misses name uses before after) (unknown : before.lookup? name = none) :
    after.lookup? name = none := by
  obtain ⟨inner, outer⟩ := lookup?_eq_none_iff.mp unknown
  have scope : after.scope = before.scope := by rw [Analyzer.scope, Analyzer.scope, misses.scopes]
  refine lookup?_eq_none_iff.mpr ⟨fun member => inner ?_, fun member => ?_⟩
  · rw [scope] at member
    exact misses.symbols _ member rfl
  · exact outer (misses.symbols _ member rfl)

/-- Other errors do not matter. -/
theorem reportInvariant (name : String) (before : Analyzer) :
    ReportInvariant (Misses name [] before) where
  report error := by
    intro analyzer misses
    obtain ⟨found, reported, _⟩ := misses.reports
    refine ⟨misses.scopes, misses.symbols, found ++ [error], ?_, List.nil_sublist _⟩
    show (analyzer.errors.push error).toList = _
    rw [Array.toList_push, reported, List.append_assoc]

end Misses

end Analyzer

namespace Analysis

variable {α β : Type} {name : String} {uses others : List Token} {action : Analysis α}
  {next : α → Analysis β}

/-- Where the name is unknown the check declares no variable of that name, and reports the
uses of it. -/
def Misses (name : String) (uses : List Token) (action : Analysis α) : Prop :=
  ∀ before : Analyzer, before.lookup? name = none →
    Analyzer.Misses name uses before (action.run before).2

namespace Misses

theorem pure (result : α) : Misses name [] (Pure.pure result) :=
  fun before _ => .refl name before

theorem of_keeps (kept : ∀ before, Keeps (Analyzer.Misses name [] before) action) :
    Misses name [] action :=
  fun before _ => kept before before (.refl name before)

/-- A check that at most reports other errors. -/
theorem of_reports (kept : ∀ invariant, ReportInvariant invariant → Keeps invariant action) :
    Misses name [] action :=
  of_keeps fun before => kept _ (Analyzer.Misses.reportInvariant name before)

theorem bind (first : Misses name uses action) (second : ∀ result, Misses name others (next result)) :
    Misses name (uses ++ others) (action >>= next) := by
  intro before unknown
  have front := first before unknown
  exact front.trans (second _ _ (front.hidden unknown))

/-- The uses are in the first part. -/
theorem before (first : Misses name uses action) (second : ∀ result, Misses name [] (next result)) :
    Misses name uses (action >>= next) := by
  have both := first.bind second
  rwa [List.append_nil] at both

/-- The uses are in the second part. -/
theorem behind (first : Misses name [] action) (second : ∀ result, Misses name uses (next result)) :
    Misses name uses (action >>= next) :=
  first.bind second

theorem optionally {check : α → Analysis Unit} {uses : α → List Token}
    (parts : ∀ part, Misses name (uses part) (check part)) (part? : Option α) :
    Misses name (usesOf uses part?) (Analysis.optionally check part?) := by
  cases part? with
  | none => exact .pure ()
  | some part => exact parts part

end Misses

/-- A use of an unknown variable is reported. -/
theorem useVariable_misses (name : String) (token : Token) :
    Misses name [token] (useVariable token.value token.line) := by
  intro analyzer unknown
  by_cases same : token.value = name
  · subst same
    have run : ((useVariable token.value token.line).run analyzer).2 =
        { analyzer with errors := analyzer.errors.push (.undeclared token.value token.line) } := by
      show ((if (analyzer.lookup? token.value).isNone = true then _ else _ :
        Analysis (Option TypeName)).run analyzer).2 = _
      rw [unknown]
      rfl
    rw [run]
    refine ⟨rfl, fun _ member _ => member, [.undeclared token.value token.line],
      Array.toList_push, ?_⟩
    simp [undeclaredReports]
  · have quiet := (Analyzer.Misses.reportInvariant name analyzer).useVariable token.value token.line
      analyzer (.refl name analyzer)
    have none : undeclaredReports name [token] = [] := by simp [undeclaredReports, same]
    obtain ⟨found, reported, _⟩ := quiet.reports
    exact ⟨quiet.scopes, quiet.symbols, found, reported, none ▸ List.nil_sublist _⟩

theorem declareVariable_misses (type : TypeName) {other : String} (line : Nat)
    (apart : other ≠ name) : Misses name [] (declareVariable type other line) := by
  intro analyzer _
  rw [declareVariable_run]
  split
  · next symbols added =>
      refine ⟨rfl, ?_, [], (List.append_nil _).symm, .slnil⟩
      intro key member same
      rw [SymbolTable.keys_of_insert? added] at member
      rcases List.mem_append.mp member with declared | fresh
      · exact declared
      · obtain rfl := List.mem_singleton.mp fresh
        exact absurd same apart
  · exact (Analyzer.Misses.reportInvariant name analyzer).report _ analyzer (.refl name analyzer)

theorem setValue_misses (other value : String) : Misses name [] (setValue other value) := by
  intro analyzer _
  refine ⟨rfl, ?_, [], (List.append_nil _).symm, .slnil⟩
  show ∀ key ∈ ((analyzer.symbols.setValue? analyzer.scope other value).getD
    analyzer.symbols).keys, _
  cases replaced : analyzer.symbols.setValue? analyzer.scope other value with
  | none => exact fun _ member _ => member
  | some symbols =>
      rw [Option.getD_some, SymbolTable.keys_of_setValue? replaced]
      exact fun _ member _ => member

end Analysis

open Analysis

variable {name : String}

mutual

theorem Expr.check_misses (expression : Expr) : Misses name expression.uses expression.check := by
  cases expression with
  | missing =>
      rw [Expr.check]
      exact .pure _
  | literal token =>
      rw [Expr.check]
      exact .of_reports fun _ kept => kept.reportIf _ _
  | name token =>
      rw [Expr.check]
      exact useVariable_misses name token
  | call callee arguments =>
      rw [Expr.check]
      exact (Expr.checkAll_misses arguments).before fun _ =>
        .of_reports fun _ kept => kept.checkCall _ _ _
  | negate line operand | invert line operand =>
      rw [Expr.check]
      exact operand.check_misses.before fun _ => .of_reports fun _ kept => kept.combine _ _ _ _
  | binary operator line left right =>
      rw [Expr.check]
      refine left.check_misses.bind fun _ => right.check_misses.before fun _ => ?_
      exact .of_reports fun _ kept => kept.combine _ _ _ _

theorem Expr.checkAll_misses (expressions : List Expr) :
    Misses name (Expr.allUses expressions) (Expr.checkAll expressions) := by
  cases expressions with
  | nil =>
      rw [Expr.checkAll]
      exact .pure _
  | cons expression rest =>
      rw [Expr.checkAll]
      exact expression.check_misses.bind fun _ => (Expr.checkAll_misses rest).before fun _ => .pure _

end

namespace Foreseen

theorem check_misses (foreseen : Foreseen) : Misses name foreseen.uses foreseen.check :=
  foreseen.value.check_misses.before fun _ => .pure _

theorem type?_misses (foreseen : Foreseen) : Misses name [] foreseen.type? :=
  .of_keeps fun _ => ReportInvariant.foreseenType foreseen

theorem checkCondition_misses (condition : Foreseen) (context : String) :
    Misses name condition.uses (condition.checkCondition context) := by
  refine condition.type?_misses.behind fun type? => ?_
  cases type? with
  | none => exact condition.check_misses
  | some found =>
      exact .behind (.of_reports fun _ kept => kept.checkBoolean _ _ _) fun _ =>
        condition.check_misses

theorem checkCase_misses (test : Foreseen) (selector? : Option TypeName) :
    Misses name test.uses (test.checkCase selector?) := by
  cases selector? with
  | none => exact test.check_misses
  | some selector =>
      refine test.type?_misses.behind fun type? => ?_
      cases type? with
      | none => exact test.check_misses
      | some found =>
          exact .behind (.of_reports fun _ kept => kept.checkOperation _ _ _ _) fun _ =>
            test.check_misses

theorem checkSelector_misses (value : Foreseen) (line number : Nat)
    (visible : selectorName number ≠ name) :
    Misses name value.uses (value.checkSelector line number) := by
  refine value.type?_misses.behind fun type? => value.check_misses.before fun _ => ?_
  exact (declareVariable_misses _ _ visible).before fun _ => .pure _

end Foreseen

theorem Declaration.check_misses (declaration : Declaration)
    (apart : declaration.name.value ≠ name) : Misses name declaration.uses declaration.check := by
  obtain ⟨type, declared, initializer⟩ := declaration
  have declares : Misses name [] (declareVariable type declared.value declared.line) :=
    declareVariable_misses type declared.line apart
  cases initializer with
  | none => exact declares.before fun _ => .pure _
  | some initializer =>
      rw [Declaration.check_some]
      refine declares.behind fun fresh => ?_
      have value : Misses name initializer.value.uses (initializer.checkValue declared fresh) := by
        unfold Initializer.checkValue
        cases fresh with
        | false => exact initializer.value.check_misses
        | true =>
            cases initializer.constant with
            | none => exact initializer.value.check_misses
            | some constant =>
                exact (setValue_misses _ _).behind fun _ => initializer.value.check_misses
      refine initializer.value.type?_misses.behind fun type? => ?_
      cases type? with
      | none => exact value
      | some found =>
          exact .behind (.of_reports fun _ kept => kept.checkAssignment _ _ _) fun _ => value

theorem Assignment.check_misses (assignment : Assignment) :
    Misses name assignment.uses assignment.check := by
  obtain ⟨target, form⟩ := assignment
  rw [Assignment.check_form]
  refine (useVariable_misses name target).bind fun target? => ?_
  cases form with
  | unfinished => exact .pure _
  | step operator => exact .of_reports fun _ kept => kept.form _ target? (.step operator)
  | store operator? value =>
      cases target? with
      | none => exact value.check_misses
      | some type =>
          refine value.type?_misses.behind fun type? => ?_
          cases type? with
          | none => exact value.check_misses
          | some found =>
              exact .behind (.of_reports fun _ kept => kept.store _ _ _ _) fun _ =>
                value.check_misses

theorem LoopStart.check_misses (start : LoopStart)
    (apart : ∀ token ∈ start.locals, token.value ≠ name) : Misses name start.uses start.check := by
  cases start with
  | nothing => exact .pure _
  | declare declaration =>
      exact declaration.check_misses (apart _ List.mem_cons_self)
  | assign assignment => exact assignment.check_misses

theorem Returned.check_misses (returns : Option TypeName) (line : Nat) (value : Returned) :
    Misses name value.uses (value.check returns line) := by
  cases value with
  | unknown => exact .pure _
  | nothing => exact .of_reports fun _ kept => kept.returned returns line .nothing
  | value given =>
      refine given.check_misses.before fun found? => ?_
      cases returns with
      | none => exact .pure _
      | some expected => exact .of_reports fun _ kept => kept.checkReturnValue expected found? line

mutual

/-- Where the name is unknown a statement that does not declare it reports all uses. -/
theorem Statement.check_misses (visible : ∀ number, selectorName number ≠ name)
    (returns : Option TypeName) (breakable : Bool) (statement : Statement)
    (apart : ∀ token ∈ statement.locals, token.value ≠ name) :
    Misses name statement.uses (statement.check returns breakable) := by
  cases statement with
  | skipped =>
      rw [Statement.check]
      exact .pure _
  | declare declaration =>
      rw [Statement.check]
      exact declaration.check_misses (apart _ List.mem_cons_self)
  | assign assignment =>
      rw [Statement.check]
      exact assignment.check_misses
  | call callee arguments =>
      rw [Statement.check]
      exact (Expr.call callee arguments).check_misses.before fun _ => .pure _
  | print endsLine value =>
      rw [Statement.check_print]
      exact .optionally (fun expression => expression.check_misses.before fun _ => .pure _) value
  | read target =>
      rw [Statement.check]
      exact (useVariable_misses name target).before fun _ => .pure _
  | leave line =>
      rw [Statement.check]
      exact .of_reports fun _ kept => kept.reportIf _ _
  | giveBack line value =>
      rw [Statement.check]
      exact value.check_misses returns line
  | evaluate value =>
      rw [Statement.check]
      exact value.check_misses.before fun _ => .pure _
  | block body =>
      rw [Statement.check]
      exact Statement.checkAll_misses visible returns breakable body apart
  | whileLoop condition body =>
      rw [Statement.check]
      exact (condition.checkCondition_misses _).bind fun _ =>
        body.check_misses visible returns true apart
  | ifThen condition yes =>
      rw [Statement.check]
      exact (condition.checkCondition_misses _).bind fun _ =>
        yes.check_misses visible returns breakable apart
  | ifElse condition yes no =>
      rw [Statement.check]
      obtain ⟨apartYes, apartNo⟩ := List.forall_mem_append.mp apart
      exact (condition.checkCondition_misses _).bind fun _ =>
        (yes.check_misses visible returns breakable apartYes).bind fun _ =>
          no.check_misses visible returns breakable apartNo
  | doWhile body condition =>
      rw [Statement.check_doWhile]
      exact (body.check_misses visible returns true apart).bind fun _ =>
        .optionally (fun condition => condition.checkCondition_misses _) condition
  | forLoop start condition step body =>
      rw [Statement.check_forLoop]
      obtain ⟨apartStart, apartBody⟩ := List.forall_mem_append.mp apart
      refine (start.check_misses apartStart).bind fun _ => ?_
      refine (Misses.optionally (fun condition => condition.checkCondition_misses _) condition).bind
        fun _ => ?_
      exact (Misses.optionally Assignment.check_misses step).bind fun _ =>
        body.check_misses visible returns true apartBody
  | switch line number value clauses =>
      rw [Statement.check]
      exact (value.checkSelector_misses line number (visible number)).bind fun selector? =>
        Clause.checkAll_misses visible returns selector? clauses apart
  | switchHead line number value =>
      rw [Statement.check]
      exact (value.checkSelector_misses line number (visible number)).before fun _ => .pure _

theorem Statement.checkAll_misses (visible : ∀ number, selectorName number ≠ name)
    (returns : Option TypeName) (breakable : Bool) (statements : List Statement)
    (apart : ∀ token ∈ Statement.allLocals statements, token.value ≠ name) :
    Misses name (Statement.allUses statements)
      (Statement.checkAll returns breakable statements) := by
  cases statements with
  | nil =>
      rw [Statement.checkAll]
      exact .pure _
  | cons statement rest =>
      rw [Statement.checkAll]
      obtain ⟨apartFirst, apartRest⟩ := List.forall_mem_append.mp apart
      exact (statement.check_misses visible returns breakable apartFirst).bind fun _ =>
        Statement.checkAll_misses visible returns breakable rest apartRest

theorem Clause.checkAll_misses (visible : ∀ number, selectorName number ≠ name)
    (returns selector? : Option TypeName) (clauses : List Clause)
    (apart : ∀ token ∈ Clause.allLocals clauses, token.value ≠ name) :
    Misses name (Clause.allUses clauses) (Clause.checkAll returns selector? clauses) := by
  cases clauses with
  | nil =>
      rw [Clause.checkAll]
      exact .pure _
  | cons clause rest =>
      rw [Clause.checkAll]
      obtain ⟨apartFirst, apartRest⟩ := List.forall_mem_append.mp apart
      exact (clause.check_misses visible returns selector? apartFirst).bind fun _ =>
        Clause.checkAll_misses visible returns selector? rest apartRest

theorem Clause.check_misses (visible : ∀ number, selectorName number ≠ name)
    (returns selector? : Option TypeName) (clause : Clause)
    (apart : ∀ token ∈ clause.locals, token.value ≠ name) :
    Misses name clause.uses (clause.check returns selector?) := by
  obtain ⟨test, body⟩ := clause
  rw [Clause.check_clause]
  exact (Misses.optionally (fun test => test.checkCase_misses selector?) test).bind fun _ =>
    Statement.checkAll_misses visible returns true body apart

end

theorem Method.declareParameters_misses (parameters : List (TypeName × Token))
    (apart : ∀ token ∈ parameters.map Prod.snd, token.value ≠ name) :
    Misses name [] (Method.declareParameters parameters) := by
  induction parameters with
  | nil => exact .pure _
  | cons parameter rest ih =>
      obtain ⟨first, others⟩ := List.forall_mem_cons.mp apart
      exact (declareVariable_misses _ _ first).behind fun _ => ih others

/-- The check of a method behind the opening of its scope. -/
def Method.checkInside (method : Method) : Analysis Unit := do
  Method.declareParameters method.parameters
  Statement.checkAll (some method.returnType) false method.body

/-- The inside of a method that declares the name nowhere. -/
theorem Method.checkInside_misses (visible : ∀ number, selectorName number ≠ name)
    (method : Method) (apart : ∀ token ∈ method.locals, token.value ≠ name) :
    Misses name method.uses method.checkInside := by
  obtain ⟨parameters, body⟩ := List.forall_mem_append.mp apart
  exact (Method.declareParameters_misses _ parameters).behind fun _ =>
    Statement.checkAll_misses visible _ false method.body body

/-! ## Methods and classes -/

theorem Array.prefix_push {α : Type} (found : Array α) (last : α) :
    found.toList <+: (found.push last).toList := by
  rw [Array.toList_push]
  exact List.prefix_append _ _

/-- In between only symbols of the current scope were added, and only errors at the end. -/
structure Analyzer.Stays (before after : Analyzer) : Prop where
  scopes : after.scopes = before.scopes
  symbols : ∀ key ∈ after.symbols.keys, key ∈ before.symbols.keys ∨ key.scope = before.scope
  errors : before.errors.toList <+: after.errors.toList

namespace Analyzer.Stays

variable {standard : TreeStandard} {before : Analyzer}

theorem refl (analyzer : Analyzer) : analyzer.Stays analyzer :=
  ⟨rfl, fun _ => .inl, List.prefix_rfl⟩

theorem report (error : SemanticError) : Keeps before.Stays (Analysis.report error) := by
  intro analyzer stays
  exact ⟨stays.scopes, stays.symbols, stays.errors.trans (Array.prefix_push analyzer.errors error)⟩

theorem declare (type : TypeName) (name : String) (line : Nat) :
    Keeps before.Stays (declareVariable type name line) := by
  intro analyzer stays
  rw [declareVariable_run]
  split
  · next symbols added =>
      refine ⟨stays.scopes, ?_, stays.errors⟩
      intro key member
      rw [SymbolTable.keys_of_insert? added] at member
      rcases List.mem_append.mp member with declared | fresh
      · exact stays.symbols key declared
      · obtain rfl := List.mem_singleton.mp fresh
        have scope : analyzer.scope = before.scope := by
          rw [Analyzer.scope, Analyzer.scope, stays.scopes]
        exact .inr scope
  · exact report _ analyzer stays

theorem setValue (name value : String) : Keeps before.Stays (Analysis.setValue name value) := by
  intro analyzer stays
  refine ⟨stays.scopes, ?_, stays.errors⟩
  show ∀ key ∈ ((analyzer.symbols.setValue? analyzer.scope name value).getD
    analyzer.symbols).keys, _
  cases replaced : analyzer.symbols.setValue? analyzer.scope name value with
  | none => exact stays.symbols
  | some symbols =>
      rw [Option.getD_some, SymbolTable.keys_of_setValue? replaced]
      exact stays.symbols

theorem invariant (standard : TreeStandard) (before : Analyzer) :
    CheckInvariant standard before.Stays where
  report := report
  declare type _ line _ := declare type _ line
  setValue := setValue
  select type line _ := declare type _ line

end Analyzer.Stays

/-- Every check adds errors at the end only. -/
theorem Analyzer.errors_invariant (standard : TreeStandard) (before : Analyzer) :
    ProgramInvariant standard fun _ analyzer => before.errors.toList <+: analyzer.errors.toList := by
  have report (error : SemanticError) :
      Keeps (fun analyzer => before.errors.toList <+: analyzer.errors.toList)
        (Analysis.report error) :=
    fun analyzer earlier => earlier.trans (Array.prefix_push analyzer.errors error)
  have declare (type : TypeName) (name : String) (line : Nat) :
      Keeps (fun analyzer => before.errors.toList <+: analyzer.errors.toList)
        (declareVariable type name line) := by
    intro analyzer earlier
    rw [declareVariable_run]
    split
    · exact earlier
    · exact report _ analyzer earlier
  exact {
    parts := fun _ => {
      report := report
      declare := fun type _ line _ => declare type _ line
      setValue := fun _ _ _ earlier => earlier }
    select := fun type line _ _ => declare type _ line
    declareMethod := by
      intro signature line _ analyzer earlier
      rw [declareMethod_run]
      split
      · exact earlier
      · exact report _ analyzer earlier
    enter := fun _ _ _ earlier => earlier
    exit := fun _ _ earlier => earlier }

/-- Between the members of a class the name is neither in the global scope nor in the
given one. -/
structure Analyzer.Outside (name scope : String) (analyzer : Analyzer) : Prop where
  scopes : analyzer.scopes = []
  inner : ⟨scope, name⟩ ∉ analyzer.symbols.keys
  outer : ⟨globalScope, name⟩ ∉ analyzer.symbols.keys

namespace Analyzer.Outside

variable {name scope : String} {analyzer : Analyzer}

/-- A field of another name changes nothing. -/
theorem field (outside : analyzer.Outside name scope) (declaration : Declaration)
    (apart : declaration.name.value ≠ name) :
    (declaration.check.run analyzer).2.Outside name scope := by
  have unknown : analyzer.lookup? name = none := by
    refine lookup?_eq_none_iff.mpr ⟨?_, outside.outer⟩
    rw [Analyzer.scope, outside.scopes]
    exact outside.outer
  have misses := declaration.check_misses apart analyzer unknown
  exact ⟨misses.scopes.trans outside.scopes,
    fun member => outside.inner (misses.symbols _ member rfl),
    fun member => outside.outer (misses.symbols _ member rfl)⟩

/-- What a method finds in its scope. -/
def entered (analyzer : Analyzer) (method : Method) : Analyzer :=
  let declared := ((declareMethod method.signature method.name.line).run analyzer).2
  { declared with scopes := method.name.value :: declared.scopes }

theorem entered_eq (analyzer : Analyzer) (method : Method) :
    (entered analyzer method).scopes = method.name.value :: analyzer.scopes ∧
      (entered analyzer method).symbols = analyzer.symbols := by
  rw [entered, declareMethod_run]
  split <;> exact ⟨rfl, rfl⟩

theorem check_run (analyzer : Analyzer) (method : Method) :
    (method.check.run analyzer).2 =
      { (method.checkInside.run (entered analyzer method)).2 with
        scopes := (method.checkInside.run (entered analyzer method)).2.scopes.tail } := rfl

/-- A method of another scope declares nothing that is visible from this one. -/
theorem method {standard : TreeStandard} (outside : analyzer.Outside name scope) (method : Method)
    (meets : method.Meets standard) (apart : method.name.value ≠ scope)
    (inner : method.name.value ≠ globalScope) :
    (method.check.run analyzer).2.Outside name scope := by
  obtain ⟨scopes, symbols⟩ := entered_eq analyzer method
  have kept := Stays.invariant standard (entered analyzer method)
  have stays : Stays _ (method.checkInside.run (entered analyzer method)).2 :=
    ((kept.parameters _ meets.2.1).bind fun _ =>
      kept.statements (some method.returnType) false method.body meets.2.2) _ (.refl _)
  have unseen {other : String} (apart : method.name.value ≠ other)
      (absent : ⟨other, name⟩ ∉ analyzer.symbols.keys) :
      ⟨other, name⟩ ∉ (method.check.run analyzer).2.symbols.keys := by
    intro member
    rcases stays.symbols _ member with old | fresh
    · rw [symbols] at old
      exact absent old
    · rw [Analyzer.scope, scopes] at fresh
      exact apart fresh.symm
  refine ⟨?_, unseen apart outside.inner, unseen inner outside.outer⟩
  rw [check_run]
  show (method.checkInside.run (entered analyzer method)).2.scopes.tail = []
  rw [stays.scopes, scopes]
  exact outside.scopes

/-- The uses of the name in the method itself are reported. -/
theorem reports (method : Method) (outside : analyzer.Outside name method.name.value)
    (visible : ∀ number, selectorName number ≠ name)
    (apart : ∀ token ∈ method.locals, token.value ≠ name) :
    (undeclaredReports name method.uses).Sublist (method.check.run analyzer).2.errors.toList := by
  obtain ⟨scopes, symbols⟩ := entered_eq analyzer method
  have unknown : (entered analyzer method).lookup? name = none := by
    refine lookup?_eq_none_iff.mpr ?_
    rw [Analyzer.scope, scopes, symbols]
    exact ⟨outside.inner, outside.outer⟩
  obtain ⟨found, errors, listed⟩ := (method.checkInside_misses visible apart _ unknown).reports
  rw [check_run]
  dsimp only
  rw [errors]
  exact listed.trans (List.sublist_append_right _ _)

end Analyzer.Outside

/-- Where the methods of a class have different names and none that of the global scope, a
method that is still to be checked reports the uses of what is declared elsewhere. -/
theorem Member.checkAll_reports {standard : TreeStandard} {name : String} (method : Method)
    (visible : ∀ number, selectorName number ≠ name)
    (apart : ∀ token ∈ method.locals, token.value ≠ name) (members : List Member)
    (meets : ∀ member ∈ members, member.Meets standard)
    (distinct : ((members.filterMap Member.method?).map fun method => method.name.value).Nodup)
    (inner : ∀ method ∈ members.filterMap Member.method?, method.name.value ≠ globalScope)
    (fields : ∀ token ∈ members.filterMap Member.field?, token.value ≠ name)
    (listed : method ∈ members.filterMap Member.method?) (analyzer : Analyzer)
    (outside : analyzer.Outside name method.name.value) :
    (undeclaredReports name method.uses).Sublist
      ((Member.checkAll members).run analyzer).2.errors.toList := by
  induction members generalizing analyzer with
  | nil => nomatch listed
  | cons member rest ih =>
      obtain ⟨first, later⟩ := List.forall_mem_cons.mp meets
      cases member with
      | skipped => exact ih later distinct inner fields listed analyzer outside
      | field declaration =>
          obtain ⟨other, fields⟩ := List.forall_mem_cons.mp fields
          exact ih later distinct inner fields listed _ (outside.field declaration other)
      | method declared =>
          obtain ⟨fresh, distinct⟩ := List.nodup_cons.mp distinct
          obtain ⟨global, inner⟩ := List.forall_mem_cons.mp inner
          rcases List.mem_cons.mp listed with rfl | listed
          · refine (outside.reports method visible apart).trans (List.IsPrefix.sublist ?_)
            exact (Analyzer.errors_invariant standard _).members rest later [] _ List.prefix_rfl
          · have different : declared.name.value ≠ method.name.value := fun same =>
              fresh (List.mem_map.mpr ⟨method, listed, same.symm⟩)
            exact ih later distinct inner fields listed _
              (outside.method declared first different global)

/-- A program of scanned tokens reports every use of a name in a method that neither
declares it nor finds it among the fields. -/
theorem Program.analyze_reports {tokens : List Token}
    (recognised : ∀ token ∈ tokens, Lexeme.Recognised token) (program : Program)
    (meets : program.Meets (.loose tokens))
    (distinct : (program.methods.map fun method => method.name.value).Nodup)
    (inner : ∀ method ∈ program.methods, method.name.value ≠ globalScope)
    (method : Method) (listed : method ∈ program.methods) (name : String)
    (fields : ∀ token ∈ program.fields, token.value ≠ name)
    (locals : ∀ token ∈ method.locals, token.value ≠ name) :
    (undeclaredReports name method.uses).Sublist program.analyze.errors.toList := by
  cases program with
  | statements body => nomatch listed
  | members all =>
      by_cases visible : ∀ number, selectorName number ≠ name
      · exact Member.checkAll_reports method visible locals all meets distinct inner fields listed
          .initial ⟨rfl, nofun, nofun⟩
      · -- No source names the hidden variable of a switch.
        obtain ⟨number, hidden⟩ := not_forall_not.mp visible
        obtain ⟨member, declared, same⟩ := List.mem_filterMap.mp listed
        cases member with
        | skipped | field => nomatch same
        | method other =>
            obtain rfl := Option.some.inj same
            have unused : undeclaredReports name other.uses = [] := by
              rw [undeclaredReports, List.map_eq_nil_iff, List.filter_eq_nil_iff]
              intro token used named
              obtain ⟨identifier, source⟩ := Statement.allUses_meet _ (meets _ declared).2.2 used
              exact (recognised token source).ne_selectorName identifier number
                ((beq_iff_eq.mp named).trans hidden.symm)
            rw [unused]
            exact List.nil_sublist _

namespace Compilation

/-- In a class whose methods have different names, none of them that of the global scope,
every use of a name in a method is reported if the name is neither a field nor declared in
that method, wherever else it is declared. -/
theorem undeclared_of_other_scope (source : String)
    (distinct : ((Program.ofTokens (tokenize source)).program.methods.map
      fun method => method.name.value).Nodup)
    (inner : ∀ method ∈ (Program.ofTokens (tokenize source)).program.methods,
      method.name.value ≠ globalScope)
    (method : Method) (listed : method ∈ (Program.ofTokens (tokenize source)).program.methods)
    (name : String)
    (fields : ∀ token ∈ (Program.ofTokens (tokenize source)).program.fields, token.value ≠ name)
    (locals : ∀ token ∈ method.locals, token.value ≠ name) :
    (undeclaredReports name method.uses).Sublist
      (ofTokens (tokenize source)).semanticErrors.toList :=
  Program.analyze_reports (tokenize_recognised source) _ (Program.ofTokens_loose _) distinct inner
    method listed name fields locals

/-- The uses of a local of another method in an assignment, an input and a condition. -/
theorem undeclared_of_other_scope_local :
    let source := "class A { int f; int m(int p) { int q; return p + f; }
      void main() { q = p; inputln(q); while (f < q) f++; } }"
    let program := (Program.ofTokens (tokenize source)).program
    ∃ method ∈ program.methods, method.name.value = "main" ∧
      undeclaredReports "q" method.uses =
        [.undeclared "q" 2, .undeclared "q" 2, .undeclared "q" 2] ∧
      (undeclaredReports "q" method.uses).Sublist
        (ofTokens (tokenize source)).semanticErrors.toList := by
  intro source program
  obtain ⟨distinct, inner, fields, method, listed, named, locals, used⟩ :
      (program.methods.map fun method => method.name.value).Nodup ∧
        (∀ method ∈ program.methods, method.name.value ≠ globalScope) ∧
        (∀ token ∈ program.fields, token.value ≠ "q") ∧
        ∃ method ∈ program.methods, method.name.value = "main" ∧
          (∀ token ∈ method.locals, token.value ≠ "q") ∧ undeclaredReports "q" method.uses =
            [.undeclared "q" 2, .undeclared "q" 2, .undeclared "q" 2] := by decide +kernel
  exact ⟨method, listed, named, used,
    undeclared_of_other_scope source distinct inner method listed "q" fields locals⟩

/-- A method with the name of the global scope declares its locals there, where every other
method sees them. -/
theorem not_undeclared_of_global_method :
    ¬ ∀ source, (ofTokens (tokenize source)).syntaxErrors = #[] →
      ((Program.ofTokens (tokenize source)).program.methods.map
        fun method => method.name.value).Nodup →
      ∀ method ∈ (Program.ofTokens (tokenize source)).program.methods, ∀ name,
        (∀ token ∈ (Program.ofTokens (tokenize source)).program.fields, token.value ≠ name) →
        (∀ token ∈ method.locals, token.value ≠ name) →
        (undeclaredReports name method.uses).Sublist
          (ofTokens (tokenize source)).semanticErrors.toList := by
  intro separate
  let source := "class A { void global() { int x; } void main() { x = 1; } }"
  let program := (Program.ofTokens (tokenize source)).program
  obtain ⟨clean, silent, distinct, fields, method, listed, locals, used⟩ :
      (ofTokens (tokenize source)).syntaxErrors = #[] ∧
        (ofTokens (tokenize source)).semanticErrors = #[] ∧
        (program.methods.map fun method => method.name.value).Nodup ∧
        (∀ token ∈ program.fields, token.value ≠ "x") ∧ ∃ method ∈ program.methods,
          (∀ token ∈ method.locals, token.value ≠ "x") ∧
            undeclaredReports "x" method.uses = [.undeclared "x" 1] := by decide +kernel
  have reported := separate source clean distinct method listed "x" fields locals
  rw [used, silent] at reported
  nomatch reported

end Compilation

end StackLang
