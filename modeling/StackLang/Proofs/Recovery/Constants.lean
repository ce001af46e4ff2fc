import StackLang.Compilation
import StackLang.Proofs.Checking.Rows
import StackLang.Proofs.Fork.Program
import StackLang.Proofs.Layout.Concurrence

/-!
# Constants

A declaration remembers whether its initializer is a single literal, and then the literal is
recorded as the value of the symbol.  Recorded values show neither in the code nor in the
declarations of a program, so trees that differ in nothing else are compiled to the same.
-/

namespace StackLang

/-- The types of the symbols of a table. -/
def SymbolView.types : SymbolView where
  Shown := List (SymbolKey × TypeName)
  shown := SymbolTable.types
  type? := fun same scope name => by rw [SymbolTable.type?_types, same, SymbolTable.type?_types]
  insert? := fun same symbol => by
    rw [SymbolTable.insert?_types, same, SymbolTable.insert?_types]
  setValue? := fun same _ _ _ => by
    rw [SymbolTable.setValue?_types, same, SymbolTable.setValue?_types]

/-! ## Trees -/

open Analysis

/-- Checks that make the same types known. -/
abbrev Analysis.SameTypes {α : Type} (one other : Analysis α) : Prop := Concur .types one other

theorem Analysis.setValue_sameTypes (name value : String) :
    SameTypes (setValue name value) (pure ()) := by
  refine fun before counterpart alike => ⟨rfl, alike.scopes, ?_, alike.methods⟩
  exact (SymbolTable.setValue?_types ..).trans alike.symbols

/-- Statements with the same listing that make the same types known. -/
structure Statement.Alike (one other : Statement) : Prop where
  lower : ∀ methods exit, one.lower methods exit = other.lower methods exit
  check : ∀ returns breakable,
    SameTypes (one.check returns breakable) (other.check returns breakable)

/-- Lists of statements with the same listing that make the same types known. -/
structure Statement.AllAlike (some others : List Statement) : Prop where
  lower : ∀ methods exit,
    Statement.lowerAll methods exit some = Statement.lowerAll methods exit others
  check : ∀ returns breakable, SameTypes (Statement.checkAll returns breakable some)
    (Statement.checkAll returns breakable others)

/-- Clauses with the same listing that make the same types known. -/
structure Clause.Alike (one other : Clause) : Prop where
  lower : ∀ methods selector finish pending entered,
    one.lower methods selector finish pending entered =
      other.lower methods selector finish pending entered
  check : ∀ returns selector?,
    SameTypes (one.check returns selector?) (other.check returns selector?)

/-- Members that differ at most in the constants of declarations. -/
inductive Member.Alike : Member → Member → Prop
  | field {one other : Declaration} : one.Alike other → Alike (.field one) (.field other)
  | method {returnType : TypeName} {name : Token} {parameters : List (TypeName × Token)}
      {body otherBody : List Statement} : Statement.AllAlike body otherBody →
      Alike (.method ⟨returnType, name, parameters, body⟩)
        (.method ⟨returnType, name, parameters, otherBody⟩)
  | skipped : Alike .skipped .skipped

/-- Programs that differ at most in the constants of declarations. -/
inductive Program.Alike : Program → Program → Prop
  | statements {body otherBody : List Statement} : Statement.AllAlike body otherBody →
      Alike (.statements body) (.statements otherBody)
  | members {all others : List Member} : List.Forall₂ Member.Alike all others →
      Alike (.members all) (.members others)

/-- Recording a constant makes nothing known. -/
theorem Initializer.checkValue_sameTypes (name : Token) (declared : Bool)
    (initializer : Initializer) :
    SameTypes (initializer.checkValue name declared) initializer.value.check := by
  have value : SameTypes initializer.value.check initializer.value.check :=
    .of_agrees initializer.value.check_unlined
  obtain ⟨constant?, foreseen⟩ := initializer
  cases declared with
  | false => exact value
  | true =>
      cases constant? with
      | none => exact value
      | some constant =>
          have recorded : SameTypes (do setValue name.value constant.literalText; foreseen.check)
              (do pure (); foreseen.check) := (setValue_sameTypes _ _).bind fun _ => value
          exact recorded

namespace Declaration.Alike

variable {one other : Declaration}

theorem code (alike : one.Alike other) (methods : MethodTable) :
    one.code methods = other.code methods := by
  obtain ⟨type, name, initializer?⟩ := one
  obtain ⟨_, _, other?⟩ := other
  obtain ⟨rfl, rfl, value⟩ := alike
  match initializer?, other?, value with
  | none, none, _ => rfl
  | some ⟨_, value⟩, some ⟨_, otherValue⟩, same =>
      have same : value = otherValue := Option.some.inj same
      rw [same]
      rfl

theorem check (alike : one.Alike other) : SameTypes one.check other.check := by
  obtain ⟨type, name, initializer?⟩ := one
  obtain ⟨_, _, other?⟩ := other
  obtain ⟨rfl, rfl, value⟩ := alike
  have declares : SameTypes (declareVariable type name.value name.line)
      (declareVariable type name.value name.line) :=
    .of_agrees (declareVariable_agrees _ _ _ name.line)
  match initializer?, other?, value with
  | none, none, _ => exact declares.bind fun _ => .pure _
  | some ⟨constant?, value⟩, some ⟨otherConstant?, otherValue⟩, same =>
      have same : value = otherValue := Option.some.inj same
      subst same
      rw [check_some, check_some]
      refine declares.bind fun declared => ?_
      have silent (constant? : Option Token) : SameTypes
          (Initializer.checkValue name declared ⟨constant?, value⟩) value.check :=
        Initializer.checkValue_sameTypes _ _ _
      have recorded := (silent constant?).trans (silent otherConstant?).symm
      refine .bind (.of_agrees value.type?_unlined) fun found? => ?_
      cases found? with
      | none => exact recorded
      | some found =>
          exact .bind (.of_agrees (checkAssignment_agrees _ _ _ name.line)) fun _ => recorded

end Declaration.Alike

namespace LoopStart.Alike

variable {one other : LoopStart} (alike : one.Alike other)

include alike

theorem code (methods : MethodTable) : one.code methods = other.code methods := by
  cases alike with
  | same => rfl
  | declare alike => exact alike.code methods

theorem check : SameTypes one.check other.check := by
  cases alike with
  | same => exact .of_agrees one.check_unlined
  | declare alike => exact alike.check

end LoopStart.Alike

theorem Foreseen.checkCondition_sameTypes (condition : Foreseen) (context : String) :
    SameTypes (condition.checkCondition context) (condition.checkCondition context) :=
  .of_agrees (condition.checkCondition_unlined context)

theorem Statement.Alike.refl (statement : Statement) : statement.Alike statement :=
  ⟨fun _ _ => rfl, fun returns breakable => .of_agrees (statement.check_unlined returns breakable)⟩

namespace Statement.AllAlike

variable {one other : Statement} {some others : List Statement}

theorem nil : AllAlike [] [] := by
  refine ⟨fun _ _ => rfl, fun returns breakable => ?_⟩
  rw [checkAll]
  exact .pure ()

theorem cons (first : one.Alike other) (rest : AllAlike some others) :
    AllAlike (one :: some) (other :: others) := by
  refine ⟨fun methods exit => ?_, fun returns breakable => ?_⟩
  · rw [lowerAll, lowerAll, first.lower, rest.lower]
  · rw [checkAll, checkAll]
    exact (first.check _ _).bind fun _ => rest.check _ _

theorem refl (statements : List Statement) : AllAlike statements statements := by
  induction statements with
  | nil => exact .nil
  | cons statement rest ih => exact .cons (.refl statement) ih

end Statement.AllAlike

namespace Statement.Alike

variable {one other : Statement} (alike : one.Alike other)

theorem declare {one other : Declaration} (alike : one.Alike other) :
    (Statement.declare one).Alike (.declare other) := by
  refine ⟨fun methods exit => ?_, fun returns breakable => ?_⟩
  · rw [Statement.lower, Statement.lower, alike.code]
  · rw [Statement.check, Statement.check]
    exact alike.check

theorem block {body otherBody : List Statement} (alike : AllAlike body otherBody) :
    (Statement.block body).Alike (.block otherBody) := by
  refine ⟨fun methods exit => ?_, fun returns breakable => ?_⟩
  · rw [Statement.lower, Statement.lower, alike.lower]
  · rw [Statement.check, Statement.check]
    exact alike.check _ _

include alike

theorem whileLoop (condition : Foreseen) :
    (Statement.whileLoop condition one).Alike (.whileLoop condition other) := by
  refine ⟨fun methods exit => ?_, fun returns breakable => ?_⟩
  · rw [Statement.lower, Statement.lower]
    simp only [alike.lower]
  · rw [Statement.check, Statement.check]
    exact (condition.checkCondition_sameTypes _).bind fun _ => alike.check _ _

theorem ifThen (condition : Foreseen) :
    (Statement.ifThen condition one).Alike (.ifThen condition other) := by
  refine ⟨fun methods exit => ?_, fun returns breakable => ?_⟩
  · rw [Statement.lower, Statement.lower]
    simp only [alike.lower]
  · rw [Statement.check, Statement.check]
    exact (condition.checkCondition_sameTypes _).bind fun _ => alike.check _ _

theorem ifElse (condition : Foreseen) {no otherNo : Statement} (noAlike : no.Alike otherNo) :
    (Statement.ifElse condition one no).Alike (.ifElse condition other otherNo) := by
  refine ⟨fun methods exit => ?_, fun returns breakable => ?_⟩
  · rw [Statement.lower, Statement.lower]
    simp only [alike.lower, noAlike.lower]
  · rw [Statement.check, Statement.check]
    exact (condition.checkCondition_sameTypes _).bind fun _ =>
      (alike.check _ _).bind fun _ => noAlike.check _ _

theorem doWhile (condition? : Option Foreseen) :
    (Statement.doWhile one condition?).Alike (.doWhile other condition?) := by
  refine ⟨fun methods exit => ?_, fun returns breakable => ?_⟩
  · rw [Statement.lower, Statement.lower]
    simp only [alike.lower]
  · rw [check_doWhile, check_doWhile]
    refine (alike.check _ _).bind fun _ => ?_
    cases condition? with
    | none => exact .pure ()
    | some condition => exact condition.checkCondition_sameTypes _

theorem forLoop {start otherStart : LoopStart} (starts : start.Alike otherStart)
    (condition? : Option Foreseen) (step? : Option Assignment) :
    (Statement.forLoop start condition? step? one).Alike
      (.forLoop otherStart condition? step? other) := by
  refine ⟨fun methods exit => ?_, fun returns breakable => ?_⟩
  · cases condition? <;> cases step? <;> simp only [Statement.lower, alike.lower, starts.code]
  · rw [check_forLoop, check_forLoop]
    refine starts.check.bind fun _ => .bind ?_ fun _ => .bind ?_ fun _ => alike.check _ _
    · cases condition? with
      | none => exact .pure ()
      | some condition => exact condition.checkCondition_sameTypes _
    · cases step? with
      | none => exact .pure ()
      | some step => exact .of_agrees step.check_unlined

end Statement.Alike

theorem Clause.Alike.clause {body otherBody : List Statement} (test : Option Foreseen)
    (alike : Statement.AllAlike body otherBody) :
    (Clause.clause test body).Alike (.clause test otherBody) := by
  refine ⟨fun methods selector finish pending entered => ?_, fun returns selector? => ?_⟩
  · rw [Clause.lower, Clause.lower]
    cases test <;> simp only [alike.lower]
  · rw [check_clause, check_clause]
    refine .bind ?_ fun _ => alike.check _ _
    cases test with
    | none => exact .pure ()
    | some test => exact .of_agrees (test.checkCase_unlined selector?)

namespace Clause

variable {all others : List Clause} (alike : List.Forall₂ Clause.Alike all others)

include alike

theorem lowerAll_eq (methods : MethodTable) (selector finish : String) (pending : Option String)
    (entered : Bool) :
    lowerAll methods selector finish pending entered all =
      lowerAll methods selector finish pending entered others := by
  induction alike generalizing pending entered with
  | nil => rfl
  | cons first _ ih =>
      rw [lowerAll, lowerAll, first.lower]
      simp only [ih]

theorem checkAll_sameTypes (returns selector? : Option TypeName) :
    SameTypes (checkAll returns selector? all) (checkAll returns selector? others) := by
  induction alike with
  | nil =>
      rw [checkAll]
      exact .pure ()
  | cons first _ ih =>
      rw [checkAll, checkAll]
      exact (first.check _ _).bind fun _ => ih

end Clause

theorem Statement.Alike.switch (line number : Nat) (value : Foreseen) {all others : List Clause}
    (alike : List.Forall₂ Clause.Alike all others) :
    (Statement.switch line number value all).Alike (.switch line number value others) := by
  refine ⟨fun methods exit => ?_, fun returns breakable => ?_⟩
  · rw [Statement.lower, Statement.lower]
    simp only [Clause.lowerAll_eq alike]
  · rw [Statement.check, Statement.check]
    exact .bind (.of_agrees (value.checkSelector_unlined _ line _)) fun selector? =>
      Clause.checkAll_sameTypes alike returns selector?

/-- Loop headers that differ at most in the constant of a declaration. -/
abbrev Reading.SameHeader (one other : Reading.LoopHeader) : Prop :=
  one.1.Alike other.1 ∧ one.2 = other.2

/-- How statements are put together is compiled alike if their parts are. -/
theorem Statement.alike_congruence :
    Reading.Congruence Statement.Alike AllAlike Clause.Alike Reading.SameHeader where
  refl := Alike.refl
  clauseRefl := fun (.clause test body) => .clause test (.refl body)
  headerRefl _ := ⟨.same _, rfl⟩
  nil := .nil
  cons := .cons
  block := .block
  whileLoop condition _ _ alike := alike.whileLoop condition
  ifThen condition _ _ alike := alike.ifThen condition
  ifElse condition _ _ _ _ alike noAlike := alike.ifElse condition noAlike
  doWhile condition? _ _ alike := alike.doWhile condition?
  forLoop header alike := header.2 ▸ alike.forLoop header.1 _ _
  clauseOf test _ _ alike := .clause test alike
  switch line number value _ _ alike := .switch line number value alike

/-! ## Programs -/

theorem Member.lowerAll_eq {all others : List Member} (alike : List.Forall₂ Member.Alike all others)
    (methods : MethodTable) : lowerAll methods all = lowerAll methods others := by
  induction alike generalizing methods with
  | nil => rfl
  | cons first _ ih =>
      cases first with
      | field declared => rw [lowerAll, lowerAll, declared.code, ih]
      | method body =>
          rw [lowerAll, lowerAll]
          simp only [ih]
          exact congrArg (· >>= _) (body.lower _ _)
      | skipped => exact ih methods

theorem Member.Alike.check {one other : Member} (alike : one.Alike other) :
    SameTypes one.check other.check := by
  cases alike with
  | field declared => exact declared.check
  | @method returnType name parameters body otherBody alike =>
      refine .bind (.of_agrees (declareMethod_agrees _ _ 0)) fun _ =>
        .bind (.of_agrees (enter_agrees _)) fun _ => ?_
      refine .bind (.of_agrees (Method.declareParameters_unlined parameters)) fun _ => ?_
      exact (alike.check _ _).bind fun _ => .of_agrees exit_agrees
  | skipped => exact .pure ()

/-- How programs are put together is compiled alike if their statements are. -/
theorem Program.alike_congruence :
    Reading.ProgramCongruence Statement.AllAlike Member.Alike Program.Alike where
  refl := .refl
  memberRefl one := by
    cases one with
    | field declaration => exact .field (.refl declaration)
    | method method => exact .method (.refl method.body)
    | skipped => exact .skipped
  method _ _ _ _ _ alike := .method alike
  statements := .statements
  members := .members

namespace Program.Alike

variable {one other : Program} (alike : one.Alike other)

include alike

theorem lower : one.lower = other.lower := by
  cases alike with
  | statements body => rw [Program.lower, Program.lower, body.lower]
  | members all => rw [Program.lower, Program.lower, Member.lowerAll_eq all]

theorem check : SameTypes one.check other.check := by
  cases alike with
  | statements body => exact body.check _ _
  | members all =>
      induction all with
      | nil => exact .pure ()
      | cons first _ ih => exact first.check.bind fun _ => ih

/-- Programs that differ at most in the constants of declarations are compiled to the same. -/
theorem assemble : one.lower.assemble one.analyze.symbols =
    other.lower.assemble other.analyze.symbols := by
  have known : one.analyze.symbols.types = other.analyze.symbols.types :=
    (alike.check .initial .initial (.refl _)).2.symbols
  rw [Draft.assemble, Draft.assemble, alike.lower, Assembly.ofListing, Assembly.ofListing,
    SymbolTable.declarations_eq_of_types known]

end Program.Alike

end StackLang
