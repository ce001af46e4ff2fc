import Mathlib.Data.List.Forall2
import StackLang.Proofs.Code.Lowered

/-!
# Trees with the same code

Of a method the code of its calls shows the return type alone, and of a declaration the code
shows neither the type nor what was foreseen of the initial value.  Trees that differ in
nothing else have the same code, with all tables that have the same return types.
-/

namespace StackLang

/-- Both tables have the same methods with the same return types. -/
def MethodTable.SameReturns (one other : MethodTable) : Prop :=
  ∀ name, (one.get? name).map Signature.returnType = (other.get? name).map Signature.returnType

theorem MethodTable.get?_declare (table : MethodTable) (signature : Signature) (name : String) :
    (table.declare signature).get? name =
      (table.get? name).or (if signature.name = name then some signature else none) := by
  rw [declare, insert?]
  by_cases taken : table.entries.contains signature.name = true
  · rw [if_pos taken, Option.getD_none]
    split
    · next same =>
        obtain ⟨known, found⟩ := Option.isSome_iff_exists.mp (same ▸ taken)
        rw [get?, found, Option.some_or]
    · rw [Option.or_none]
  · rw [if_neg taken, Option.getD_some, get?, OrderedMap.get?_insert]
    split
    · next same =>
        have free : table.get? name = none := Option.not_isSome_iff_eq_none.mp (same ▸ taken)
        rw [free, Option.none_or]
    · rw [Option.or_none, get?]

namespace MethodTable.SameReturns

variable {one other : MethodTable}

theorem refl (table : MethodTable) : table.SameReturns table := fun _ => rfl

theorem callText (same : one.SameReturns other) (name : String) :
    one.callText name = other.callText name := by
  rw [MethodTable.callText, MethodTable.callText, same name]

theorem declare (same : one.SameReturns other) {signature counterpart : Signature}
    (names : signature.name = counterpart.name)
    (types : signature.returnType = counterpart.returnType) :
    (one.declare signature).SameReturns (other.declare counterpart) := by
  intro name
  rw [get?_declare, get?_declare, Option.map_or, Option.map_or, same name, names]
  split
  · rw [Option.map_some, Option.map_some, types]
  · rfl

end MethodTable.SameReturns

/-! ## Expressions, declarations and assignments -/

variable {methods others : MethodTable}

theorem Expr.code_congr (same : methods.SameReturns others) (expression : Expr) :
    expression.code methods = expression.code others := by
  induction expression using Expr.code.induct with
  | case1 => rfl
  | case2 token => rfl
  | case3 token => rfl
  | case4 callee arguments => rw [code, code, same.callText]
  | case5 line operand ih => rw [code, code, ih]
  | case6 line operand ih => rw [code, code, ih]
  | case7 operator line left right first second => rw [code, code, first, second]

/-- Expressions that are the same, whatever was foreseen of them. -/
def Foreseen.SameValue (one other : Foreseen) : Prop := one.value = other.value

section

variable (same : methods.SameReturns others) {one other : Foreseen} (values : one.SameValue other)

include same values

theorem Foreseen.code_congr : one.value.code methods = other.value.code others := by
  rw [show one.value = other.value from values, other.value.code_congr same]

theorem leaveUnless_congr (target : String) :
    leaveUnless methods one target = leaveUnless others other target := by
  rw [leaveUnless, leaveUnless, Foreseen.code_congr same values]

theorem repeatIf_congr (target : String) :
    repeatIf methods one target = repeatIf others other target := by
  rw [repeatIf, repeatIf, Foreseen.code_congr same values]

theorem caseTest_congr (selector : String) :
    caseTest methods selector one = caseTest others selector other := by
  rw [caseTest, caseTest, Foreseen.code_congr same values]

end

/-- Declarations with the same code. -/
def Declaration.SameCode (one other : Declaration) : Prop :=
  ∀ ⦃methods others : MethodTable⦄, methods.SameReturns others →
    one.code methods = other.code others

/-- Assignments with the same code. -/
def Assignment.SameCode (one other : Assignment) : Prop :=
  ∀ ⦃methods others : MethodTable⦄, methods.SameReturns others →
    one.code methods = other.code others

/-- Loop headers start with the same code. -/
def LoopStart.SameCode (one other : LoopStart) : Prop :=
  ∀ ⦃methods others : MethodTable⦄, methods.SameReturns others →
    one.code methods = other.code others

/-- Neither the type of a variable nor a constant gets into the code. -/
theorem Declaration.SameCode.initialized (type counterpart : TypeName) (name : Token)
    (constant? other? : Option Token) {one other : Foreseen} (values : one.SameValue other) :
    Declaration.SameCode ⟨type, name, some ⟨constant?, one⟩⟩
      ⟨counterpart, name, some ⟨other?, other⟩⟩ := by
  intro methods others same
  exact congrArg (· ++ _) (Foreseen.code_congr same values)

theorem Declaration.SameCode.plain (type counterpart : TypeName) (name : Token) :
    Declaration.SameCode ⟨type, name, none⟩ ⟨counterpart, name, none⟩ :=
  fun _ _ _ => rfl

namespace Assignment.SameCode

theorem unfinished (target : Token) : SameCode ⟨target, .unfinished⟩ ⟨target, .unfinished⟩ :=
  fun _ _ _ => rfl

theorem step (target : Token) (operator : BinaryOperator) :
    SameCode ⟨target, .step operator⟩ ⟨target, .step operator⟩ :=
  fun _ _ _ => rfl

theorem store (target : Token) (operator? : Option BinaryOperator) {one other : Foreseen}
    (values : one.SameValue other) :
    SameCode ⟨target, .store operator? one⟩ ⟨target, .store operator? other⟩ := by
  intro methods others same
  have code := Foreseen.code_congr same values
  cases operator? with
  | none => exact congrArg (· ++ _) code
  | some operator => exact congrArg (fun code => _ :: (code ++ _)) code

end Assignment.SameCode

theorem LoopStart.SameCode.nothing : LoopStart.SameCode .nothing .nothing := fun _ _ _ => rfl

theorem LoopStart.SameCode.declare {one other : Declaration} (alike : one.SameCode other) :
    LoopStart.SameCode (.declare one) (.declare other) := alike

theorem LoopStart.SameCode.assign {one other : Assignment} (alike : one.SameCode other) :
    LoopStart.SameCode (.assign one) (.assign other) := alike

theorem Returned.code_congr (same : methods.SameReturns others) (value : Returned) :
    value.code methods = value.code others := by
  cases value with
  | nothing | unknown => rfl
  | value given => exact given.code_congr same

/-! ## Statements -/

/-- Statements with the same listing. -/
def Statement.SameCode (one other : Statement) : Prop :=
  ∀ ⦃methods others : MethodTable⦄, methods.SameReturns others → ∀ exit,
    one.lower methods exit = other.lower others exit

/-- Clauses with the same listing. -/
def Clause.SameCode (one other : Clause) : Prop :=
  ∀ ⦃methods others : MethodTable⦄, methods.SameReturns others →
    ∀ selector finish pending entered, one.lower methods selector finish pending entered =
      other.lower others selector finish pending entered

theorem Statement.lowerAll_congr {all counterparts : List Statement}
    (alike : List.Forall₂ SameCode all counterparts) (same : methods.SameReturns others)
    (exit : Option String) : lowerAll methods exit all = lowerAll others exit counterparts := by
  induction alike with
  | nil => rfl
  | cons first _ ih => rw [lowerAll, lowerAll, first same, ih]

theorem Clause.lowerAll_congr {all counterparts : List Clause}
    (alike : List.Forall₂ SameCode all counterparts) (same : methods.SameReturns others)
    (selector finish : String) (pending : Option String) (entered : Bool) :
    lowerAll methods selector finish pending entered all =
      lowerAll others selector finish pending entered counterparts := by
  induction alike generalizing pending entered with
  | nil => rfl
  | cons first _ ih =>
      rw [lowerAll, lowerAll, first same]
      simp only [ih]

namespace Statement.SameCode

theorem skipped : SameCode .skipped .skipped := fun _ _ _ _ => by rw [lower, lower]

theorem declare {one other : Declaration} (alike : one.SameCode other) :
    SameCode (.declare one) (.declare other) := by
  intro methods others same exit
  rw [lower, lower, alike same]

theorem assign {one other : Assignment} (alike : one.SameCode other) :
    SameCode (.assign one) (.assign other) := by
  intro methods others same exit
  rw [lower, lower, alike same]

theorem call (callee : Token) (arguments : List Expr) :
    SameCode (.call callee arguments) (.call callee arguments) :=
  fun _ _ _ _ => by rw [lower, lower]

theorem print (endsLine : Bool) (value : Option Expr) :
    SameCode (.print endsLine value) (.print endsLine value) := by
  intro methods others same exit
  cases value <;> simp only [lower, Expr.code_congr same]

theorem read (target : Token) : SameCode (.read target) (.read target) :=
  fun _ _ _ _ => by rw [lower, lower]

theorem leave (line : Nat) : SameCode (.leave line) (.leave line) :=
  fun _ _ _ _ => by rw [lower, lower]

theorem giveBack (line : Nat) (value : Returned) :
    SameCode (.giveBack line value) (.giveBack line value) := by
  intro methods others same exit
  rw [lower, lower, value.code_congr same]

theorem evaluate (value : Expr) : SameCode (.evaluate value) (.evaluate value) := by
  intro methods others same exit
  rw [lower, lower, value.code_congr same]

theorem block {body otherBody : List Statement} (alike : List.Forall₂ SameCode body otherBody) :
    SameCode (.block body) (.block otherBody) := by
  intro methods others same exit
  rw [lower, lower, lowerAll_congr alike same]

section

variable {condition counterpart : Foreseen} (conditions : condition.SameValue counterpart)
  {body otherBody : Statement} (bodies : body.SameCode otherBody)

include conditions bodies

theorem whileLoop : SameCode (.whileLoop condition body) (.whileLoop counterpart otherBody) := by
  intro methods others same exit
  simp only [lower, bodies same, leaveUnless_congr same conditions]

theorem ifThen : SameCode (.ifThen condition body) (.ifThen counterpart otherBody) := by
  intro methods others same exit
  simp only [lower, bodies same, leaveUnless_congr same conditions]

theorem ifElse {no otherNo : Statement} (alternatives : no.SameCode otherNo) :
    SameCode (.ifElse condition body no) (.ifElse counterpart otherBody otherNo) := by
  intro methods others same exit
  simp only [lower, bodies same, alternatives same, leaveUnless_congr same conditions]

end

theorem doWhile {condition? counterpart? : Option Foreseen}
    (conditions : Option.Rel Foreseen.SameValue condition? counterpart?)
    {body otherBody : Statement} (bodies : body.SameCode otherBody) :
    SameCode (.doWhile body condition?) (.doWhile otherBody counterpart?) := by
  intro methods others same exit
  cases conditions with
  | none => simp only [lower, bodies same]
  | some values => simp only [lower, bodies same, repeatIf_congr same values]

theorem forLoop {start otherStart : LoopStart} (starts : start.SameCode otherStart)
    {condition? counterpart? : Option Foreseen}
    (conditions : Option.Rel Foreseen.SameValue condition? counterpart?)
    {step? otherStep? : Option Assignment}
    (steps : Option.Rel Assignment.SameCode step? otherStep?)
    {body otherBody : Statement} (bodies : body.SameCode otherBody) :
    SameCode (.forLoop start condition? step? body)
      (.forLoop otherStart counterpart? otherStep? otherBody) := by
  intro methods others same exit
  cases conditions with
  | none =>
      cases steps with
      | none => simp only [lower, bodies same, starts same]
      | some alike => simp only [lower, bodies same, starts same, alike same]
  | some values =>
      cases steps with
      | none => simp only [lower, bodies same, starts same, leaveUnless_congr same values]
      | some alike =>
          simp only [lower, bodies same, starts same, alike same, leaveUnless_congr same values]

theorem switch (line number : Nat) {value counterpart : Foreseen}
    (values : value.SameValue counterpart) {clauses others : List Clause}
    (alike : List.Forall₂ Clause.SameCode clauses others) :
    SameCode (.switch line number value clauses) (.switch line number counterpart others) := by
  intro methods others same exit
  simp only [lower, Clause.lowerAll_congr alike same, Foreseen.code_congr same values]

theorem switchHead (line number : Nat) {value counterpart : Foreseen}
    (values : value.SameValue counterpart) :
    SameCode (.switchHead line number value) (.switchHead line number counterpart) := by
  intro methods others same exit
  simp only [lower, Foreseen.code_congr same values]

end Statement.SameCode

theorem Clause.SameCode.clause {test? counterpart? : Option Foreseen}
    (tests : Option.Rel Foreseen.SameValue test? counterpart?)
    {body otherBody : List Statement} (bodies : List.Forall₂ Statement.SameCode body otherBody) :
    Clause.SameCode (.clause test? body) (.clause counterpart? otherBody) := by
  intro methods others same selector finish pending entered
  cases tests with
  | none => simp only [lower, Statement.lowerAll_congr bodies same]
  | some values =>
      simp only [lower, Statement.lowerAll_congr bodies same, caseTest_congr same values]

/-! ## Programs -/

/-- Methods with the same listing whose calls have the same code. -/
structure Method.SameCode (one other : Method) : Prop where
  name : one.name = other.name
  returnType : one.returnType = other.returnType
  body : List.Forall₂ Statement.SameCode one.body other.body

/-- Members with the same listing. -/
inductive Member.SameCode : Member → Member → Prop
  | field {one other : Declaration} : one.SameCode other → SameCode (.field one) (.field other)
  | method {one other : Method} : one.SameCode other → SameCode (.method one) (.method other)
  | skipped : SameCode .skipped .skipped

theorem Member.lowerAll_congr {all counterparts : List Member}
    (alike : List.Forall₂ SameCode all counterparts) (same : methods.SameReturns others) :
    lowerAll methods all = lowerAll others counterparts := by
  induction alike generalizing methods others with
  | nil => rfl
  | cons first _ ih =>
      cases first with
      | field declared => rw [lowerAll, lowerAll, declared same, ih same]
      | @method one other alike =>
          have declared : (methods.declare one.signature).SameReturns
              (others.declare other.signature) :=
            same.declare (congrArg Token.value alike.name) alike.returnType
          simp only [lowerAll, ih declared, Statement.lowerAll_congr alike.body declared]
      | skipped => exact ih same

/-- Programs with the same listing. -/
inductive Program.SameCode : Program → Program → Prop
  | statements {body otherBody : List Statement} : List.Forall₂ Statement.SameCode body otherBody →
      SameCode (.statements body) (.statements otherBody)
  | members {all others : List Member} : List.Forall₂ Member.SameCode all others →
      SameCode (.members all) (.members others)

theorem Program.SameCode.lower {one other : Program} (alike : one.SameCode other) :
    one.lower = other.lower := by
  cases alike with
  | statements bodies =>
      rw [Program.lower, Program.lower, Statement.lowerAll_congr bodies (.refl _)]
  | members alike => rw [Program.lower, Program.lower, Member.lowerAll_congr alike (.refl _)]

end StackLang
