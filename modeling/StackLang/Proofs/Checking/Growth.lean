import StackLang.Proofs.Checking.Names
import StackLang.Proofs.Meaning.Discipline

/-!
# What checking makes sure of

Checking only adds to what the analyzer knows, so what a check makes sure of still
holds at its end.  From what the checks of expressions, stores and conditions make sure
of, this module derives it for statements, methods and programs.
-/

namespace StackLang

namespace SymbolTable

/-- The type of the variable with a name in a scope. -/
def type? (table : SymbolTable) (scope name : String) : Option TypeName :=
  (table.get? scope name).map Symbol.type

theorem type?_of_mem {table : SymbolTable} {symbol : Symbol} (member : symbol ∈ table.toList) :
    table.type? symbol.scope symbol.name = some symbol.type := by
  obtain ⟨⟨key, entry⟩, listed, rfl⟩ := List.mem_map.mp member
  have found : table.entries.get? key = some entry :=
    OrderedMap.lookup?_of_mem table.entries.distinct listed
  show (Option.map _ (table.entries.get? key)).map _ = _
  rw [found]
  rfl

theorem mem_of_type? {table : SymbolTable} {scope name : String} {type : TypeName}
    (declared : table.type? scope name = some type) :
    ∃ symbol ∈ table.toList, symbol.name = name ∧ symbol.type = type := by
  obtain ⟨symbol, found, rfl⟩ := Option.map_eq_some_iff.mp declared
  obtain ⟨entry, present, rfl⟩ := Option.map_eq_some_iff.mp found
  have key : (⟨scope, name⟩ : SymbolKey) ∈ table.keys := OrderedMap.mem_keys_of_get? present
  rw [← toList_keys] at key
  obtain ⟨listed, member, same⟩ := List.mem_map.mp key
  obtain ⟨rfl, rfl⟩ := SymbolKey.mk.inj same
  exact ⟨listed, member, rfl, Option.some.inj ((type?_of_mem member).symm.trans declared)⟩

theorem type?_of_insert? {table after : SymbolTable} {symbol : Symbol}
    (added : table.insert? symbol = some after) (scope name : String) :
    after.type? scope name =
      if symbol.scope = scope ∧ symbol.name = name then some symbol.type
      else table.type? scope name := by
  rw [type?, get?_of_insert? added]
  split
  · rfl
  · rfl

theorem type?_eq_none_iff {table : SymbolTable} {scope name : String} :
    table.type? scope name = none ↔ table.contains scope name = false := by
  rw [type?, get?, contains, OrderedMap.contains, Option.map_eq_none_iff, Option.map_eq_none_iff,
    Option.isSome_eq_false_iff, Option.isNone_iff_eq_none]

/-- A symbol is added where there was none. -/
theorem type?_of_insert?_fresh {table after : SymbolTable} {symbol : Symbol}
    (added : table.insert? symbol = some after) : table.type? symbol.scope symbol.name = none := by
  rw [type?_eq_none_iff]
  apply Bool.eq_false_iff.mpr
  intro taken
  rw [insert?_eq_none_iff.mpr taken] at added
  contradiction

theorem type?_of_setValue? {table after : SymbolTable} {changed other value : String}
    (replaced : table.setValue? changed other value = some after) (scope name : String) :
    after.type? scope name = table.type? scope name := by
  obtain ⟨entry, found, rfl⟩ := Option.map_eq_some_iff.mp replaced
  rw [type?, type?, get?, get?, OrderedMap.get?_insert]
  split
  · next same =>
      obtain ⟨rfl, rfl⟩ := SymbolKey.mk.inj same
      rw [found]
      rfl
  · rfl

end SymbolTable

/-- Everything that was known is known later on. -/
structure Analyzer.Grows (before after : Analyzer) : Prop where
  types : ∀ scope name type, before.symbols.type? scope name = some type →
    after.symbols.type? scope name = some type
  errors : ∀ error ∈ before.errors, error ∈ after.errors

namespace Analyzer.Grows

open Analysis

theorem refl (analyzer : Analyzer) : analyzer.Grows analyzer :=
  ⟨fun _ _ _ => id, fun _ => id⟩

theorem trans {before middle after : Analyzer} (front : before.Grows middle)
    (back : middle.Grows after) : before.Grows after :=
  ⟨fun scope name type known => back.types _ _ _ (front.types scope name type known),
    fun error known => back.errors _ (front.errors error known)⟩

variable {base : Analyzer}

theorem report (error : SemanticError) : Keeps base.Grows (Analysis.report error) :=
  fun _ grows => ⟨grows.types, fun other known => Array.mem_push_of_mem _ (grows.errors other known)⟩

theorem declare (type : TypeName) (name : String) (line : Nat) :
    Keeps base.Grows (declareVariable type name line) := by
  intro analyzer grows
  rw [declareVariable_run]
  split
  · next symbols added =>
      refine ⟨?_, grows.errors⟩
      intro scope other found known
      have before := grows.types scope other found known
      have fresh := SymbolTable.type?_of_insert?_fresh added
      show symbols.type? scope other = some found
      rw [SymbolTable.type?_of_insert? added, if_neg, before]
      rintro ⟨rfl, rfl⟩
      rw [fresh] at before
      contradiction
  · exact report _ analyzer grows

theorem setValue (name value : String) : Keeps base.Grows (Analysis.setValue name value) := by
  intro analyzer grows
  refine ⟨?_, grows.errors⟩
  intro scope other type known
  have before := grows.types scope other type known
  show ((analyzer.symbols.setValue? analyzer.scope name value).getD analyzer.symbols).type? _ _ = _
  cases replaced : analyzer.symbols.setValue? analyzer.scope name value with
  | none => exact before
  | some symbols => exact (SymbolTable.type?_of_setValue? replaced scope other).trans before

theorem invariant (base : Analyzer) (standard : TreeStandard) :
    CheckInvariant standard base.Grows where
  report := report
  declare type _ line _ := declare type _ line
  setValue := setValue
  select type line _ := declare type _ line

theorem enter (scope : String) : Keeps base.Grows (Analysis.enter scope) :=
  fun _ grows => ⟨grows.types, grows.errors⟩

theorem exit : Keeps base.Grows Analysis.exit :=
  fun _ grows => ⟨grows.types, grows.errors⟩

theorem declareMethod (signature : Signature) (line : Nat) :
    Keeps base.Grows (Analysis.declareMethod signature line) := by
  intro analyzer grows
  rw [declareMethod_run]
  split
  · exact ⟨grows.types, grows.errors⟩
  · exact report _ analyzer grows

theorem programInvariant (base : Analyzer) (standard : TreeStandard) :
    ProgramInvariant standard fun _ => base.Grows where
  toStatementInvariant := (invariant base standard).uncounted
  declareMethod signature line _ := declareMethod signature line
  enter _ _ := enter _
  exit _ := exit

theorem members {standard : TreeStandard} (members : List Member)
    (meets : ∀ member ∈ members, member.Meets standard) :
    Keeps base.Grows (Member.checkAll members) :=
  (programInvariant base standard).members members meets []

end Analyzer.Grows

namespace Analysis

/-- An action only adds to what is known. -/
def Adds (action : Analysis α) : Prop := ∀ base : Analyzer, Keeps base.Grows action

/-- With some methods declared, the action makes sure of a fact, if what is known after
it only grows up to the end. -/
def Ensures (methods : MethodTable) (final : Analyzer) (fact : Prop) (action : Analysis α) :
    Prop :=
  ∀ analyzer, analyzer.methods = methods → (action.run analyzer).2.Grows final → fact

/-- The action declares methods. -/
def Declares (before after : MethodTable) (action : Analysis α) : Prop :=
  ∀ analyzer : Analyzer, analyzer.methods = before → (action.run analyzer).2.methods = after

/-- No method is declared. -/
def KeepsMethods (action : Analysis α) : Prop := ∀ methods, Declares methods methods action

namespace Ensures

variable {α β γ : Type} {methods : MethodTable} {final : Analyzer} {fact other : Prop}
  {action : Analysis α} {next : α → Analysis β}

theorem first (ensures : Ensures methods final fact action) (adds : ∀ result, Adds (next result)) :
    Ensures methods final fact (action >>= next) := by
  intro analyzer known grows
  apply ensures analyzer known
  have added := adds (action.run analyzer).1 (action.run analyzer).2 _ (Analyzer.Grows.refl _)
  exact added.trans grows

theorem behind {after : MethodTable} (declares : Declares methods after action)
    (ensures : ∀ result, Ensures after final fact (next result)) :
    Ensures methods final fact (action >>= next) :=
  fun analyzer known => ensures _ _ (declares analyzer known)

theorem later (kept : KeepsMethods action)
    (ensures : ∀ result, Ensures methods final fact (next result)) :
    Ensures methods final fact (action >>= next) :=
  behind (kept methods) ensures

theorem both (first : Ensures methods final fact action)
    (second : Ensures methods final other action) :
    Ensures methods final (fact ∧ other) action :=
  fun analyzer known grows => ⟨first analyzer known grows, second analyzer known grows⟩

theorem imp (ensures : Ensures methods final fact action) (implied : fact → other) :
    Ensures methods final other action :=
  fun analyzer known grows => implied (ensures analyzer known grows)

theorem trivial : Ensures methods final True action :=
  fun _ _ _ => True.intro

theorem optionally {part : γ → Prop} {check : γ → Analysis Unit} {part? : Option γ}
    (ensures : ∀ value ∈ part?, Ensures methods final (part value) (check value)) :
    Ensures methods final (OptionRespects part part?) (Analysis.optionally check part?) := by
  intro analyzer known grows value present
  obtain rfl := Option.mem_def.mp present
  exact ensures value rfl analyzer known grows

end Ensures

theorem keepsMethods_declare (type : TypeName) (name : String) (line : Nat) :
    KeepsMethods (declareVariable type name line) := by
  intro methods analyzer known
  rw [declareVariable_run]
  split
  · exact known
  · exact known

theorem keepsMethods_invariant (standard : TreeStandard) (methods : MethodTable) :
    CheckInvariant standard fun analyzer => analyzer.methods = methods where
  report _ _ known := known
  declare type name line _ := keepsMethods_declare type name.value line methods
  setValue _ _ _ known := known
  select type line _ := keepsMethods_declare type _ line methods

theorem declares_declareMethod (methods : MethodTable) (signature : Signature) (line : Nat) :
    Declares methods (methods.declare signature) (declareMethod signature line) := by
  rintro analyzer rfl
  rw [declareMethod_run, MethodTable.declare]
  cases analyzer.methods.insert? signature with
  | none => rfl
  | some methods => rfl

/-- A method is declared before its body is checked. -/
theorem declares_method {standard : TreeStandard} (methods : MethodTable) (method : Method)
    (meets : method.Meets standard) :
    Declares methods (methods.declare method.signature) method.check := by
  intro analyzer known
  have declared := declares_declareMethod methods method.signature method.name.line analyzer known
  have body : Keeps (fun analyzer => analyzer.methods = methods.declare method.signature) (do
      Analysis.enter method.name.value
      Method.declareParameters method.parameters
      Statement.checkAll (some method.returnType) false method.body
      Analysis.exit) :=
    Keeps.bind (fun _ known => known) fun _ =>
      ((keepsMethods_invariant standard _).parameters method.parameters meets.2.1).bind fun _ =>
        ((keepsMethods_invariant standard _).statements _ false method.body meets.2.2).bind
          fun _ _ known => known
  exact body _ declared

end Analysis

mutual

/-- Whether nothing reads from the input. -/
def Statement.isQuiet : Statement → Bool
  | .read _ => false
  | .block body => Statement.allQuiet body
  | .whileLoop _ body | .ifThen _ body | .doWhile body _ | .forLoop _ _ _ body => body.isQuiet
  | .ifElse _ yes no => yes.isQuiet && no.isQuiet
  | .switch _ _ _ clauses => Clause.allQuiet clauses
  | _ => true

def Statement.allQuiet : List Statement → Bool
  | [] => true
  | statement :: rest => statement.isQuiet && Statement.allQuiet rest

def Clause.allQuiet : List Clause → Bool
  | [] => true
  | clause :: rest => clause.isQuiet && Clause.allQuiet rest

def Clause.isQuiet : Clause → Bool
  | .clause _ body => Statement.allQuiet body

end

def Member.isQuiet : Member → Bool
  | .method declared => Statement.allQuiet declared.body
  | _ => true

def Program.isQuiet : Program → Bool
  | .statements body => Statement.allQuiet body
  | .members all => all.all Member.isQuiet

/-- The checks of single actions make sure that these respect a discipline.  Reads are
asked for unless the program is silent. -/
structure CheckDiscipline (standard : TreeStandard) (final : Analyzer) (discipline : Discipline)
    (silent : Prop) (methods : MethodTable) : Prop where
  computes (expression : Expr) : expression.Meets standard →
    Analysis.Ensures methods final (expression.Computes discipline methods) expression.check
  tests (condition : Foreseen) (context : String) : condition.Meets standard →
    Analysis.Ensures methods final (condition.Tests discipline methods)
      (condition.checkCondition context)
  declares (declaration : Declaration) : declaration.Meets standard →
    Analysis.Ensures methods final (declaration.Respects discipline methods) declaration.check
  assigns (assignment : Assignment) : assignment.Meets standard →
    Analysis.Ensures methods final (assignment.Respects discipline methods) assignment.check
  reads (target : Token) : ¬ silent →
    Analysis.Ensures methods final
      (∀ environment line, discipline.holds environment →
        discipline.Stores target.value environment (.ofInput line))
      (Analysis.useVariable target.value target.line)
  selects (value : Foreseen) (line number : Nat) : value.Meets standard →
    Analysis.Ensures methods final
      (value.value.Respects discipline methods (discipline.Stores (selectorName number)))
      (value.checkSelector line number)

namespace CheckDiscipline

open Analysis

variable {standard : TreeStandard} {final : Analyzer} {discipline : Discipline} {silent : Prop}
  {methods : MethodTable}

theorem loopStart (checked : CheckDiscipline standard final discipline silent methods)
    (start : LoopStart) (meets : start.Meets standard) :
    Ensures methods final (start.Respects discipline methods) start.check := by
  cases start with
  | nothing => exact .trivial
  | declare declaration => exact checked.declares declaration meets
  | assign assignment => exact checked.assigns assignment meets

theorem case (checked : CheckDiscipline standard final discipline silent methods)
    (test : Foreseen) (selector? : Option TypeName) (meets : test.Meets standard) :
    Ensures methods final (test.value.Computes discipline methods) (test.checkCase selector?) := by
  have computes : Ensures methods final (test.value.Computes discipline methods) test.check :=
    (checked.computes test.value meets.2).first fun _ _ => Keeps.pure _
  cases selector? with
  | none => exact computes
  | some selector =>
      refine .later (fun _ => ReportInvariant.foreseenType test) fun type? => ?_
      cases type? with
      | none => exact computes
      | some found =>
          exact .later (fun methods => (keepsMethods_invariant standard methods).checkOperation _ _ _ _)
            fun _ => computes

mutual

/-- Checking a statement makes sure that it respects the discipline. -/
theorem statement (checked : CheckDiscipline standard final discipline silent methods)
    (returns : Option TypeName) (breakable : Bool) (statement : Statement)
    (meets : statement.Meets standard) (quiet : silent → statement.isQuiet = true) :
    Ensures methods final (statement.Respects discipline methods)
      (statement.check returns breakable) := by
  have grows := fun base : Analyzer => Analyzer.Grows.invariant base standard
  have keeps := keepsMethods_invariant standard
  cases statement with
  | skipped | leave | call => exact .trivial
  | declare declaration =>
      rw [Statement.check]
      exact checked.declares declaration meets
  | assign assignment =>
      rw [Statement.check]
      exact checked.assigns assignment meets
  | print endsLine value =>
      rw [Statement.check_print]
      apply Ensures.optionally
      intro expression present
      obtain rfl := Option.mem_def.mp present
      exact (checked.computes expression meets).first fun _ _ => Keeps.pure _
  | read target =>
      rw [Statement.check]
      exact (checked.reads target fun still => Bool.false_ne_true (quiet still)).first
        fun _ _ => Keeps.pure _
  | giveBack line value =>
      rw [Statement.check]
      cases value with
      | nothing | unknown => exact .trivial
      | value given =>
          apply (checked.computes given meets).first
          intro found? base
          cases returns with
          | none => exact Keeps.pure _
          | some expected => exact (grows base).checkReturnValue expected found? line
  | evaluate value =>
      rw [Statement.check]
      exact (checked.computes value meets).first fun _ _ => Keeps.pure _
  | block body =>
      rw [Statement.check]
      exact checked.statements returns breakable body meets quiet
  | whileLoop condition body =>
      rw [Statement.check]
      apply Ensures.both
      · exact (checked.tests condition _ meets.1).first fun _ base =>
          (grows base).statement returns true body meets.2
      · exact .later (fun methods => (keeps methods).condition condition _) fun _ =>
          checked.statement returns true body meets.2 quiet
  | ifThen condition yes =>
      rw [Statement.check]
      apply Ensures.both
      · exact (checked.tests condition _ meets.1).first fun _ base =>
          (grows base).statement returns breakable yes meets.2
      · exact .later (fun methods => (keeps methods).condition condition _) fun _ =>
          checked.statement returns breakable yes meets.2 quiet
  | ifElse condition yes no =>
      have quiet := fun still => Bool.and_eq_true_iff.mp (quiet still)
      rw [Statement.check]
      have branches : Ensures methods final
          (yes.Respects discipline methods ∧ no.Respects discipline methods)
          (do
            yes.check returns breakable
            no.check returns breakable) := by
        apply Ensures.both
        · exact (checked.statement returns breakable yes meets.2.1 fun still => (quiet still).1).first
            fun _ base => (grows base).statement returns breakable no meets.2.2
        · exact .later (fun methods => (keeps methods).statement returns breakable yes meets.2.1)
            fun _ => checked.statement returns breakable no meets.2.2 fun still => (quiet still).2
      apply Ensures.both
      · exact (checked.tests condition _ meets.1).first fun _ base =>
          ((grows base).statement returns breakable yes meets.2.1).bind fun _ =>
            (grows base).statement returns breakable no meets.2.2
      · exact .later (fun methods => (keeps methods).condition condition _) fun _ => branches
  | doWhile body condition =>
      have parts : body.Meets standard ∧ OptionMeets (Foreseen.Meets standard) condition := by
        cases condition with
        | none => exact ⟨meets.2, True.intro⟩
        | some condition => exact meets
      rw [Statement.check_doWhile]
      apply Ensures.both
      · exact (checked.statement returns true body parts.1 quiet).first fun _ base =>
          Keeps.optionally ((grows base).condition · _) condition
      · refine .later (fun methods => (keeps methods).statement returns true body parts.1) fun _ =>
          Ensures.optionally ?_
        intro test present
        obtain rfl := Option.mem_def.mp present
        exact checked.tests test _ parts.2
  | forLoop start condition step body =>
      obtain ⟨startMeets, conditionMeets, stepMeets, bodyMeets⟩ := meets
      rw [Statement.check_forLoop]
      apply Ensures.both
      · exact (checked.loopStart start startMeets).first fun _ base =>
          (Keeps.optionally ((grows base).condition · _) condition).bind fun _ =>
            (Keeps.optionally (grows base).assignment step).bind fun _ =>
              (grows base).statement returns true body bodyMeets
      refine .later (fun methods => (keeps methods).loopStart start startMeets) fun _ => ?_
      apply Ensures.both
      · refine Ensures.first (Ensures.optionally ?_) fun _ base =>
          (Keeps.optionally (grows base).assignment step).bind fun _ =>
            (grows base).statement returns true body bodyMeets
        intro test present
        obtain rfl := Option.mem_def.mp present
        exact checked.tests test _ conditionMeets
      refine .later (fun methods => Keeps.optionally ((keeps methods).condition · _) condition)
        fun _ => ?_
      apply Ensures.both
      · refine Ensures.first (Ensures.optionally ?_) fun _ base =>
          (grows base).statement returns true body bodyMeets
        intro assignment present
        obtain rfl := Option.mem_def.mp present
        exact checked.assigns assignment stepMeets
      · exact .later (fun methods => Keeps.optionally (keeps methods).assignment step) fun _ =>
          checked.statement returns true body bodyMeets quiet
  | switch line number value clauses =>
      rw [Statement.check]
      apply Ensures.both
      · exact (checked.selects value line number meets.1).first fun selector? base =>
          (grows base).clauses returns selector? clauses meets.2
      · exact .later (fun methods => (keeps methods).selector value line number) fun selector? =>
          checked.clauses returns selector? clauses meets.2 quiet
  | switchHead line number value =>
      rw [Statement.check]
      exact (checked.selects value line number meets.2).first fun _ _ => Keeps.pure _

theorem statements (checked : CheckDiscipline standard final discipline silent methods)
    (returns : Option TypeName) (breakable : Bool) (statements : List Statement)
    (meets : Statement.AllMeet standard statements)
    (quiet : silent → Statement.allQuiet statements = true) :
    Ensures methods final (Statement.AllRespect discipline methods statements)
      (Statement.checkAll returns breakable statements) := by
  cases statements with
  | nil => exact .trivial
  | cons statement rest =>
      have quiet := fun still => Bool.and_eq_true_iff.mp (quiet still)
      rw [Statement.checkAll]
      apply Ensures.both
      · exact (checked.statement returns breakable statement meets.1 fun still => (quiet still).1).first
          fun _ base => (Analyzer.Grows.invariant _ standard).statements returns breakable rest meets.2
      · exact .later (fun methods =>
            (keepsMethods_invariant standard methods).statement returns breakable statement meets.1)
          fun _ => checked.statements returns breakable rest meets.2 fun still => (quiet still).2

theorem clauses (checked : CheckDiscipline standard final discipline silent methods)
    (returns selector? : Option TypeName) (clauses : List Clause)
    (meets : Clause.AllMeet standard clauses)
    (quiet : silent → Clause.allQuiet clauses = true) :
    Ensures methods final (Clause.AllRespect discipline methods clauses)
      (Clause.checkAll returns selector? clauses) := by
  cases clauses with
  | nil => exact .trivial
  | cons clause rest =>
      have quiet := fun still => Bool.and_eq_true_iff.mp (quiet still)
      rw [Clause.checkAll]
      apply Ensures.both
      · exact (checked.clause returns selector? clause meets.1 fun still => (quiet still).1).first
          fun _ base => (Analyzer.Grows.invariant _ standard).clauses returns selector? rest meets.2
      · exact .later (fun methods =>
            (keepsMethods_invariant standard methods).clause returns selector? clause meets.1)
          fun _ => checked.clauses returns selector? rest meets.2 fun still => (quiet still).2

theorem clause (checked : CheckDiscipline standard final discipline silent methods)
    (returns selector? : Option TypeName) (clause : Clause) (meets : clause.Meets standard)
    (quiet : silent → clause.isQuiet = true) :
    Ensures methods final (clause.Respects discipline methods)
      (clause.check returns selector?) := by
  obtain ⟨test, body⟩ := clause
  rw [Clause.check_clause]
  apply Ensures.both
  · apply Ensures.first
    · apply Ensures.optionally
      intro test present
      obtain rfl := Option.mem_def.mp present
      exact checked.case test selector? meets.1
    · exact fun _ base => (Analyzer.Grows.invariant _ standard).statements returns true body meets.2
  · exact .later (fun methods =>
        Keeps.optionally ((keepsMethods_invariant standard methods).case · selector?) test)
      fun _ => checked.statements returns true body meets.2 quiet

end

theorem method {method : Method}
    (checked : CheckDiscipline standard final discipline silent
      (methods.declare method.signature))
    (meets : method.Meets standard) (quiet : silent → Statement.allQuiet method.body = true) :
    Ensures methods final
      (Statement.AllRespect discipline (methods.declare method.signature) method.body)
      method.check :=
  .behind (declares_declareMethod methods _ _) fun _ => .later (fun _ _ known => known) fun _ =>
    .later (fun methods => (keepsMethods_invariant standard methods).parameters _ meets.2.1) fun _ =>
      (checked.statements _ false method.body meets.2.2 quiet).first fun _ _ => Analyzer.Grows.exit

/-- Checking the members of a class, whatever methods are declared before. -/
theorem members (checked : ∀ methods, CheckDiscipline standard final discipline silent methods)
    (members : List Member) (meets : ∀ member ∈ members, member.Meets standard)
    (quiet : silent → ∀ member ∈ members, member.isQuiet = true) (methods : MethodTable) :
    Ensures methods final (Member.AllRespect discipline methods members)
      (Member.checkAll members) := by
  induction members generalizing methods with
  | nil => exact .trivial
  | cons member rest ih =>
      have first := meets member List.mem_cons_self
      have others : ∀ other ∈ rest, other.Meets standard := fun other listed =>
        meets other (List.mem_cons_of_mem _ listed)
      have still : silent → ∀ other ∈ rest, other.isQuiet = true := fun silence other listed =>
        quiet silence other (List.mem_cons_of_mem _ listed)
      have adds : Adds (Member.checkAll rest) := fun _ => Analyzer.Grows.members rest others
      cases member with
      | skipped => exact .later (fun _ _ known => known) fun _ => ih others still methods
      | field declaration =>
          apply Ensures.both
          · exact ((checked methods).declares declaration first).first fun _ => adds
          · exact .later (fun methods =>
                (keepsMethods_invariant standard methods).declaration declaration first)
              fun _ => ih others still methods
      | method declared =>
          apply Ensures.both
          · exact ((checked _).method first fun silence => quiet silence _ List.mem_cons_self).first
              fun _ => adds
          · exact .behind (declares_method methods declared first) fun _ => ih others still _

end CheckDiscipline

/-- A checked program respects a discipline if its single actions do. -/
theorem Program.respects_of_analyze {standard : TreeStandard} {discipline : Discipline}
    {silent : Prop} (program : Program) (meets : program.Meets standard)
    (quiet : silent → program.isQuiet = true)
    (checked : ∀ methods,
      CheckDiscipline standard program.analyze discipline silent methods) :
    program.Respects discipline := by
  cases program with
  | statements body =>
      exact (checked .empty).statements none false body meets quiet .initial rfl (.refl _)
  | members all =>
      exact CheckDiscipline.members checked all meets
        (fun still => List.all_eq_true.mp (quiet still)) .empty .initial rfl (.refl _)

end StackLang
