import StackLang.Lexeme.Scan
import StackLang.Proofs.Checking.Silence
import StackLang.Proofs.Completeness.Assignment

/-!
# Compound assignments and their expansions

`Expands` relates the tokens of a compound assignment, or of a step by one, to those of the
plain assignment of an operation.  The two statements have the same code.  Their checks take
different ways, but in every state of the analyzer both report an error or neither does.
-/

namespace StackLang

open Analysis

/-- The tokens of a compound assignment or a step, and those of the assignment that it stands
for.  The tokens may stand on any lines. -/
inductive Expands : List Token → List Token → Prop
  | combine {operator : BinaryOperator} {tree : Expr} {tokens : List Token}
      {name combining ending target storing again sign opening closing finish : Token}
      (arithmetic : operator ∈ [.add, .sub, .mul, .div]) (named : name.isIdentifier = true)
      (combines : combining.spells (operator.symbol ++ "=") = true)
      (renders : tree.Renders 0 tokens) (ends : ending.spells ";" = true) (targeted : target.isIdentifier = true)
      (stores : storing.spells "=" = true) (repeated : again.isIdentifier = true)
      (signed : sign.spells operator.symbol = true) (opens : opening.spells "(" = true)
      (closes : closing.spells ")" = true) (finishes : finish.spells ";" = true)
      (sameTarget : target.value = name.value) (sameName : again.value = name.value) :
      Expands (name :: combining :: (tokens ++ [ending]))
        (target :: storing :: again :: sign :: opening :: (tokens ++ [closing, finish]))
  | step {operator : BinaryOperator}
      {name stepping ending target storing again sign one finish : Token}
      (steps : operator ∈ [.add, .sub]) (named : name.isIdentifier = true)
      (stepped : stepping.spells (operator.symbol ++ operator.symbol) = true)
      (ends : ending.spells ";" = true) (targeted : target.isIdentifier = true)
      (stores : storing.spells "=" = true) (repeated : again.isIdentifier = true)
      (signed : sign.spells operator.symbol = true) (number : one.kind = .integer)
      (single : one.value = "1") (finishes : finish.spells ";" = true)
      (sameTarget : target.value = name.value) (sameName : again.value = name.value) :
      Expands [name, stepping, ending] [target, storing, again, sign, one, finish]

/-! ## Checks -/

namespace Foreseen

/-- The preview shows the expression. -/
def Shows (value : Foreseen) (tree : Expr) : Prop :=
  value.preview = some tree.skeleton ∧ value.value = tree

theorem Shows.type? {value : Foreseen} {tree : Expr} (shown : value.Shows tree)
    (analyzer : Analyzer) : value.preview.bind analyzer.typeOf? = analyzer.typeOf? tree := by
  rw [shown.1, Option.bind_some, analyzer.typeOf?_skeleton]

end Foreseen

namespace Analysis

variable {analyzer : Analyzer} {target name : Token} {tree : Expr} {operator : BinaryOperator}

/-- Storing an expression that the preview shows is silent if the target is declared, the
expression is silent and what is stored goes together with the target. -/
theorem silent_storing {value : Foreseen} (shown : value.Shows tree)
    (operator? : Option BinaryOperator) :
    Silent (Assignment.check ⟨target, .store operator? value⟩) analyzer ↔
      ∃ type, analyzer.lookup? target.value = some type ∧
        (∀ found, analyzer.typeOf? tree = some found →
          ∃ stored result, storedType? operator? type found = some stored ∧
            Operator.assign.result? type stored = some result) ∧
          Silent tree.check analyzer := by
  simp only [silent_assignment, silent_store, shown.type?, shown.2]

theorem silent_stepping :
    Silent (Assignment.check ⟨target, .step operator⟩) analyzer ↔
      ∃ type, analyzer.lookup? target.value = some type ∧
        ∃ result, operator.checkedAs.result? type .int = some result := by
  simp only [silent_assignment]
  refine exists_congr fun type => and_congr_right fun _ => ?_
  exact silent_checkOperation type .int operator.checkedAs target.line

theorem typeOf?_operation {type : TypeName} (known : analyzer.lookup? name.value = some type)
    (operator : BinaryOperator) (line : Nat) (right : Expr) :
    analyzer.typeOf? (.binary operator line (.name name) right) =
      (analyzer.typeOf? right).bind (operator.checkedAs.result? type) := by
  rw [Analyzer.typeOf?, Analyzer.typeOf?, known]
  rfl

/-- The expansion of a compound assignment is silent exactly if the compound form is. -/
theorem silent_expansion {value whole : Foreseen} {line : Nat} {other : Token}
    (shown : value.Shows tree) (expanded : whole.Shows (.binary operator line (.name name) tree))
    (sameTarget : target.value = other.value) (sameName : name.value = other.value) :
    Silent (Assignment.check ⟨other, .store (some operator) value⟩) analyzer ↔
      Silent (Assignment.check ⟨target, .store none whole⟩) analyzer := by
  rw [silent_storing shown, silent_storing expanded, sameTarget]
  refine exists_congr fun type => and_congr_right fun known => ?_
  rw [← sameName] at known
  rw [silent_operation known, typeOf?_operation known]
  constructor
  · rintro ⟨storable, silent⟩
    refine ⟨fun result answer => ?_, silent, fun found answer => ?_⟩
    · obtain ⟨found, inferred, combined⟩ := Option.bind_eq_some_iff.mp answer
      obtain ⟨stored, last, same, admitted⟩ := storable found inferred
      obtain rfl := Option.some.inj (combined.symm.trans same)
      exact ⟨result, last, rfl, admitted⟩
    · obtain ⟨stored, _, combined, _⟩ := storable found answer
      exact ⟨stored, combined⟩
  · rintro ⟨storable, silent, valid⟩
    refine ⟨fun found answer => ?_, silent⟩
    obtain ⟨stored, combined⟩ := valid found answer
    obtain ⟨_, last, ⟨⟩, admitted⟩ :=
      storable stored (Option.bind_eq_some_iff.mpr ⟨found, answer, combined⟩)
    exact ⟨stored, last, combined, admitted⟩

/-- What comes of adding one to a variable or subtracting one from it can be stored in it. -/
theorem assignable_of_step (steps : operator ∈ [BinaryOperator.add, .sub]) {type stored : TypeName}
    (combined : operator.checkedAs.result? type .int = some stored) :
    ∃ result, Operator.assign.result? type stored = some result := by
  simp only [List.mem_cons, List.not_mem_nil, or_false] at steps
  rcases steps with rfl | rfl
  all_goals
    cases type <;> cases stored <;> first | exact ⟨_, rfl⟩ | exact absurd combined (by decide)

theorem silent_one (analyzer : Analyzer) {one : Token} (number : one.kind = .integer)
    (single : one.value = "1") :
    Silent (Expr.literal one).check analyzer ∧ one.literalType? = some .int := by
  obtain ⟨text, kind, line⟩ := one
  obtain rfl : kind = .integer := number
  obtain rfl : text = "1" := single
  have inRange : (Token.mk "1" .integer 0).isOutOfRange = false := by decide +kernel
  have silent : Silent (Expr.literal ⟨"1", .integer, line⟩).check analyzer ↔
      ¬(Token.mk "1" .integer line).isOutOfRange = true := by
    rw [Expr.check]
    exact silent_reportIf _ _
  exact ⟨silent.mpr (Bool.eq_false_iff.mp inRange), rfl⟩

/-- A step is silent exactly if its compound form is. -/
theorem silent_step {one : Token} {value : Foreseen} (steps : operator ∈ [BinaryOperator.add, .sub])
    (number : one.kind = .integer) (single : one.value = "1") (shown : value.Shows (.literal one)) :
    Silent (Assignment.check ⟨target, .step operator⟩) analyzer ↔
      Silent (Assignment.check ⟨target, .store (some operator) value⟩) analyzer := by
  obtain ⟨silent, typed⟩ := silent_one analyzer number single
  rw [silent_stepping, silent_storing shown]
  refine exists_congr fun type => and_congr_right fun _ => ?_
  rw [and_iff_left silent, Analyzer.typeOf?, typed]
  constructor
  · rintro ⟨stored, combined⟩ _ ⟨⟩
    obtain ⟨result, admitted⟩ := assignable_of_step steps combined
    exact ⟨stored, result, combined, admitted⟩
  · intro storable
    obtain ⟨stored, _, combined, _⟩ := storable .int rfl
    exact ⟨stored, combined⟩

end Analysis

/-! ## Statements -/

/-- The operator of a compound assignment. -/
theorem BinaryOperator.exists_compound {operator : BinaryOperator}
    (arithmetic : operator ∈ [.add, .sub, .mul, .div]) :
    ∃ compound : AssignmentOperator, operator.symbol ++ "=" = compound.symbol ∧
      compound.step? = none ∧ compound.arithmetic? = some operator := by
  simp only [List.mem_cons, List.not_mem_nil, or_false] at arithmetic
  rcases arithmetic with rfl | rfl | rfl | rfl
  · exact ⟨.add, by decide, rfl, rfl⟩
  · exact ⟨.sub, by decide, rfl, rfl⟩
  · exact ⟨.mul, by decide, rfl, rfl⟩
  · exact ⟨.div, by decide, rfl, rfl⟩

/-- The operator of a step. -/
theorem BinaryOperator.exists_step {operator : BinaryOperator} (steps : operator ∈ [.add, .sub]) :
    ∃ stepping : AssignmentOperator, operator.symbol ++ operator.symbol = stepping.symbol ∧
      stepping.step? = some operator := by
  simp only [List.mem_cons, List.not_mem_nil, or_false] at steps
  rcases steps with rfl | rfl
  · exact ⟨.increment, by decide, rfl⟩
  · exact ⟨.decrement, by decide, rfl⟩

/-- The compound form is read as an assignment with an operator or as a step, its expansion as an
assignment of the operation. -/
inductive Statement.ExpandsTo : Statement → Statement → Prop
  | combine {operator : BinaryOperator} {line : Nat} {name target again : Token} {tree : Expr}
      {value whole : Foreseen} (shown : value.Shows tree)
      (expanded : whole.Shows (.binary operator line (.name again) tree))
      (sameTarget : target.value = name.value) (sameName : again.value = name.value) :
      ExpandsTo (.assign ⟨name, .store (some operator) value⟩)
        (.assign ⟨target, .store none whole⟩)
  | step {operator : BinaryOperator} {line : Nat} {name target again one : Token}
      {whole : Foreseen} (steps : operator ∈ [.add, .sub]) (number : one.kind = .integer)
      (single : one.value = "1")
      (expanded : whole.Shows (.binary operator line (.name again) (.literal one)))
      (sameTarget : target.value = name.value) (sameName : again.value = name.value) :
      ExpandsTo (.assign ⟨name, .step operator⟩) (.assign ⟨target, .store none whole⟩)

namespace Statement.ExpandsTo

variable {brief full : Statement}

/-- Both have the same code. -/
theorem lower_eq (expands : brief.ExpandsTo full) (methods : MethodTable) (exit : Option String) :
    brief.lower methods exit = full.lower methods exit := by
  cases expands with
  | combine shown expanded sameTarget sameName =>
      rw [Statement.lower, Statement.lower]
      simp only [Assignment.code, shown.2, expanded.2, Expr.code, sameTarget, sameName,
        List.cons_append, List.nil_append, List.append_assoc]
  | @step operator line name target again one whole steps number single expanded sameTarget
      sameName =>
      have text : one.literalText = "1" := by
        rw [Token.literalText, number, single]
        decide +kernel
      rw [Statement.lower, Statement.lower]
      simp only [Assignment.code, expanded.2, Expr.code, sameTarget, sameName, text,
        List.cons_append, List.nil_append]

/-- In every state of the analyzer, either both report an error or neither does. -/
theorem reports_iff (expands : brief.ExpandsTo full) (returns : Option TypeName) (breakable : Bool)
    (analyzer : Analyzer) :
    ((brief.check returns breakable).run analyzer).2.errors ≠ analyzer.errors ↔
      ((full.check returns breakable).run analyzer).2.errors ≠ analyzer.errors := by
  have reports (assignment : Assignment) : OnlyReports assignment.check :=
    .of_invariant fun _ kept => kept.assignment assignment
  refine not_congr ?_
  cases expands with
  | combine shown expanded sameTarget sameName =>
      rw [Statement.check, Statement.check, (reports _).errors_eq_iff, (reports _).errors_eq_iff]
      exact silent_expansion shown expanded sameTarget sameName
  | @step operator line name target again one whole steps number single expanded sameTarget
      sameName =>
      have shown : (Foreseen.mk 0 (some (.literal one)) (.literal one)).Shows (.literal one) :=
        ⟨rfl, rfl⟩
      rw [Statement.check, Statement.check, (reports _).errors_eq_iff, (reports _).errors_eq_iff,
        silent_step steps number single shown]
      exact silent_expansion shown expanded sameTarget sameName

end Statement.ExpandsTo

namespace Reading

variable {tree : Expr} {tokens : List Token} {target sign ending : Token}
  {operator : AssignmentOperator}

/-- A statement that stores a rendered expression. -/
theorem storing_takes (nested : Reading Statement) (named : target.isIdentifier = true)
    (signed : sign.spells operator.symbol = true) (stores : operator.step? = none)
    (renders : tree.Renders 0 tokens) (ends : ending.spells ";" = true) (rest : List Token) :
    Takes (statementOf nested) (target :: sign :: (tokens ++ [ending])) rest fun statement =>
      ∃ value : Foreseen, value.Shows tree ∧
        statement = .assign ⟨target, .store operator.arithmetic? value⟩ := by
  have follows : Terminal.Opens expressionEnd (ending :: rest) :=
    Expr.opens_of_mem List.mem_cons_self ends
  have taken := store_takes named signed stores renders follows
  refine assignmentStatement_takes nested named signed ends taken ?_
  rintro _ ⟨value, rfl, shown⟩
  exact ⟨value, shown, rfl⟩

/-- The two forms are read as statements of which one is the expansion of the other. -/
theorem expands_takes {short long : List Token} (expands : Expands short long)
    (nested : Reading Statement) (rest behind : List Token) :
    ∃ brief full : Statement → Prop, Takes (statementOf nested) short rest brief ∧
      Takes (statementOf nested) long behind full ∧
      ∀ one other, brief one → full other → one.ExpandsTo other := by
  cases expands with
  | @combine operator tree tokens name combining ending target storing again sign opening closing
      finish arithmetic named combines renders ends targeted stores repeated signed opens closes
      finishes sameTarget sameName =>
      obtain ⟨compound, symbol, stored, combined⟩ := operator.exists_compound arithmetic
      have whole : Expr.Renders 0 _ ([again] ++ sign :: opening :: (tokens ++ [closing])) :=
        .binary (Nat.zero_le _) (.name repeated) signed (.group opens renders closes)
      have brief := storing_takes nested named (symbol ▸ combines) stored renders ends rest
      have full := storing_takes nested targeted
        (show storing.spells AssignmentOperator.store.symbol = true from stores) rfl whole finishes
        behind
      simp only [List.cons_append, List.nil_append, List.append_assoc] at full
      refine ⟨_, _, brief, full, ?_⟩
      rintro _ _ ⟨value, shown, rfl⟩ ⟨expanded, shows_whole, rfl⟩
      rw [combined]
      exact .combine shown shows_whole sameTarget sameName
  | @step operator name stepping ending target storing again sign one finish steps named stepped
      ends targeted stores repeated signed number single finishes sameTarget sameName =>
      obtain ⟨stepOperator, symbol, isStep⟩ := operator.exists_step steps
      have denotes : one.isLiteral = true := by
        rw [Token.isLiteral, number]
        rfl
      have whole : Expr.Renders 0 _ ([again] ++ sign :: [one]) :=
        .binary (Nat.zero_le _) (.name repeated) signed (.literal denotes)
      have taken : Takes assignment [name, stepping] (ending :: rest) _ :=
        step_takes named (symbol ▸ stepped) isStep
      have brief : Takes (statementOf nested) [name, stepping, ending] rest
          (· = .assign ⟨name, .step operator⟩) := by
        refine assignmentStatement_takes nested named (symbol ▸ stepped) ends taken ?_
        rintro _ rfl
        rfl
      have full := storing_takes nested targeted
        (show storing.spells AssignmentOperator.store.symbol = true from stores) rfl whole finishes
        behind
      refine ⟨_, _, brief, full, ?_⟩
      rintro _ _ rfl ⟨expanded, shows_whole, rfl⟩
      exact .step steps number single shows_whole sameTarget sameName

/-- A compound assignment or a step, and its expansion, are read without errors, wherever they
stand, as statements with the same code.  Whatever the state of the analyzer is, the check of one
reports an error if and only if the check of the other does. -/
theorem compound_expands {short long : List Token} (expands : Expands short long)
    (nested : Reading Statement) (before other : Cursor) (rest behind : List Token)
    (position : before.rest = short ++ rest) (place : other.rest = long ++ behind) :
    ∃ brief full after later,
      (statementOf nested).run before = (brief, after) ∧ after.rest = rest ∧
        after.errors = before.errors ∧
      (statementOf nested).run other = (full, later) ∧ later.rest = behind ∧
        later.errors = other.errors ∧
      (∀ methods exit, brief.lower methods exit = full.lower methods exit) ∧
      ∀ returns breakable analyzer,
        ((brief.check returns breakable).run analyzer).2.errors ≠ analyzer.errors ↔
          ((full.check returns breakable).run analyzer).2.errors ≠ analyzer.errors := by
  obtain ⟨_, _, first, second, related⟩ := expands_takes expands nested rest behind
  obtain ⟨found, unread, errors⟩ := first before position
  obtain ⟨foundOther, unreadOther, errorsOther⟩ := second other place
  have form := related _ _ found foundOther
  exact ⟨_, _, _, _, rfl, unread, errors, rfl, unreadOther, errorsOther, form.lower_eq,
    form.reports_iff⟩

/-- A product is added to a variable. -/
theorem compound_expands_product :
    let short := tokenize "x += 2 * y;"
    let long := tokenize "x = x + (2 * y);"
    Expands short long ∧
      ∃ brief full after later,
        (statementFor 1).run (Cursor.initial short) = (brief, after) ∧ after.rest = [] ∧
          after.errors = #[] ∧
        (statementFor 1).run (Cursor.initial long) = (full, later) ∧ later.rest = [] ∧
          later.errors = #[] ∧
        (∀ methods exit, brief.lower methods exit = full.lower methods exit) ∧
        ∀ returns breakable analyzer,
          ((brief.check returns breakable).run analyzer).2.errors ≠ analyzer.errors ↔
            ((full.check returns breakable).run analyzer).2.errors ≠ analyzer.errors := by
  intro short long
  let x : Token := ⟨"x", .identifier, 1⟩
  let two : Token := ⟨"2", .integer, 1⟩
  let times : Token := ⟨"*", .operator, 1⟩
  let y : Token := ⟨"y", .identifier, 1⟩
  let semicolon : Token := ⟨";", .delimiter, 1⟩
  have product := @Expr.Renders.binary 0 .mul _ _ times [two] [y] (by decide) (.literal rfl) rfl
    (.name rfl)
  have expands : Expands short long := by
    have first : short = x :: ⟨"+=", .operator, 1⟩ :: ([two, times, y] ++ [semicolon]) := by
      decide +kernel
    have second : long = x :: ⟨"=", .operator, 1⟩ :: x :: ⟨"+", .operator, 1⟩ ::
        ⟨"(", .delimiter, 1⟩ :: ([two, times, y] ++ [⟨")", .delimiter, 1⟩, semicolon]) := by
      decide +kernel
    rw [first, second]
    exact @Expands.combine .add _ _ _ _ _ _ _ _ _ _ _ _ (by decide) rfl (by decide) product rfl rfl
      rfl rfl rfl rfl rfl rfl rfl rfl
  clear_value short long
  refine ⟨expands, ?_⟩
  exact compound_expands expands (statementFor 0) _ _ [] [] (List.append_nil _).symm
    (List.append_nil _).symm

end Reading

end StackLang
