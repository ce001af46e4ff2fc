import StackLang.Analysis.Inference
import StackLang.Proofs.Grammar.Rendering
import StackLang.Proofs.Reading.Foresight

/-!
# Faults of expressions

What a check of an expression reports, told node by node: a node is judged by the types of
its operands, and the nodes come in the order in which an evaluation would reach them.
The type of an expression is unknown just if a node outside the arguments of calls has a
fault that hides its type.
-/

namespace StackLang

/-- Whether an error leaves the type of what it is about unknown. -/
def SemanticError.hidesType : SemanticError → Bool
  | .undeclared _ _ | .incompatibleTypes _ _ _ _ | .methodUndeclared _ _ => true
  | _ => false

/-- An operation on operands of known types that do not go together. -/
def Operator.faults (operator : Operator) (line : Nat) :
    Option TypeName → Option TypeName → List SemanticError
  | some left, some right =>
      if (operator.result? left right).isNone then [.incompatibleTypes left right operator line]
      else []
  | _, _ => []

theorem Operator.faults_unknown {operator : Operator} {line : Nat} {left? right? : Option TypeName}
    (unknown : left? = none ∨ right? = none) : operator.faults line left? right? = [] := by
  rcases unknown with rfl | rfl
  · rfl
  · cases left? <;> rfl

namespace Signature

/-- An argument of a known type that cannot be assigned to its parameter. -/
def argumentFault (method : Signature) (line index : Nat) (expected : TypeName) :
    Option TypeName → List SemanticError
  | some found =>
      if (Operator.assign.result? expected found).isNone then
        [.argumentMismatch method.name index expected found line]
      else []
  | none => []

/-- The faults of arguments, the first of which has the given index. -/
def argumentFaults (method : Signature) (line first : Nat) (parameters : List (TypeName × String))
    (types : List (Option TypeName)) : List SemanticError :=
  ((parameters.zip types).zipIdx first).flatMap fun (((expected, _), type?), index) =>
    method.argumentFault line index expected type?

/-- A call with a wrong number of arguments, or else its wrong arguments. -/
def faults (method : Signature) (line : Nat) (types : List (Option TypeName)) :
    List SemanticError :=
  if types.length ≠ method.parameters.length then
    [.arityMismatch method.name method.parameters.length types.length line]
  else method.argumentFaults line 1 method.parameters types

end Signature

namespace Expr

mutual

/-- The nodes of a tree, each behind its operands and arguments. -/
def postorder : Expr → List Expr
  | .missing => [.missing]
  | .literal token => [.literal token]
  | .name token => [.name token]
  | .call callee arguments => allPostorder arguments ++ [.call callee arguments]
  | .negate line operand => operand.postorder ++ [.negate line operand]
  | .invert line operand => operand.postorder ++ [.invert line operand]
  | .binary operator line left right =>
      left.postorder ++ right.postorder ++ [.binary operator line left right]

/-- The nodes of trees, one tree after another. -/
def allPostorder : List Expr → List Expr
  | [] => []
  | tree :: rest => tree.postorder ++ allPostorder rest

end

/-- The nodes of a tree that are not within arguments of a call. -/
def outer : Expr → List Expr
  | .missing => [.missing]
  | .literal token => [.literal token]
  | .name token => [.name token]
  | .call callee arguments => [.call callee arguments]
  | .negate line operand => operand.outer ++ [.negate line operand]
  | .invert line operand => operand.outer ++ [.invert line operand]
  | .binary operator line left right =>
      left.outer ++ right.outer ++ [.binary operator line left right]

/-- What an operator is applied to. -/
def operands : Expr → List Expr
  | .negate _ operand | .invert _ operand => [operand]
  | .binary _ _ left right => [left, right]
  | _ => []

/-- The faults of a node alone. -/
def ownFaults (analyzer : Analyzer) : Expr → List SemanticError
  | .missing => []
  | .literal token =>
      if token.literalType? = some .int ∧ (Numeral.int64? token.literalText).isNone then
        [.integerOutOfRange token.value token.line]
      else []
  | .name token =>
      if (analyzer.lookup? token.value).isNone then [.undeclared token.value token.line] else []
  | .call callee arguments =>
      match analyzer.method? callee.value with
      | none => [.methodUndeclared callee.value callee.line]
      | some method => method.faults callee.line (arguments.map analyzer.typeOf?)
  | .negate line operand => Operator.sub.faults line (some .int) (analyzer.typeOf? operand)
  | .invert line operand =>
      Operator.not.faults line (analyzer.typeOf? operand) (analyzer.typeOf? operand)
  | .binary operator line left right =>
      operator.checkedAs.faults line (analyzer.typeOf? left) (analyzer.typeOf? right)

/-- The faults of all nodes. -/
def faults (analyzer : Analyzer) (tree : Expr) : List SemanticError :=
  tree.postorder.flatMap (ownFaults analyzer)

end Expr

/-- The analyzer with further errors. -/
def Analyzer.knowing (analyzer : Analyzer) (errors : List SemanticError) : Analyzer :=
  { analyzer with errors := analyzer.errors ++ errors.toArray }

namespace Analysis

variable {α β : Type} {analyzer : Analyzer}

/-- Whatever errors are known already, the check has an answer and adds just the faults. -/
def Diagnoses (analyzer : Analyzer) (action : Analysis α) (answer : α)
    (faults : List SemanticError) : Prop :=
  ∀ known, action.run (analyzer.knowing known) = (answer, analyzer.knowing (known ++ faults))

namespace Diagnoses

variable {action : Analysis α} {next : α → Analysis β} {answer : α} {result : β}
  {faults later : List SemanticError}

theorem pure (answer : α) : Diagnoses analyzer (Pure.pure answer) answer [] := by
  intro known
  rw [List.append_nil]
  rfl

theorem bind (first : Diagnoses analyzer action answer faults)
    (second : Diagnoses analyzer (next answer) result later) :
    Diagnoses analyzer (action >>= next) result (faults ++ later) := by
  intro known
  show (next (action.run (analyzer.knowing known)).1).run (action.run _).2 = _
  rw [first known, second (known ++ faults), List.append_assoc]

/-- An answer made of that of a check. -/
theorem give (first : Diagnoses analyzer action answer faults) (result : α → β) :
    Diagnoses analyzer (do return result (← action)) (result answer) faults := by
  have both : Diagnoses analyzer (do return result (← action)) (result answer) (faults ++ []) :=
    first.bind (pure (result answer))
  rwa [List.append_nil] at both

theorem report (error : SemanticError) : Diagnoses analyzer (report error) () [error] := by
  intro known
  show ((), { analyzer with errors := (analyzer.errors ++ known.toArray).push error }) = _
  simp [Analyzer.knowing]

/-- An error under a condition comes before what follows. -/
theorem reportIf (condition : Prop) [Decidable condition] (error : SemanticError)
    (rest : Diagnoses analyzer action answer later) :
    Diagnoses analyzer (if condition then do
      Analysis.report error
      action else action) answer ((if condition then [error] else []) ++ later) := by
  split
  · exact (report error).bind rest
  · exact rest

theorem lastIf (condition : Prop) [Decidable condition] (error : SemanticError) (answer : α) :
    Diagnoses analyzer (if condition then do
      Analysis.report error
      Pure.pure answer else Pure.pure answer) answer (if condition then [error] else []) := by
  split
  · exact (report error).bind (pure answer)
  · exact pure answer

theorem useVariable (name : String) (line : Nat) :
    Diagnoses analyzer (useVariable name line) (analyzer.lookup? name)
      (if (analyzer.lookup? name).isNone then [.undeclared name line] else []) := by
  intro known
  exact lastIf ((analyzer.lookup? name).isNone = true) (.undeclared name line) _ known

theorem checkOperation (left right : TypeName) (operator : Operator) (line : Nat) :
    Diagnoses analyzer (checkOperation left right operator line) (operator.result? left right)
      (if (operator.result? left right).isNone then
        [.incompatibleTypes left right operator line] else []) :=
  lastIf _ _ _

/-- The type of an operation on operands that may be unknown. -/
theorem combine (operator : Operator) (line : Nat) (left? right? : Option TypeName) :
    Diagnoses analyzer (combine operator line left? right?)
      (left?.bind fun left => right?.bind (operator.result? left))
      (operator.faults line left? right?) := by
  cases left? with
  | none => exact pure none
  | some left =>
      cases right? with
      | none => exact pure none
      | some right => exact checkOperation left right operator line

theorem checkArguments (method : Signature) (line first : Nat)
    (parameters : List (TypeName × String)) (types : List (Option TypeName)) :
    Diagnoses analyzer (checkArguments method.name line first parameters types) ()
      (method.argumentFaults line first parameters types) := by
  induction parameters generalizing first types with
  | nil => exact pure ()
  | cons parameter parameters ih =>
      cases types with
      | nil => exact pure ()
      | cons type? types =>
          have others := ih (first + 1) types
          cases type? with
          | none => exact others
          | some found =>
              exact reportIf ((Operator.assign.result? parameter.1 found).isNone = true)
                (.argumentMismatch method.name first parameter.1 found line) others

theorem checkCall (name : String) (types : List (Option TypeName)) (line : Nat) :
    Diagnoses analyzer (checkCall name types line)
      ((analyzer.method? name).map Signature.returnType)
      (match analyzer.method? name with
        | none => [.methodUndeclared name line]
        | some method => method.faults line types) := by
  intro known
  show ((match analyzer.method? name with
    | none => _
    | some method => _ : Analysis (Option TypeName)).run (analyzer.knowing known)) = _
  cases analyzer.method? name with
  | none => exact (report (.methodUndeclared name line)).bind (pure none) known
  | some method =>
      dsimp only
      rw [Signature.faults]
      split
      · let mismatch : SemanticError :=
          .arityMismatch method.name method.parameters.length types.length line
        exact (report mismatch).give (fun _ => some method.returnType) known
      · exact (checkArguments method line 1 method.parameters types).give
          (fun _ => some method.returnType) known

end Diagnoses

end Analysis

namespace Expr

open Analysis

variable {analyzer : Analyzer}

theorem faults_behind {tree : Expr} {front : List Expr} (nodes : tree.postorder = front ++ [tree]) :
    tree.faults analyzer = front.flatMap (ownFaults analyzer) ++ tree.ownFaults analyzer := by
  rw [faults, nodes, List.flatMap_append, List.flatMap_singleton]

theorem faults_alone {tree : Expr} (node : tree.postorder = [tree]) :
    tree.faults analyzer = tree.ownFaults analyzer := by
  rw [faults, node, List.flatMap_singleton]

theorem ownFaults_literal (token : Token) :
    ownFaults analyzer (.literal token) =
      if token.isOutOfRange then [.integerOutOfRange token.value token.line] else [] := by
  simp only [ownFaults, Token.isOutOfRange, Bool.and_eq_true, beq_iff_eq]

theorem typeOf?_invert (line : Nat) (operand : Expr) :
    analyzer.typeOf? (.invert line operand) =
      (analyzer.typeOf? operand).bind fun left =>
        (analyzer.typeOf? operand).bind (Operator.not.result? left) := by
  rw [Analyzer.typeOf?]
  cases analyzer.typeOf? operand <;> rfl

mutual

/-- A check reports the faults of all nodes, in their order, and answers with the inferred type. -/
theorem check_diagnoses (tree : Expr) :
    Diagnoses analyzer tree.check (analyzer.typeOf? tree) (tree.faults analyzer) := by
  cases tree with
  | missing => exact .pure none
  | literal token =>
      rw [check, faults_alone (by rw [postorder]), ownFaults_literal]
      exact .lastIf (token.isOutOfRange = true) _ token.literalType?
  | name token =>
      rw [check, faults_alone (by rw [postorder])]
      exact .useVariable token.value token.line
  | call callee arguments =>
      rw [check, faults_behind (by rw [postorder])]
      exact (checkAll_diagnoses arguments).bind (.checkCall callee.value _ callee.line)
  | negate line operand =>
      rw [check, faults_behind (by rw [postorder])]
      exact (check_diagnoses operand).bind (.combine .sub line (some .int) _)
  | invert line operand =>
      rw [check, faults_behind (by rw [postorder]), typeOf?_invert]
      exact (check_diagnoses operand).bind (.combine .not line _ _)
  | binary operator line left right =>
      have first : Diagnoses analyzer left.check (analyzer.typeOf? left) (left.faults analyzer) :=
        check_diagnoses left
      rw [check, faults_behind (by rw [postorder]), List.flatMap_append, List.append_assoc]
      exact first.bind ((check_diagnoses right).bind (.combine operator.checkedAs line _ _))

theorem checkAll_diagnoses (trees : List Expr) :
    Diagnoses analyzer (checkAll trees) (trees.map analyzer.typeOf?)
      ((allPostorder trees).flatMap (ownFaults analyzer)) := by
  cases trees with
  | nil => exact .pure []
  | cons tree rest =>
      have others := (checkAll_diagnoses rest).give (analyzer.typeOf? tree :: ·)
      rw [allPostorder, List.flatMap_append, checkAll]
      exact (check_diagnoses tree).bind others

end

/-- A node has a fault of its own that leaves its type unknown. -/
def IsHidden (analyzer : Analyzer) (node : Expr) : Prop :=
  ∃ error ∈ node.ownFaults analyzer, error.hidesType = true

/-- An operation is of unknown type if an operand is, or else through its own fault. -/
theorem combined_eq_none_iff (operator : Operator) (line : Nat) (left? right? : Option TypeName) :
    (left?.bind fun left => right?.bind (operator.result? left)) = none ↔
      (left? = none ∨ right? = none) ∨
        ∃ error ∈ operator.faults line left? right?, error.hidesType = true := by
  cases left? with
  | none => simp
  | some left =>
      cases right? with
      | none => simp
      | some right =>
          cases result : operator.result? left right <;>
            simp [Operator.faults, result, SemanticError.hidesType]

/-- Wrong arguments do not hide the type of a call. -/
theorem not_hidesType_of_mem {method : Signature} {line : Nat} {types : List (Option TypeName)}
    {error : SemanticError} (member : error ∈ method.faults line types) :
    ¬ error.hidesType = true := by
  rw [Signature.faults] at member
  split at member
  · obtain rfl := List.mem_singleton.mp member
    exact Bool.false_ne_true
  · obtain ⟨⟨⟨⟨expected, name⟩, type?⟩, index⟩, -, fault⟩ := List.mem_flatMap.mp member
    cases type? with
    | none => exact absurd fault List.not_mem_nil
    | some found =>
        dsimp only [Signature.argumentFault] at fault
        split at fault
        · obtain rfl := List.mem_singleton.mp fault
          exact Bool.false_ne_true
        · contradiction

theorem isHidden_literal (token : Token) : ¬ (Expr.literal token).IsHidden analyzer := by
  rintro ⟨error, member, hides⟩
  rw [ownFaults_literal] at member
  split at member
  · obtain rfl := List.mem_singleton.mp member
    exact Bool.false_ne_true hides
  · contradiction

theorem isHidden_name (token : Token) :
    (Expr.name token).IsHidden analyzer ↔ analyzer.lookup? token.value = none := by
  rw [IsHidden, ownFaults]
  cases analyzer.lookup? token.value <;> simp [SemanticError.hidesType]

theorem isHidden_call (callee : Token) (arguments : List Expr) :
    (Expr.call callee arguments).IsHidden analyzer ↔ analyzer.method? callee.value = none := by
  rw [IsHidden, ownFaults]
  cases analyzer.method? callee.value with
  | none => simp [SemanticError.hidesType]
  | some method =>
      refine iff_of_false ?_ (Option.some_ne_none method)
      rintro ⟨error, member, hides⟩
      exact not_hidesType_of_mem member hides

/-- Among nodes and one node behind them. -/
theorem exists_mem_snoc {property : Expr → Prop} {front : List Expr} {last : Expr} :
    (∃ node ∈ front ++ [last], property node) ↔
      (∃ node ∈ front, property node) ∨ property last := by
  simp only [List.mem_append, List.mem_singleton, or_and_right, exists_or, exists_eq_left]

/-- The type of a tree without gaps is unknown if and only if a node of it, not within arguments
of a call, is hidden by its own fault. -/
theorem typeOf?_eq_none_iff {tree : Expr} (meets : tree.Meets .spelled) :
    analyzer.typeOf? tree = none ↔ ∃ node ∈ tree.outer, node.IsHidden analyzer := by
  induction tree using Expr.skeleton.induct with
  | case1 => exact meets.elim
  | case2 token =>
      have known : token.literalType? ≠ none :=
        Option.isSome_iff_ne_none.mp (token.literalType?_isSome meets)
      refine iff_of_false known ?_
      simp [outer, isHidden_literal]
  | case3 token => simp [outer, isHidden_name, Analyzer.typeOf?]
  | case4 callee arguments => simp [outer, isHidden_call, Analyzer.typeOf?]
  | case5 line operand ih =>
      have combined := combined_eq_none_iff .sub line (some .int) (analyzer.typeOf? operand)
      have unknown : (some TypeName.int = none ∨ analyzer.typeOf? operand = none) ↔
          analyzer.typeOf? operand = none := by simp
      rw [outer, exists_mem_snoc, ← ih meets]
      exact combined.trans (or_congr_left unknown)
  | case6 line operand ih =>
      have combined :=
        combined_eq_none_iff .not line (analyzer.typeOf? operand) (analyzer.typeOf? operand)
      rw [outer, exists_mem_snoc, ← ih meets, typeOf?_invert]
      exact combined.trans (or_congr_left or_self_iff)
  | case7 operator line left right leftIh rightIh =>
      have combined := combined_eq_none_iff operator.checkedAs line (analyzer.typeOf? left)
        (analyzer.typeOf? right)
      rw [outer, exists_mem_snoc]
      simp only [List.mem_append, or_and_right, exists_or, ← leftIh meets.1, ← rightIh meets.2]
      exact combined

/-- A node with an operand of unknown type has no fault. -/
theorem ownFaults_of_unknown {node operand : Expr} (member : operand ∈ node.operands)
    (unknown : analyzer.typeOf? operand = none) : node.ownFaults analyzer = [] := by
  cases node with
  | missing | literal | name | call => exact absurd member List.not_mem_nil
  | negate line inner | invert line inner =>
      obtain rfl := List.mem_singleton.mp member
      exact Operator.faults_unknown (.inr unknown)
  | binary operator line left right =>
      rcases List.mem_pair.mp member with rfl | rfl
      · exact Operator.faults_unknown (.inl unknown)
      · exact Operator.faults_unknown (.inr unknown)

end Expr

end StackLang
