import StackLang.Lexeme.Scan
import StackLang.Proofs.Checking.Passing
import StackLang.Proofs.Loops.Desugaring
import StackLang.Proofs.Reading.Expression

/-!
# Probes

A probe tells the type of the expression ahead without a tree: it combines types while it
steps over the tokens, and gives up at the first type that is unknown.  It finds the type
that the preview of the expression has, and where the expression reads without complaint
this is the type that the check of the expression answers with.
-/

namespace StackLang

/-- A computation that reads ahead for a type. -/
abbrev Probe := StateT (List Token) Option

namespace Probe

/-- A step of a preview, whatever the reason is for which it gives up. -/
def step {α : Type} (preview : Preview α) : Probe α := fun tokens => (preview.run tokens).toOption

/-- Combine a type with at most `bound` operands of one level. -/
def chainFor (operators : List BinaryOperator) (operand : Probe TypeName) :
    Nat → TypeName → Probe TypeName
  | 0, _ => failure
  | bound + 1, left => do
      match ← step (Preview.eat? operators) with
      | none => return left
      | some (operator, _) =>
          let right ← operand
          let type ← liftM (operator.checkedAs.result? left right)
          chainFor operators operand bound type

/-- The type of operands joined by operators of one level. -/
def chain (operators : List BinaryOperator) (operand : Probe TypeName) : Probe TypeName := do
  let bound := (← get).length + 1
  chainFor operators operand bound (← operand)

variable (analyzer : Analyzer)

/-- The type of a name, a call, a literal or a group. -/
def primary (nested : Probe TypeName) : Probe TypeName := do
  if (← step (Preview.symbol? "(")).isSome then
    let inner ← nested
    if (← step (Preview.symbol? ")")).isSome then return inner else failure
  else
    match ← get with
    | [] => failure
    | token :: rest =>
        if token.isIdentifier then
          if rest.head?.any fun next => next.spells "(" then
            set (Preview.afterArguments 0 rest)
            liftM ((analyzer.method? token.value).map Signature.returnType)
          else
            set rest
            liftM (analyzer.lookup? token.value)
        else
          set rest
          liftM token.literalType?

/-- The type of an operand with an optional minus sign. -/
def negation (nested : Probe TypeName) : Probe TypeName := do
  match ← step (Preview.symbol? "-") with
  | some _ => do
      let operand ← primary analyzer nested
      liftM (Operator.sub.result? .int operand)
  | none => primary analyzer nested

/-- The type of operands of a sum. -/
def product (nested : Probe TypeName) : Probe TypeName :=
  chain [.mul, .div] (negation analyzer nested)

/-- The type of operands of a comparison. -/
def sum (nested : Probe TypeName) : Probe TypeName :=
  chain [.add, .sub] (product analyzer nested)

/-- The type of at most one comparison. -/
def relation (nested : Probe TypeName) : Probe TypeName := do
  let left ← sum analyzer nested
  match ← step (Preview.eat? Reading.comparisons) with
  | none => return left
  | some (operator, _) =>
      let right ← sum analyzer nested
      liftM (operator.checkedAs.result? left right)

/-- The type of a comparison behind at most `bound` exclamation marks. -/
def inversion (nested : Probe TypeName) : Nat → Probe TypeName
  | 0 => failure
  | bound + 1 => do
      match ← step (Preview.symbol? "!") with
      | some _ => do
          let operand ← inversion nested bound
          liftM (Operator.not.result? operand operand)
      | none => relation analyzer nested

/-- The type of operands of a disjunction. -/
def conjunction (nested : Probe TypeName) : Probe TypeName :=
  chain [.and] do inversion analyzer nested ((← get).length + 1)

/-- The type of an expression with at most `depth` levels of parentheses. -/
def expression : Nat → Probe TypeName
  | 0 => failure
  | depth + 1 => chain [.or] (conjunction analyzer (expression depth))

end Probe

/-- The type of the expression that the tokens start with. -/
def Analyzer.probe? (analyzer : Analyzer) (tokens : List Token) : Option TypeName :=
  ((Probe.expression analyzer (tokens.length + 1)).run tokens).map Prod.fst

namespace Probe

/-- What a probe sees of the outcome of a preview. -/
def outcome (analyzer : Analyzer) :
    Except Preview.Stop (Expr × List Token) → Option (TypeName × List Token)
  | .ok (expression, rest) => (analyzer.typeOf? expression).map fun type => (type, rest)
  | .error _ => none

/-- The probe sees what the preview shows. -/
def Follows (analyzer : Analyzer) (probe : Probe TypeName) (preview : Preview Expr) : Prop :=
  ∀ tokens, probe.run tokens = outcome analyzer (preview.run tokens)

variable {analyzer : Analyzer}

/-- Whatever the preview shows, its type is unknown. -/
def Unknown (analyzer : Analyzer) (preview : Preview Expr) : Prop :=
  Follows analyzer failure preview

namespace Follows

variable {probe : Probe TypeName} {preview : Preview Expr} {next : TypeName → Probe TypeName}
  {nextPreview : Expr → Preview Expr}

theorem pure {type : TypeName} {expression : Expr} (typed : analyzer.typeOf? expression = some type) :
    Follows analyzer (Pure.pure type) (Pure.pure expression) := by
  intro tokens
  show some (type, tokens) = (analyzer.typeOf? expression).map _
  rw [typed]
  rfl

/-- The end of a computation whose result may have no type. -/
theorem lift {type? : Option TypeName} {expression : Expr}
    (typed : analyzer.typeOf? expression = type?) :
    Follows analyzer (liftM type?) (Pure.pure expression) := by
  intro tokens
  show (type? >>= fun type => some (type, tokens)) = (analyzer.typeOf? expression).map _
  rw [typed]
  cases type? <;> rfl

theorem throw (reason : Preview.Stop) : Follows analyzer failure (MonadExcept.throw reason) :=
  fun _ => rfl

/-- A probe that goes on with a type follows a preview that goes on with a tree, if
nothing of a known type comes from a tree of unknown type. -/
theorem bind (first : Follows analyzer probe preview)
    (known : ∀ expression type, analyzer.typeOf? expression = some type →
      Follows analyzer (next type) (nextPreview expression))
    (unknown : ∀ expression, analyzer.typeOf? expression = none →
      Unknown analyzer (nextPreview expression)) :
    Follows analyzer (probe >>= next) (preview >>= nextPreview) := by
  intro tokens
  have run := first tokens
  rw [StateT.run_bind, StateT.run_bind, run]
  cases shown : preview.run tokens with
  | error reason => rfl
  | ok result =>
      obtain ⟨expression, rest⟩ := result
      cases typed : analyzer.typeOf? expression with
      | none =>
          show (Option.map _ (analyzer.typeOf? expression) >>= _) = _
          rw [typed]
          exact unknown expression typed rest
      | some type =>
          show (Option.map _ (analyzer.typeOf? expression) >>= _) = _
          rw [typed]
          exact known expression type typed rest

/-- Both take the same step. -/
theorem step {α : Type} {look : Preview α} {nextProbe : α → Probe TypeName}
    {nextPreview : α → Preview Expr}
    (second : ∀ answer, Follows analyzer (nextProbe answer) (nextPreview answer)) :
    Follows analyzer (Probe.step look >>= nextProbe) (look >>= nextPreview) := by
  intro tokens
  rw [StateT.run_bind, StateT.run_bind]
  show ((look.run tokens).toOption >>= _) = _
  cases look.run tokens with
  | error reason => rfl
  | ok result => exact second result.1 result.2

/-- The end of a computation that steps to the rest. -/
theorem word {rest : List Token} {type? : Option TypeName} {expression : Expr}
    (typed : analyzer.typeOf? expression = type?) :
    Follows analyzer (do set rest; liftM type?) (do set rest; return expression) := by
  intro tokens
  show (type? >>= fun type => some (type, rest)) = (analyzer.typeOf? expression).map _
  rw [typed]
  cases type? <;> rfl

/-- Both go on with the tokens that are left. -/
theorem get {nextProbe : List Token → Probe TypeName} {nextPreview : List Token → Preview Expr}
    (second : ∀ tokens, (nextProbe tokens).run tokens =
      outcome analyzer ((nextPreview tokens).run tokens)) :
    Follows analyzer (MonadState.get >>= nextProbe) (MonadState.get >>= nextPreview) :=
  second

end Follows

namespace Unknown

variable {preview : Preview Expr} {nextPreview : Expr → Preview Expr}

theorem pure {expression : Expr} (unknown : analyzer.typeOf? expression = none) :
    Unknown analyzer (Pure.pure expression) := by
  intro tokens
  show none = (analyzer.typeOf? expression).map _
  rw [unknown]
  rfl

theorem bind {α : Type} {look : Preview α} {nextPreview : α → Preview Expr}
    (unknown : ∀ answer, Unknown analyzer (nextPreview answer)) :
    Unknown analyzer (look >>= nextPreview) := by
  intro tokens
  rw [StateT.run_bind]
  cases look.run tokens with
  | error reason => rfl
  | ok result => exact unknown result.1 result.2

end Unknown

/-! ## The levels -/

variable {nested : Probe TypeName} {preview : Preview Expr}

theorem typeOf?_binary {left : Expr} {leftType : TypeName} (operator : BinaryOperator)
    (line : Nat) (right : Expr) (typed : analyzer.typeOf? left = some leftType) :
    analyzer.typeOf? (.binary operator line left right) =
      (analyzer.typeOf? right).bind (operator.checkedAs.result? leftType) := by
  rw [Analyzer.typeOf?, typed]
  rfl

theorem typeOf?_binary_none {left right : Expr} (operator : BinaryOperator) (line : Nat)
    (unknown : analyzer.typeOf? left = none ∨ analyzer.typeOf? right = none) :
    analyzer.typeOf? (.binary operator line left right) = none := by
  rw [Analyzer.typeOf?]
  rcases unknown with unknown | unknown
  · rw [unknown]
    rfl
  · rw [unknown]
    cases analyzer.typeOf? left <;> rfl

/-- Behind a left operand of unknown type everything is of unknown type. -/
theorem chainFor_unknown {operators : List BinaryOperator} (bound : Nat) {left : Expr}
    (unknown : analyzer.typeOf? left = none) :
    Unknown analyzer (Preview.chainFor operators preview bound left) := by
  induction bound generalizing left with
  | zero => exact .throw .exhausted
  | succ bound ih =>
      refine .bind fun found => ?_
      cases found with
      | none => exact .pure unknown
      | some found =>
          obtain ⟨operator, line⟩ := found
          exact .bind fun right => ih (typeOf?_binary_none operator line (.inl unknown))

theorem chainFor_follows {operators : List BinaryOperator} {operand : Probe TypeName}
    (follows : Follows analyzer operand preview) (bound : Nat) {left : Expr} {type : TypeName}
    (typed : analyzer.typeOf? left = some type) :
    Follows analyzer (chainFor operators operand bound type)
      (Preview.chainFor operators preview bound left) := by
  induction bound generalizing left type with
  | zero => exact .throw .exhausted
  | succ bound ih =>
      refine .step fun found => ?_
      cases found with
      | none => exact .pure typed
      | some found =>
          obtain ⟨operator, line⟩ := found
          refine follows.bind (fun right rightType rightTyped => ?_) fun right unknown =>
            chainFor_unknown bound (typeOf?_binary_none operator line (.inr unknown))
          have combined := typeOf?_binary operator line right typed
          rw [rightTyped, Option.bind_some] at combined
          intro tokens
          show ((operator.checkedAs.result? type rightType >>= fun type => some (type, tokens)) >>=
            fun result => (chainFor operators operand bound result.1).run result.2) = _
          cases result : operator.checkedAs.result? type rightType with
          | none =>
              rw [result] at combined
              exact chainFor_unknown bound combined tokens
          | some both =>
              rw [result] at combined
              exact ih combined tokens

theorem chain_follows (operators : List BinaryOperator) {operand : Probe TypeName}
    (follows : Follows analyzer operand preview) :
    Follows analyzer (chain operators operand) (Preview.chain operators preview) := by
  refine .get fun tokens => ?_
  exact follows.bind (fun _ _ typed => chainFor_follows follows _ typed)
    (fun _ unknown => chainFor_unknown _ unknown) tokens

theorem primary_follows (follows : Follows analyzer nested preview) :
    Follows analyzer (primary analyzer nested) (Preview.primary preview) := by
  refine .step fun opened => ?_
  cases opened with
  | some line =>
      refine follows.bind (fun inner type typed => .step fun closed => ?_) fun inner unknown =>
        .bind fun closed => ?_
      · cases closed with
        | none => exact .throw .mismatch
        | some line => exact .pure typed
      · cases closed with
        | none => exact .throw .mismatch
        | some line => exact .pure unknown
  | none =>
      refine .get fun tokens => ?_
      cases tokens with
      | nil => rfl
      | cons token rest =>
          dsimp only
          split
          · have called : analyzer.typeOf? (.call token []) =
                (analyzer.method? token.value).map Signature.returnType := rfl
            have named : analyzer.typeOf? (.name token) = analyzer.lookup? token.value := rfl
            split
            · exact Follows.word called (token :: rest)
            · exact Follows.word named (token :: rest)
          · have denoted : analyzer.typeOf? (.literal token) = token.literalType? := rfl
            split
            · exact Follows.word denoted (token :: rest)
            · next untyped =>
                rw [Option.not_isSome_iff_eq_none.mp untyped]
                rfl

theorem negation_follows (follows : Follows analyzer nested preview) :
    Follows analyzer (negation analyzer nested) (Preview.negation preview) := by
  refine .step fun minus => ?_
  cases minus with
  | none => exact primary_follows follows
  | some line =>
      refine (primary_follows follows).bind (fun operand type typed => .lift ?_)
        fun operand unknown => .pure ?_
      · rw [Analyzer.typeOf?, typed]
        rfl
      · rw [Analyzer.typeOf?, unknown]
        rfl

theorem sum_follows (follows : Follows analyzer nested preview) :
    Follows analyzer (sum analyzer nested) (Preview.sum preview) :=
  chain_follows _ (chain_follows _ (negation_follows follows))

theorem relation_follows (follows : Follows analyzer nested preview) :
    Follows analyzer (relation analyzer nested) (Preview.relation preview) := by
  have operand := sum_follows follows
  refine operand.bind (fun left leftType typed => .step fun found => ?_)
    fun left unknown => .bind fun found => ?_
  · cases found with
    | none => exact .pure typed
    | some found =>
        obtain ⟨operator, line⟩ := found
        refine operand.bind (fun right rightType rightTyped => .lift ?_)
          fun right unknown => .pure (typeOf?_binary_none operator line (.inr unknown))
        rw [typeOf?_binary operator line right typed, rightTyped, Option.bind_some]
  · cases found with
    | none => exact .pure unknown
    | some found =>
        obtain ⟨operator, line⟩ := found
        exact .bind fun right => .pure (typeOf?_binary_none operator line (.inl unknown))

theorem inversion_follows (follows : Follows analyzer nested preview) (bound : Nat) :
    Follows analyzer (inversion analyzer nested bound) (Preview.inversion preview bound) := by
  induction bound with
  | zero => exact .throw .exhausted
  | succ bound ih =>
      refine .step fun mark => ?_
      cases mark with
      | none => exact relation_follows follows
      | some line =>
          refine ih.bind (fun operand type typed => .lift ?_) fun operand unknown => .pure ?_
          · rw [Analyzer.typeOf?, typed]
            rfl
          · rw [Analyzer.typeOf?, unknown]
            rfl

theorem conjunction_follows (follows : Follows analyzer nested preview) :
    Follows analyzer (conjunction analyzer nested) (Preview.conjunction preview) :=
  chain_follows _ (.get fun tokens => inversion_follows follows (tokens.length + 1) tokens)

theorem expression_follows (analyzer : Analyzer) (depth : Nat) :
    Follows analyzer (expression analyzer depth) (Preview.expression depth) := by
  induction depth with
  | zero => exact .throw .exhausted
  | succ depth ih => exact chain_follows _ (conjunction_follows ih)

end Probe

namespace Analyzer

/-- A probe finds the type of the preview. -/
theorem probe?_eq (analyzer : Analyzer) (tokens : List Token) :
    analyzer.probe? tokens = (Expr.preview? tokens).bind analyzer.typeOf? := by
  rw [probe?, Expr.preview?, Expr.previewed,
    Probe.expression_follows analyzer (tokens.length + 1) tokens]
  cases (Preview.expression (tokens.length + 1)).run tokens with
  | error reason => rfl
  | ok result =>
      show Option.map Prod.fst (Option.map _ (analyzer.typeOf? result.1)) = _
      rw [Option.map_map]
      exact Option.map_id'

end Analyzer

namespace Expr

open Analysis

/-- Checking an expression changes no inferred type. -/
theorem typeOf?_behind (checked expression : Expr) (analyzer : Analyzer) :
    (checked.check.run analyzer).2.typeOf? expression = analyzer.typeOf? expression := by
  have alike : analyzer.Alike .whole (checked.check.run analyzer).2 :=
    (Analyzer.Alike.reports analyzer).expression checked analyzer (.refl _)
  exact Analyzer.typeOf?_congr (fun name => (alike.lookup? name).symm) alike.methods.symm expression

theorem combine_answer (operator : Operator) (line : Nat) (left? right? : Option TypeName)
    (analyzer : Analyzer) :
    ((combine operator line left? right?).run analyzer).1 =
      left?.bind fun left => right?.bind (operator.result? left) := by
  cases left? with
  | none => rfl
  | some left =>
      cases right? with
      | none => rfl
      | some right =>
          show ((if (operator.result? left right).isNone = true then _ else _ :
            Analysis (Option TypeName)).run analyzer).1 = operator.result? left right
          split <;> rfl

theorem checkCall_answer (name : String) (arguments : List (Option TypeName)) (line : Nat)
    (analyzer : Analyzer) :
    ((checkCall name arguments line).run analyzer).1 =
      (analyzer.method? name).map Signature.returnType := by
  have got : ((get : Analysis Analyzer).run analyzer) = (analyzer, analyzer) := rfl
  rw [checkCall, StateT.run_bind, got]
  dsimp only [bind, pure]
  cases analyzer.method? name with
  | none => rfl
  | some method =>
      dsimp only
      split <;> rfl

/-- A check answers with the inferred type, whatever errors it reports on the way. -/
theorem check_answer (expression : Expr) (analyzer : Analyzer) :
    (expression.check.run analyzer).1 = analyzer.typeOf? expression := by
  induction expression using Expr.skeleton.induct generalizing analyzer with
  | case1 => rw [Expr.check]; rfl
  | case2 token =>
      rw [Expr.check]
      show ((if token.isOutOfRange = true then _ else _ : Analysis (Option TypeName)).run
        analyzer).1 = token.literalType?
      split <;> rfl
  | case3 token =>
      rw [Expr.check]
      show ((if (analyzer.lookup? token.value).isNone = true then _ else _ :
        Analysis (Option TypeName)).run analyzer).1 = analyzer.lookup? token.value
      split <;> rfl
  | case4 callee arguments =>
      have alike : analyzer.Alike .whole ((Expr.checkAll arguments).run analyzer).2 :=
        (Analyzer.Alike.reports analyzer).expressions arguments analyzer (.refl _)
      rw [Expr.check]
      show ((checkCall callee.value _ callee.line).run
        ((Expr.checkAll arguments).run analyzer).2).1 = _
      rw [checkCall_answer, ← alike.method?, Analyzer.typeOf?]
  | case5 line operand ih =>
      rw [Expr.check]
      show ((combine .sub line (some .int) (operand.check.run analyzer).1).run _).1 = _
      rw [combine_answer, ih, Analyzer.typeOf?]
      rfl
  | case6 line operand ih =>
      rw [Expr.check]
      show ((combine .not line (operand.check.run analyzer).1 (operand.check.run analyzer).1).run
        _).1 = _
      rw [combine_answer, ih, Analyzer.typeOf?]
      cases analyzer.typeOf? operand <;> rfl
  | case7 operator line left right leftSame rightSame =>
      rw [Expr.check]
      show ((combine operator.checkedAs line (left.check.run analyzer).1
        (right.check.run (left.check.run analyzer).2).1).run _).1 = _
      rw [combine_answer, leftSame, rightSame, typeOf?_behind, Analyzer.typeOf?]
      rfl

end Expr

namespace Reading

/-- Where an expression reads without complaint, its check answers with the type that a
probe finds in front of it, and so does inference on its preview. -/
theorem expression_type_foreseen (before : Cursor) (analyzer : Analyzer)
    (clean : (expression.run before).2.errors = before.errors) :
    ((expression.run before).1.check.run analyzer).1 = analyzer.probe? before.rest ∧
      ((expression.run before).1.check.run analyzer).1 =
        (Expr.preview? before.rest).bind analyzer.typeOf? := by
  obtain ⟨-, -, shown⟩ := (expression_gives before (List.Subset.refl before.rest)).clean clean
  have found : ((expression.run before).1.check.run analyzer).1 =
      (Expr.preview? before.rest).bind analyzer.typeOf? := by
    rw [shown, Option.bind_some, Analyzer.typeOf?_skeleton, Expr.check_answer]
  exact ⟨found.trans (analyzer.probe?_eq before.rest).symm, found⟩

/-- The call is stepped over with its nested arguments, and the sum behind it is known. -/
theorem expression_type_foreseen_call :
    let before := Cursor.initial (tokenize "rate(f((1), \")\"), missing) * -2 >= 0x1F;")
    let analyzer : Analyzer :=
      { Analyzer.initial with methods := MethodTable.empty.declare ⟨.float, "rate", []⟩ }
    (expression.run before).2.errors = before.errors ∧
      ((expression.run before).1.check.run analyzer).1 = analyzer.probe? before.rest ∧
        analyzer.probe? before.rest = some .boolean := by
  intro before analyzer
  have clean : (expression.run before).2.errors = before.errors := by decide +kernel
  exact ⟨clean, (expression_type_foreseen before analyzer clean).1, by decide +kernel⟩

end Reading

end StackLang
