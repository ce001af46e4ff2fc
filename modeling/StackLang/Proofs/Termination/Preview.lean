import StackLang.Grammar.Preview

/-!
# Previews never use up their bounds

A preview may find that the tokens do not fit, and that is the only way in which it is
given up.  Each operator and each exclamation mark that it steps over is a token less,
and so is each opening parenthesis.
-/

namespace StackLang

namespace Preview

variable {α β : Type} {size : Nat} {tokens : List Token} {nested operand : Preview Expr}

/-- The preview steps forward to a result, or the tokens do not fit. -/
def Fits (preview : Preview α) (tokens : List Token) (reached : α → List Token → Prop) : Prop :=
  match preview.run tokens with
  | .ok (result, rest) => rest.length ≤ tokens.length ∧ reached result rest
  | .error stop => stop = .mismatch

/-- On fewer than `size` tokens the bounds of the preview are enough. -/
def Below (size : Nat) (preview : Preview α) : Prop :=
  ∀ tokens : List Token, tokens.length < size → Fits preview tokens fun _ _ => True

namespace Fits

variable {reached : α → List Token → Prop} {final : β → List Token → Prop}

theorem pure {result : α} (arrives : reached result tokens) :
    Fits (Pure.pure result) tokens reached :=
  ⟨Nat.le_refl _, arrives⟩

theorem mismatch : Fits (throw .mismatch) tokens reached := rfl

theorem bind {preview : Preview α} {next : α → Preview β} (first : Fits preview tokens reached)
    (second : ∀ result rest, rest.length ≤ tokens.length → reached result rest →
      Fits (next result) rest final) :
    Fits (preview >>= next) tokens final := by
  unfold Fits at first ⊢
  rw [StateT.run_bind]
  cases run : preview.run tokens with
  | error stop =>
      rw [run] at first
      exact first
  | ok pair =>
      obtain ⟨result, rest⟩ := pair
      rw [run] at first
      have onward := second result rest first.1 first.2
      unfold Fits at onward
      show match (next result).run rest with
        | .ok (result, rest) => rest.length ≤ tokens.length ∧ final result rest
        | .error stop => stop = .mismatch
      split
      · next whole =>
          rw [whole] at onward
          exact ⟨Nat.le_trans onward.1 first.1, onward.2⟩
      · next whole =>
          rw [whole] at onward
          exact onward

theorem get {next : List Token → Preview β} (rest : Fits (next tokens) tokens final) :
    Fits (do next (← MonadState.get)) tokens final :=
  rest

theorem ite {condition : Prop} [Decidable condition] {yes no : Preview α}
    (holds : Fits yes tokens reached) (fails : Fits no tokens reached) :
    Fits (if condition then yes else no) tokens reached := by
  split
  · exact holds
  · exact fails

/-- Stepping forward to other tokens. -/
theorem set {rest : List Token} {result : α} (shorter : rest.length ≤ tokens.length)
    (arrives : reached result rest) :
    Fits (do MonadState.set rest; return result) tokens reached :=
  ⟨shorter, arrives⟩

end Fits

/-- An operator that is stepped over is a token less. -/
theorem eat?_fits (symbols : List BinaryOperator) (tokens : List Token) :
    Fits (eat? symbols) tokens fun found rest =>
      found.isSome = true → rest.length < tokens.length := by
  cases tokens with
  | nil => exact ⟨Nat.le_refl _, nofun⟩
  | cons token rest =>
      refine .get ?_
      dsimp only
      split
      · exact .pure nofun
      · exact .set (Nat.le_succ _) fun _ => Nat.lt_succ_self _

theorem symbol?_fits (symbol : String) (tokens : List Token) :
    Fits (symbol? symbol) tokens fun found rest =>
      found.isSome = true → rest.length < tokens.length := by
  cases tokens with
  | nil => exact ⟨Nat.le_refl _, nofun⟩
  | cons token rest =>
      refine .get ?_
      dsimp only
      split
      · exact .set (Nat.le_succ _) fun _ => Nat.lt_succ_self _
      · exact .pure nofun

theorem afterArguments_length_le (depth : Nat) (tokens : List Token) :
    (afterArguments depth tokens).length ≤ tokens.length := by
  fun_induction afterArguments depth tokens with
  | case1 => exact Nat.le_refl _
  | case2 _ _ _ _ ih => exact Nat.le_succ_of_le ih
  | case3 => exact Nat.le_succ _
  | case4 _ _ _ _ _ _ ih => exact Nat.le_succ_of_le ih
  | case5 _ _ _ _ _ ih => exact Nat.le_succ_of_le ih

theorem chainFor_fits (below : Below size operand) (operators : List BinaryOperator)
    (bound : Nat) (left : Expr) (tokens : List Token) (small : tokens.length < size)
    (enough : tokens.length < bound) :
    Fits (chainFor operators operand bound left) tokens fun _ _ => True := by
  induction bound generalizing left tokens with
  | zero => exact absurd enough (Nat.not_lt_zero _)
  | succ bound ih =>
      refine (eat?_fits operators tokens).bind fun found behind _ shorter => ?_
      cases found with
      | none => exact .pure trivial
      | some pair =>
          have less := shorter rfl
          refine (below behind (by omega)).bind fun right rest fits _ => ?_
          exact ih _ rest (by omega) (by omega)

theorem Below.chain (below : Below size operand) (operators : List BinaryOperator) :
    Below size (chain operators operand) := by
  intro tokens small
  refine .get ((below tokens small).bind fun left rest fits _ => ?_)
  exact chainFor_fits below operators _ left rest (by omega) (by omega)

/-- A group needs one level less. -/
theorem primary_below (below : Below size nested) : Below (size + 1) (primary nested) := by
  intro tokens small
  refine (symbol?_fits "(" tokens).bind fun opened inside _ shorter => ?_
  cases opened with
  | some line =>
      have less := shorter rfl
      refine (below inside (by omega)).bind fun inner rest _ _ => ?_
      exact (symbol?_fits ")" rest).bind fun _ _ _ _ => .ite (.pure trivial) .mismatch
  | none =>
      refine .get ?_
      cases inside with
      | nil => exact .mismatch
      | cons token rest =>
          refine .ite (.ite (.set ?_ trivial) (.set ?_ trivial)) (.ite (.set ?_ trivial) .mismatch)
          · exact Nat.le_succ_of_le (afterArguments_length_le 0 rest)
          · exact Nat.le_succ _
          · exact Nat.le_succ _

theorem negation_below (below : Below size nested) : Below (size + 1) (negation nested) := by
  intro tokens small
  refine (symbol?_fits "-" tokens).bind fun sign rest fits _ => ?_
  have operand := primary_below below rest (Nat.lt_of_le_of_lt fits small)
  cases sign with
  | some line => exact operand.bind fun _ _ _ _ => .pure trivial
  | none => exact operand

theorem sum_below (below : Below size nested) : Below (size + 1) (sum nested) :=
  ((negation_below below).chain [.mul, .div]).chain [.add, .sub]

theorem relation_below (below : Below size nested) : Below (size + 1) (relation nested) := by
  intro tokens small
  refine (sum_below below tokens small).bind fun left rest fits _ => ?_
  refine (eat?_fits _ rest).bind fun found behind onward _ => ?_
  cases found with
  | none => exact .pure trivial
  | some pair => exact (sum_below below behind (by omega)).bind fun _ _ _ _ => .pure trivial

theorem inversion_fits (below : Below size nested) (bound : Nat) (tokens : List Token)
    (small : tokens.length < size + 1) (enough : tokens.length < bound) :
    Fits (inversion nested bound) tokens fun _ _ => True := by
  induction bound generalizing tokens with
  | zero => exact absurd enough (Nat.not_lt_zero _)
  | succ bound ih =>
      refine (symbol?_fits "!" tokens).bind fun mark rest fits shorter => ?_
      cases mark with
      | some line =>
          have less := shorter rfl
          exact (ih rest (by omega) (by omega)).bind fun _ _ _ _ => .pure trivial
      | none => exact relation_below below rest (Nat.lt_of_le_of_lt fits small)

theorem conjunction_below (below : Below size nested) : Below (size + 1) (conjunction nested) :=
  Below.chain (fun tokens small => .get (inversion_fits below _ tokens small (Nat.lt_succ_self _)))
    [.and]

theorem expression_below (depth : Nat) : Below depth (expression depth) := by
  induction depth with
  | zero => exact fun _ impossible => absurd impossible (Nat.not_lt_zero _)
  | succ depth ih => exact (conjunction_below ih).chain [.or]

end Preview

/-- The bound of a preview is enough for all tokens. -/
theorem Expr.previewed_ne_exhausted (tokens : List Token) :
    Expr.previewed tokens ≠ .error .exhausted := by
  have fits := Preview.expression_below (tokens.length + 1) tokens (Nat.lt_succ_self _)
  intro exhausted
  unfold Preview.Fits at fits
  unfold Expr.previewed at exhausted
  split at fits
  · next run =>
      rw [run] at exhausted
      contradiction
  · next run =>
      rw [run, fits] at exhausted
      exact Preview.Stop.noConfusion (Except.error.inj exhausted)

end StackLang
