import StackLang.Proofs.Machine.Effects
import StackLang.Proofs.Meaning.Interpreter
import StackLang.Typing.Compatibility

/-!
# Values of types

A variable of a type holds values of one kind.  An expression of that type has such a
value as well, but truth values may also be the integers `0` and `1`.  Operations that
the compatibility table admits lead from values of the operand types to one of the
result type, or they divide by zero.
-/

namespace StackLang

namespace Value

/-- Variables of the type hold such values.  Nothing is stored into void ones. -/
inductive HasType : Value → TypeName → Prop
  | int (number : Int64) : HasType (.int number) .int
  | float (number : Float) : HasType (.float number) .float
  | char (letter : Char) : HasType (.char letter) .char
  | string (text : String) : HasType (.string text) .string
  | boolean (truth : Bool) : HasType (.bool truth) .boolean
  | void (value : Value) : HasType value .void

/-- Expressions of the type have such values. -/
inductive StandsFor : Value → TypeName → Prop
  | typed {value : Value} {type : TypeName} (hasType : value.HasType type) : StandsFor value type
  | flag (truth : Bool) : StandsFor (.ofFlag truth) .boolean

theorem initial_hasType (type : TypeName) : (initial type).HasType type := by
  cases type with
  | int => exact .int 0
  | float => exact .float 0.0
  | char => exact .char '\x00'
  | string => exact .string ""
  | boolean => exact .boolean false
  | void => exact .void _

namespace StandsFor

variable {value left right : Value} {type target found : TypeName}

/-- A truth value, or one of the integers that stand for truth values. -/
theorem truth (stands : value.StandsFor .boolean) :
    (∃ truth, value = .bool truth) ∨ value = .int 0 ∨ value = .int 1 := by
  cases stands with
  | typed hasType =>
      cases hasType with
      | boolean truth => exact .inl ⟨truth, rfl⟩
  | flag truth =>
      cases truth with
      | false => exact .inr (.inl rfl)
      | true => exact .inr (.inr rfl)

/-- What a conditional jump compares is `1` or `0`, as the value is true or not. -/
theorem flag_eq (stands : value.StandsFor .boolean) :
    value.flag = if value.isTruthy then "1" else "0" := by
  rcases stands.truth with ⟨truth, rfl⟩ | rfl | rfl
  · rfl
  · decide
  · decide

/-- A variable of the type that an expression has can hold its value. -/
theorem storedAs (stands : value.StandsFor type) : (value.storedAs type).HasType type := by
  cases stands with
  | typed hasType =>
      cases hasType with
      | int number => exact .int number
      | float number => exact .float number
      | char letter => exact .char letter
      | string text => exact .string text
      | boolean truth => exact .boolean truth
      | void => exact .void _
  | flag truth => exact .boolean _

/-- An admitted assignment stores a value of the type of its target. -/
theorem assigned {result : TypeName} (stands : value.StandsFor found)
    (admitted : Operator.assign.result? target found = some result) :
    (value.storedAs target).HasType target := by
  by_cases widens : target = .float ∧ found = .int
  · obtain ⟨rfl, rfl⟩ := widens
    cases stands with
    | typed hasType =>
        cases hasType with
        | int number => exact .float _
  · have same : target = found := by
      cases target <;> cases found <;>
        first
          | rfl
          | exact absurd ⟨rfl, rfl⟩ widens
          | exact absurd admitted nofun
    exact same ▸ stands.storedAs

theorem isText_string (stands : value.StandsFor .string) : value.isText = true := by
  cases stands with
  | typed hasType =>
      cases hasType with
      | string text => rfl

/-- The number of an expression of a number type. -/
theorem numeric (stands : value.StandsFor type) (isNumeric : type.isNumeric = true) :
    (type = .int ∧ ∃ number, value = .int number) ∨
      type = .float ∧ ∃ number, value = .float number := by
  cases stands with
  | typed hasType =>
      cases hasType with
      | int number => exact .inl ⟨rfl, number, rfl⟩
      | float number => exact .inr ⟨rfl, number, rfl⟩
      | _ => contradiction
  | flag truth => contradiction

end StandsFor

end Value

namespace TypeName

theorem numeric_of_promoted? {left right result : TypeName}
    (promoted : left.promoted? right = some result) :
    left.isNumeric = true ∧ right.isNumeric = true := by
  cases left <;> cases right <;> first | exact ⟨rfl, rfl⟩ | exact absurd promoted nofun

end TypeName

/-- The operations that compute with numbers. -/
inductive Operation.Computes : Operation → Prop
  | add : Computes .add
  | sub : Computes .sub
  | mul : Computes .mul
  | div : Computes .div

/-- The only fault of operations between operands that go together. -/
def Fault.OfDivision (fault : Fault) : Prop := fault = .divisionByZero

namespace Value

variable {left right : Value} {leftType rightType type : TypeName} {operation : Operation}

/-- Arithmetic on numbers. -/
theorem arithmetic_promoted (computes : operation.Computes) (first : left.StandsFor leftType)
    (second : right.StandsFor rightType)
    (promoted : leftType.promoted? rightType = some type) :
    Answers Fault.OfDivision (fun value => value.StandsFor type) (arithmetic operation left right) := by
  obtain ⟨leftNumeric, rightNumeric⟩ := TypeName.numeric_of_promoted? promoted
  rcases first.numeric leftNumeric with ⟨rfl, leftNumber, rfl⟩ | ⟨rfl, leftNumber, rfl⟩
  · rcases second.numeric rightNumeric with ⟨rfl, rightNumber, rfl⟩ | ⟨rfl, rightNumber, rfl⟩
    · obtain rfl := Option.some.inj promoted
      cases computes with
      | add | sub | mul => exact .typed (.int _)
      | div =>
          show Answers Fault.OfDivision (fun value : Value => value.StandsFor .int)
            (if rightNumber = 0 then .error .divisionByZero else .ok (.int (leftNumber / rightNumber)))
          split
          · rfl
          · exact .typed (.int _)
    · obtain rfl := Option.some.inj promoted
      cases computes <;> exact .typed (.float _)
  · rcases second.numeric rightNumeric with ⟨rfl, rightNumber, rfl⟩ | ⟨rfl, rightNumber, rfl⟩
    all_goals
      obtain rfl := Option.some.inj promoted
      cases computes <;> exact .typed (.float _)

/-- A text is joined to whatever stands on its other side. -/
theorem arithmetic_joined (text : left.isText = true ∨ right.isText = true) :
    Answers Fault.OfDivision (fun value => value.StandsFor .string) (arithmetic .add left right) := by
  have joins : (left.isText || right.isText) = true := Bool.or_eq_true_iff.mpr text
  unfold arithmetic
  dsimp only
  rw [if_pos joins, if_pos rfl]
  exact .typed (.string _)

theorem compare_numeric (holds : Float → Float → Bool) (first : left.StandsFor leftType)
    (second : right.StandsFor rightType) (leftNumeric : leftType.isNumeric = true)
    (rightNumeric : rightType.isNumeric = true) :
    ∃ truth, MachineState.compare holds left right = .ok (.ofFlag truth) := by
  rcases first.numeric leftNumeric with ⟨-, leftNumber, rfl⟩ | ⟨-, leftNumber, rfl⟩ <;>
    rcases second.numeric rightNumeric with ⟨-, rightNumber, rfl⟩ | ⟨-, rightNumber, rfl⟩ <;>
    exact ⟨_, rfl⟩

end Value

/-- An admitted operation has a value of its type, or it divides by zero. -/
theorem BinaryOperator.apply_standsFor (operator : BinaryOperator) {left right : Value}
    {leftType rightType type : TypeName} (first : left.StandsFor leftType)
    (second : right.StandsFor rightType)
    (admitted : operator.checkedAs.result? leftType rightType = some type) :
    Answers Fault.OfDivision (fun value => value.StandsFor type) (operator.apply left right) := by
  cases operator with
  | or | and | equal | notEqual =>
      rw [checkedAs, Operator.result?] at admitted
      split at admitted
      · obtain rfl := Option.some.inj admitted
        exact .flag _
      · contradiction
  | greater | less | greaterEqual | lessEqual =>
      rw [checkedAs, Operator.result?] at admitted
      split at admitted
      · next numeric =>
          obtain rfl := Option.some.inj admitted
          obtain ⟨leftNumeric, rightNumeric⟩ := Bool.and_eq_true_iff.mp numeric
          obtain ⟨truth, compared⟩ :=
            Value.compare_numeric _ first second leftNumeric rightNumeric
          rw [apply, compared]
          exact .flag _
      · contradiction
  | sub | mul | div => exact Value.arithmetic_promoted (by constructor) first second admitted
  | add =>
      rw [checkedAs, Operator.result?] at admitted
      split at admitted
      · next joins =>
          obtain rfl := Option.some.inj admitted
          apply Value.arithmetic_joined
          rcases Bool.or_eq_true_iff.mp joins with leftJoins | rightJoins
          · obtain rfl := eq_of_beq (Bool.and_eq_true_iff.mp leftJoins).1
            exact .inl first.isText_string
          · obtain rfl := eq_of_beq (Bool.and_eq_true_iff.mp rightJoins).1
            exact .inr second.isText_string
      · exact Value.arithmetic_promoted .add first second admitted

/-- A step keeps the type of its target. -/
theorem BinaryOperator.result?_step {operator : BinaryOperator} {target type : TypeName}
    (steps : operator = .add ∨ operator = .sub)
    (admitted : operator.checkedAs.result? target .int = some type) : type = target := by
  rcases steps with rfl | rfl <;> cases target <;>
    first | exact (Option.some.inj admitted).symm | exact absurd admitted nofun

end StackLang
