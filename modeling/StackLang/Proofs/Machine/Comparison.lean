import StackLang.Proofs.Machine.Instructions
import StackLang.Proofs.Numeral.Conversion

/-!
# Comparison of integers

An order between integers is decided on their doubles and equality on their texts.  Two
integers with one nearest double are therefore neither less, equal nor greater.
-/

namespace StackLang

open Numeral

namespace Numeral

theorem nearestInt_mono {left right : Int} (ordered : left ≤ right) :
    nearestInt left ≤ nearestInt right := by
  have image (number : Int) : (0 ≤ number ∧ nearestInt number = nearest number.natAbs) ∨
      (number < 0 ∧ nearestInt number = -(nearest number.natAbs : Int)) := by
    cases number with
    | ofNat magnitude => exact .inl ⟨Int.natCast_nonneg _, nearestInt_natCast magnitude⟩
    | negSucc less => exact .inr ⟨Int.negSucc_lt_zero less, nearestInt_apply .negative (less + 1)⟩
  rcases image left with ⟨leftSign, leftImage⟩ | ⟨leftSign, leftImage⟩
  · rcases image right with ⟨rightSign, rightImage⟩ | ⟨rightSign, rightImage⟩
    · have magnitudes : nearest left.natAbs ≤ nearest right.natAbs := nearest_mono (by omega)
      omega
    · omega
  · rcases image right with ⟨rightSign, rightImage⟩ | ⟨rightSign, rightImage⟩
    · omega
    · have magnitudes : nearest right.natAbs ≤ nearest left.natAbs := nearest_mono (by omega)
      omega

theorem lt_of_nearestInt_lt {left right : Int} (less : nearestInt left < nearestInt right) :
    left < right := by
  apply Int.not_le.mp
  intro reverse
  exact absurd (nearestInt_mono reverse) (Int.not_le.mpr less)

/-- A number of at most 53 binary digits is its own nearest double. -/
theorem nearestInt_of_natAbs_le {number : Int} (small : number.natAbs ≤ 2 ^ 53) :
    nearestInt number = number := by
  rw [nearestInt, nearest_of_hasRoom (hasRoom_of_le small), Int.sign_mul_natAbs]

theorem int64Text_injective {left right : Int64} : int64Text left = int64Text right ↔ left = right := by
  constructor
  · intro same
    have read := int64?_int64Text left
    rw [same, int64?_int64Text] at read
    exact (Option.some.inj read).symm
  · rintro rfl
    rfl

end Numeral

namespace MachineState

/-- The operation replaces the two topmost values by the integer of a truth value. -/
def Decides (state : MachineState) (operation : Operation) (rest : List Value) (holds : Prop)
    [Decidable holds] : Prop :=
  state.operate operation =
    .ok (.next, { state with stack := .int (if holds then 1 else 0) :: rest })

section

variable {state : MachineState} {left right : Int64} {rest : List Value}

theorem natAbs_toInt_le (number : Int64) : number.toInt.natAbs ≤ 2 ^ 63 := by
  have low := number.le_toInt
  have high := number.toInt_lt
  omega

theorem decides_of_pair {operation : Operation} {function : Value → Value → Except Fault Value}
    {holds : Prop} [Decidable holds] (operands : state.stack = .int right :: .int left :: rest)
    (operates : state.operate operation = state.applyPair function)
    (answer : function (.int left) (.int right) = .ok (.ofFlag (decide holds))) :
    state.Decides operation rest holds := by
  rw [Decides, operates, applyPair_stack operands, answer]
  by_cases truth : holds
  · simp [Except.map, Value.ofFlag, truth]
  · simp [Except.map, Value.ofFlag, truth]

theorem decides_greater (operands : state.stack = .int right :: .int left :: rest) :
    state.Decides .greater rest (nearestInt right.toInt < nearestInt left.toInt) := by
  apply decides_of_pair operands rfl
  have order := ofInt_lt_ofInt (natAbs_toInt_le right) (natAbs_toInt_le left)
  show Except.ok (Value.ofFlag (decide (Float.ofInt right.toInt < Float.ofInt left.toInt))) = _
  rw [decide_eq_decide.mpr order]

theorem decides_less (operands : state.stack = .int right :: .int left :: rest) :
    state.Decides .less rest (nearestInt left.toInt < nearestInt right.toInt) := by
  apply decides_of_pair operands rfl
  have order := ofInt_lt_ofInt (natAbs_toInt_le left) (natAbs_toInt_le right)
  show Except.ok (Value.ofFlag (decide (Float.ofInt left.toInt < Float.ofInt right.toInt))) = _
  rw [decide_eq_decide.mpr order]

theorem decides_equal (operands : state.stack = .int right :: .int left :: rest) :
    state.Decides .equal rest (left = right) := by
  have operates : state.operate .equal =
      state.applyPair fun left right => .ok (.ofFlag (left.agree right)) := rfl
  apply decides_of_pair operands operates
  have texts : (int64Text left == int64Text right) = decide (left = right) :=
    decide_eq_decide.mpr int64Text_injective
  show Except.ok (Value.ofFlag (int64Text left == int64Text right)) = _
  rw [texts]

/-- One of three statements holds, and no other. -/
def ExactlyOne (first second third : Prop) : Prop :=
  (first ∧ ¬second ∧ ¬third) ∨ (¬first ∧ second ∧ ¬third) ∨ (¬first ∧ ¬second ∧ third)

/-- Greater and less compare the nearest doubles of two integers, and equal compares the
integers.  An order that the machine finds is right.  Exactly one of less, equal and greater
holds unless two different integers share their nearest double, and then none does.  Integers
of at most 53 binary digits are ordered as they are. -/
theorem integers_compared (operands : state.stack = .int right :: .int left :: rest) :
    (state.Decides .greater rest (nearestInt right.toInt < nearestInt left.toInt) ∧
      state.Decides .less rest (nearestInt left.toInt < nearestInt right.toInt) ∧
      state.Decides .equal rest (left = right)) ∧
    (nearestInt right.toInt < nearestInt left.toInt → right < left) ∧
    (nearestInt left.toInt < nearestInt right.toInt → left < right) ∧
    (ExactlyOne (nearestInt left.toInt < nearestInt right.toInt) (left = right)
        (nearestInt right.toInt < nearestInt left.toInt) ↔
      (nearestInt left.toInt = nearestInt right.toInt → left = right)) ∧
    ((left.toInt.natAbs ≤ 2 ^ 53 ∧ right.toInt.natAbs ≤ 2 ^ 53) →
      (nearestInt right.toInt < nearestInt left.toInt ↔ right < left) ∧
      (nearestInt left.toInt < nearestInt right.toInt ↔ left < right)) := by
  refine ⟨⟨decides_greater operands, decides_less operands, decides_equal operands⟩, ?_, ?_, ?_, ?_⟩
  · intro less
    exact Int64.lt_iff_toInt_lt.mpr (lt_of_nearestInt_lt less)
  · intro less
    exact Int64.lt_iff_toInt_lt.mpr (lt_of_nearestInt_lt less)
  · by_cases same : left = right
    · simp [ExactlyOne, same]
    · rcases Int.lt_trichotomy (nearestInt left.toInt) (nearestInt right.toInt) with
        less | shared | greater
      · simp [ExactlyOne, same, less, Int.ne_of_lt less, Int.not_lt.mpr (Int.le_of_lt less)]
      · simp [ExactlyOne, same, shared]
      · simp [ExactlyOne, same, greater, (Int.ne_of_lt greater).symm,
          Int.not_lt.mpr (Int.le_of_lt greater)]
  · rintro ⟨leftSmall, rightSmall⟩
    rw [nearestInt_of_natAbs_le leftSmall, nearestInt_of_natAbs_le rightSmall,
      Int64.lt_iff_toInt_lt, Int64.lt_iff_toInt_lt]
    exact ⟨Iff.rfl, Iff.rfl⟩

/-- A machine that has nothing but two operands. -/
def comparing (left right : Int64) : MachineState :=
  ⟨.empty, [.int right, .int left], 0, [], "", #[]⟩

/-- Small integers of either sign are ordered as they are. -/
theorem integers_compared_small :
    (comparing (-3) 5).stack = [.int 5, .int (-3)] ∧ (comparing (-3) 5).Decides .less [] True := by
  have compared := integers_compared (rfl : (comparing (-3) 5).stack = [.int 5, .int (-3)])
  obtain ⟨-, less, -⟩ := compared.1
  exact ⟨rfl, less⟩

/-- Neighbours beyond 53 binary digits are neither less, equal nor greater. -/
theorem not_integers_ordered :
    (9007199254740992 : Int64) < 9007199254740993 ∧
      (comparing 9007199254740992 9007199254740993).Decides .less [] False ∧
      (comparing 9007199254740992 9007199254740993).Decides .equal [] False ∧
      (comparing 9007199254740992 9007199254740993).Decides .greater [] False := by
  have operands : (comparing 9007199254740992 9007199254740993).stack =
      [.int 9007199254740993, .int 9007199254740992] := rfl
  exact ⟨by decide, decides_less operands, decides_equal operands, decides_greater operands⟩

end

end MachineState

end StackLang
