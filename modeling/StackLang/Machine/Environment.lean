import StackLang.Machine.Value
import StackLang.OrderedMap

/-!
# Variables of a running program

Variables are known by name alone and listed in load order.  A definition under
a present name replaces the variable and keeps its rank.
-/

namespace StackLang

/-- A variable of a running program. -/
structure Variable where
  type : TypeName
  value : Value

/-- The variables of a running program. -/
structure Environment where
  bindings : OrderedMap String Variable

namespace Environment

/-- No variables. -/
def empty : Environment := ⟨.empty⟩

instance : Inhabited Environment := ⟨empty⟩

/-- The number of variables. -/
def size (environment : Environment) : Nat := environment.bindings.size

/-- The variables in load order. -/
def toList (environment : Environment) : List (String × Variable) := environment.bindings.entries

/-- Define a variable. -/
def define (environment : Environment) (name : String) (type : TypeName) (value : Value) :
    Environment :=
  ⟨environment.bindings.insert name ⟨type, value⟩⟩

/-- The value of a variable. -/
def get (environment : Environment) (name : String) : Except Fault Value :=
  match environment.bindings.get? name with
  | some found => .ok found.value
  | none => .error (.undefinedVariable name)

/-- Store a value into a variable.  An integer stored into a floating point
variable widens, and an integer stored into a boolean one becomes a truth value. -/
def assign (environment : Environment) (name : String) (value : Value) :
    Except Fault Environment :=
  match environment.bindings.get? name with
  | some found => .ok (environment.define name found.type (value.storedAs found.type))
  | none => .error (.undefinedVariable name)

theorem get_define (environment : Environment) (name other : String) (type : TypeName)
    (value : Value) :
    (environment.define name type value).get other =
      if name = other then .ok value else environment.get other := by
  by_cases same : name = other
  · simp [get, define, OrderedMap.get?_insert, same]
  · simp [get, define, OrderedMap.get?_insert, same]

/-- A variable that has been stored into has a value. -/
theorem get_assign {environment after : Environment} {name : String} {value : Value}
    (assigned : environment.assign name value = .ok after) :
    ∃ stored, after.get name = .ok stored := by
  unfold assign at assigned
  split at assigned
  · next found _ =>
      obtain rfl := Except.ok.inj assigned
      exact ⟨value.storedAs found.type, by rw [get_define, if_pos rfl]⟩
  · contradiction

end Environment

end StackLang
