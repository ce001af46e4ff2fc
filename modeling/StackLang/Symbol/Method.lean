import StackLang.OrderedMap
import StackLang.Typing.Basic

/-!
# Method signatures

A method is known by its name alone.  The first declaration of a name stands,
later ones are refused.
-/

namespace StackLang

/-- The signature of a method. -/
structure Signature where
  returnType : TypeName
  name : String
  parameters : List (TypeName × String)
  deriving DecidableEq, Repr

/-- The methods declared so far, by name. -/
structure MethodTable where
  entries : OrderedMap String Signature

namespace MethodTable

/-- The table without methods. -/
def empty : MethodTable := ⟨.empty⟩

instance : Inhabited MethodTable := ⟨empty⟩

/-- The signature declared for a name. -/
def get? (table : MethodTable) (name : String) : Option Signature := table.entries.get? name

/-- Declare a method, unless its name is taken. -/
def insert? (table : MethodTable) (signature : Signature) : Option MethodTable :=
  if table.entries.contains signature.name then none
  else some ⟨table.entries.insert signature.name signature⟩

/-- Declare a method unless its name is taken, and keep the table otherwise. -/
def declare (table : MethodTable) (signature : Signature) : MethodTable :=
  (table.insert? signature).getD table

end MethodTable

end StackLang
