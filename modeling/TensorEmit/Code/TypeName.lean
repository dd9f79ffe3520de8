import TensorEmit.Fault

/-!
# Type names in emitted code

The element types that emitted code can name. Each has a name for the importer that loads it from a
file and a name for the tensor that holds it.
-/

namespace TensorEmit.Code

/-- The two names of an element type. -/
structure TypeName where
  importer : String
  element : String
  deriving DecidableEq, Repr

namespace TypeName

/-- The names of an element type, if emitted code can name it. -/
def of? : ElementType → Option TypeName
  | .float32 => some ⟨"float", "float"⟩
  | .qint8 => some ⟨"byte", "uint8_t"⟩
  | .int32 | .int64 | .qint32 => some ⟨"int", "int"⟩
  | .quint8 => some ⟨"ubyte", "uint8_t"⟩
  | _ => none

/-- The names under a value, of which only element types have some. -/
def find? (v : Value) : Except Fault (Option TypeName) :=
  match v with
  | .type t => .ok (of? t)
  | v => if v.isKey then .ok none else .error .unfit

/-- The names under a value that has to have some. -/
def find (v : Value) : Except Fault TypeName := do
  match ← find? v with
  | some n => return n
  | none => throw (.unfiled v)

/-- The name of the tensor elements of a type. -/
def elementOf (v : Value) : Except Fault Value := do return .text (← find v).element

end TypeName

end TensorEmit.Code
