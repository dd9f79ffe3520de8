import TensorEmit.Fault

/-!
# Array files

An array file holds the code of the element type, the sizes of the dimensions and the elements, all
with the high byte first. Only some element types have a code, and an array has to have an element.
-/

namespace TensorEmit

/-- What an array file holds. -/
structure ArrayFile where
  type : ElementType
  sizes : List Nat
  cells : List Int
  deriving DecidableEq, Repr

namespace ArrayFile

/-- The code of an element type. -/
def code? : ElementType → Option UInt8
  | .uint8 => some 0x08
  | .int8 => some 0x09
  | .int16 => some 0x0b
  | .int32 => some 0x0c
  | .float32 => some 0x0d
  | .float64 => some 0x0e
  | _ => none

/-- The bytes of a whole number with the high byte first; what does not fit is cut off. -/
def bigEndian : (width : Nat) → Int → List UInt8
  | 0, _ => []
  | width + 1, n => (n / (Nat.pow 256 width : Nat) % 256).toNat.toUInt8 :: bigEndian width n

/-- The array file of an array. -/
def ofArray (a : NumArray) : Except Fault ArrayFile :=
  if a.cells.isEmpty then .error .emptyArray
  else if (code? a.type).isNone then .error .unsupportedArray
  else .ok ⟨a.type, a.shape, a.cells⟩

/-- The bytes of an array file. -/
def bytes (f : ArrayFile) : List UInt8 :=
  [0, 0, (code? f.type).getD 0, f.sizes.length.toUInt8] ++
    f.sizes.flatMap (fun n => bigEndian 4 (n : Nat)) ++ f.cells.flatMap (bigEndian f.type.width)

end ArrayFile

end TensorEmit
