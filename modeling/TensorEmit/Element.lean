import TensorEmit.Number.FloatText

/-!
# Element types

The types that the elements of a tensor can have. The quantised types hold the same whole numbers
as their base types but are types of their own, and so are the two types with the high byte first.

An element is held as one whole number, its *cell*: a whole number stands for itself, a truth value
is zero or one, and a float is its bit pattern.
-/

namespace TensorEmit

/-- The type of the elements of a tensor. -/
inductive ElementType where
  | float32 | float64 | int8 | int16 | int32 | int64 | uint8 | uint16 | bool
  | qint8 | quint8 | qint16 | quint16 | qint32
  | float32High | int32High
  deriving DecidableEq, Repr

namespace ElementType

/-- All element types, in the order of their numbers on the wire. -/
def all : List ElementType :=
  [float32, float64, int32, uint8, int16, int8, int64, bool, qint8, quint8, qint32, qint16, quint16,
   uint16, float32High, int32High]

/-- The name of an element type. -/
def name : ElementType → String
  | float32 => "float32"
  | float64 => "float64"
  | int8 => "int8"
  | int16 => "int16"
  | int32 => "int32"
  | int64 => "int64"
  | uint8 => "uint8"
  | uint16 => "uint16"
  | bool => "bool"
  | qint8 => "qint8"
  | quint8 => "quint8"
  | qint16 => "qint16"
  | quint16 => "quint16"
  | qint32 => "qint32"
  | float32High => ">f4"
  | int32High => ">i4"

/-- The element type of a name. -/
def ofName? (s : String) : Option ElementType := all.find? fun t => t.name == s

/-- Whether the type is quantised. -/
def isQuantized : ElementType → Bool
  | qint8 | quint8 | qint16 | quint16 | qint32 => true
  | _ => false

/-- The plain type with the same elements. -/
def base : ElementType → ElementType
  | qint8 => int8
  | quint8 => uint8
  | qint16 => int16
  | quint16 => uint16
  | qint32 => int32
  | float32High => float32
  | int32High => int32
  | t => t

/-- The number of a type on the wire; the two types with the high byte first have none. -/
def wireCode? : ElementType → Option Int
  | float32 => some 1
  | float64 => some 2
  | int32 => some 3
  | uint8 => some 4
  | int16 => some 5
  | int8 => some 6
  | int64 => some 9
  | bool => some 10
  | qint8 => some 11
  | quint8 => some 12
  | qint32 => some 13
  | qint16 => some 15
  | quint16 => some 16
  | uint16 => some 17
  | float32High | int32High => none

/-- The type of a number on the wire. -/
def ofWireCode? (n : Int) : Option ElementType := all.find? fun t => t.wireCode? == some n

/-- How a message shows the type; a quantised type shows the layout of its one field. -/
def text (t : ElementType) : String :=
  match t with
  | qint8 => "[('qint8', 'i1')]"
  | quint8 => "[('quint8', 'u1')]"
  | qint16 => "[('qint16', '<i2')]"
  | quint16 => "[('quint16', '<u2')]"
  | qint32 => "[('qint32', '<i4')]"
  | _ => t.name

/-- How a message shows the type among other values. -/
def quoted (t : ElementType) : String :=
  if t.isQuantized then "dtype(" ++ t.text ++ ")" else "dtype('" ++ t.name ++ "')"

/-- How a message names the kind of thing the type is. -/
def kindText (t : ElementType) : String :=
  let label := match t.base with
    | float32 => "Float32"
    | float64 => "Float64"
    | int8 => "Int8"
    | int16 => "Int16"
    | int32 => "Int32"
    | int64 => "Int64"
    | uint8 => "UInt8"
    | uint16 => "UInt16"
    | _ => "Bool"
  "<class 'numpy.dtypes." ++ (if t.isQuantized then "Void" else label) ++ "DType'>"

/-! ## Cells -/

/-- The binary format of a float type. -/
def floatFormat? (t : ElementType) : Option Number.BinaryFormat :=
  match t.base with
  | float32 => some Number.single
  | float64 => some Number.double
  | _ => none

/-- The number of bytes of an element. -/
def width (t : ElementType) : Nat :=
  match t.base with
  | float64 | int64 => 8
  | float32 | int32 => 4
  | int16 | uint16 => 2
  | _ => 1

/-- Whether the elements can be negative whole numbers. -/
def isSigned (t : ElementType) : Bool :=
  match t.base with
  | int8 | int16 | int32 | int64 => true
  | _ => false

/-- A whole number as an element: what does not fit is taken modulo the width. -/
def wrap (t : ElementType) (n : Int) : Int :=
  let size := Nat.pow 2 (8 * t.width)
  if t.isSigned then Int.bmod n size else n % (size : Int)

/-- The whole number for a float without one, or with one too large for its word. -/
def overflowWord (bits : Nat) : Int := -(Nat.pow 2 (bits - 1) : Nat)

/--
The whole part of a float as an element. It goes through a word of 64 bits for elements of that
size and of 32 bits for the others; a float that the word cannot hold gives the word's least number.
-/
def ofFloat (t : ElementType) (fmt : Number.BinaryFormat) (bits : Nat) : Int :=
  let word := if t.width = 8 then 64 else 32
  let n := match Number.truncateFloat? fmt bits with
    | some n => if overflowWord word ≤ n ∧ n < (Nat.pow 2 (word - 1) : Nat) then n
                else overflowWord word
    | none => overflowWord word
  t.wrap n

/-- A cell of one type as a cell of another. Types with one base have the same cells. -/
def castCell (src dst : ElementType) (cell : Int) : Int :=
  if src.base = dst.base then cell
  else
    match src.floatFormat?, dst.floatFormat? with
    | some f, some g => (Number.convertFloat f g cell.toNat : Nat)
    | some f, none =>
      if dst.base = bool then (if f.isZero cell.toNat then 0 else 1)
      else dst.ofFloat f cell.toNat
    | none, some g => (g.ofInt cell : Nat)
    | none, none => if dst.base = bool then (if cell = 0 then 0 else 1) else dst.wrap cell

theorem castCell_of_base_eq {src dst : ElementType} (h : src.base = dst.base) (cell : Int) :
    castCell src dst cell = cell := by
  simp [castCell, h]

/-- The text of a cell; the element of a quantised type is shown as a row of one field. -/
def cellText (t : ElementType) (cell : Int) : String :=
  let body := match t.floatFormat? with
    | some f => Number.floatText f cell.toNat
    | none => if t.base = bool then (if cell = 0 then "False" else "True") else toString cell
  if t.isQuantized then "(" ++ body ++ ",)" else body

end ElementType

/-! ## Arrays -/

/-- A tensor value: its elements in row order. -/
structure NumArray where
  type : ElementType
  shape : List Nat
  cells : List Int
  deriving DecidableEq, Repr

namespace NumArray

/-- The number of elements that the shape asks for. -/
def size (a : NumArray) : Nat := a.shape.foldl (· * ·) 1

/-- The same elements in another type. -/
def cast (a : NumArray) (t : ElementType) : NumArray :=
  ⟨t, a.shape, a.cells.map (a.type.castCell t)⟩

/-- The same elements in a row. -/
def flatten (a : NumArray) : NumArray := ⟨a.type, [a.cells.length], a.cells⟩

/-- An array without dimensions as a row of one element. -/
def atLeastOneDimension (a : NumArray) : NumArray :=
  if a.shape = [] then ⟨a.type, [1], a.cells⟩ else a

/-- The rows of an array: its parts along the first dimension. -/
def rows (a : NumArray) : List NumArray :=
  match a.shape with
  | [] => []
  | n :: rest =>
    let len := rest.foldl (· * ·) 1
    (List.range n).map fun i => ⟨a.type, rest, (a.cells.drop (i * len)).take len⟩

end NumArray

end TensorEmit
