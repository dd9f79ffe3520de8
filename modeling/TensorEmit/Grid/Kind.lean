import TensorEmit.Fault
import TensorEmit.Text.Search

/-!
# Kinds of cells

Values that are put into one grid get a kind that can hold all of them: truth values become numbers
beside numbers, whole numbers become floats beside floats, and everything becomes text beside a
text. Values without such a kind stay as they are.
-/

namespace TensorEmit

/-- The kind that the cells of a grid have in common. -/
inductive CellKind where
  | element (t : ElementType)
  /-- Whole numbers of 64 bits without a sign. -/
  | word
  | text
  | bytes
  /-- Values that stay as they are. -/
  | any
  deriving DecidableEq, Repr

/-! ## Numbers of 64 bits -/

/-- How many numbers a word of 64 bits can hold. -/
def wordSize : Nat := 18446744073709551616

/-- Whether a whole number fits a word of 64 bits with a sign. -/
def fitsWord (n : Int) : Bool := -9223372036854775808 ≤ n && n < 9223372036854775808

/-- Whether a whole number fits a word of 64 bits without a sign. -/
def fitsUnsigned (n : Int) : Bool := 0 ≤ n && n < (wordSize : Int)

namespace ElementType

/-- The type with the low byte first. -/
def lowFirst : ElementType → ElementType
  | float32High => float32
  | int32High => int32
  | t => t

/-- The signed type of a width. -/
def signedOf (width : Nat) : ElementType :=
  if width ≤ 1 then int8 else if width ≤ 2 then int16 else if width ≤ 4 then int32 else int64

/-- The least type of numbers that holds the elements of two types of numbers. -/
def joinNumbers (s t : ElementType) : ElementType :=
  if s = t then s
  else if s = bool then t
  else if t = bool then s
  else
    match s.floatFormat?, t.floatFormat? with
    | some _, some _ => float64
    | some _, none => if s = float32 ∧ t.width ≤ 2 then float32 else float64
    | none, some _ => if t = float32 ∧ s.width ≤ 2 then float32 else float64
    | none, none =>
      if s.isSigned = t.isSigned then if s.width ≤ t.width then t else s
      else
        let (signed, unsigned) := if s.isSigned then (s, t) else (t, s)
        if unsigned.width < signed.width then signed else signedOf (2 * unsigned.width)

end ElementType

namespace CellKind

/-- The kind of a value on its own. -/
def of : Value → CellKind
  | .bool _ => element .bool
  | .int n => if fitsWord n then element .int64 else if fitsUnsigned n then word else any
  | .float _ => element .float64
  | .text _ => text
  | .bytes _ => bytes
  | .cell t _ => element t.lowFirst
  | _ => any

/-- The least kind that holds whole numbers of 64 bits without a sign and the elements of a type. -/
def joinWord (t : ElementType) : CellKind :=
  if t.isQuantized then any
  else if t = .bool ∨ t = .uint8 ∨ t = .uint16 then word
  else element .float64

/-- The least kind that holds the cells of two kinds. -/
def join : CellKind → CellKind → CellKind
  | any, _ | _, any => any
  | element s, element t =>
    if s = t then element s
    else if s.isQuantized || t.isQuantized then any
    else element (s.joinNumbers t)
  | word, word => word
  | word, element t | element t, word => joinWord t
  | text, element t | element t, text => if t.isQuantized then any else text
  | bytes, element t | element t, bytes => if t.isQuantized then any else bytes
  | text, _ | _, text => text
  | bytes, _ | _, bytes => bytes

/-- The kind of some cells; no cells are floats. -/
def ofAll : List CellKind → CellKind
  | [] => element .float64
  | k :: ks => ks.foldl join k

/-! ## Values in cells -/

/-- The value that an element of an array is outside of it. -/
def released (t : ElementType) (c : Int) : Value :=
  if t.isQuantized then .cell t c
  else
    match t.floatFormat? with
    | some fmt => .float (Number.convertFloat fmt Number.double c.toNat)
    | none => if t.base = .bool then .bool (c ≠ 0) else .int c

/-- The number of a value as a cell of an element type. -/
def elementCell (t : ElementType) : Value → Int
  | .bool b => ElementType.castCell .bool t (if b then 1 else 0)
  | .int n => ElementType.castCell .int64 t n
  | .float bits => ElementType.castCell .float64 t bits
  | .cell s c => s.castCell t c
  | _ => 0

/-- The whole number of a value. -/
def wholeCell : Value → Int
  | .bool b => if b then 1 else 0
  | .int n => n
  | .cell _ c => c
  | _ => 0

/-- Bytes as a text, of which only ASCII can be read. -/
def asciiText (bs : List UInt8) : Except Fault String :=
  if bs.all fun b => b < 128 then .ok (String.ofList (bs.map fun b => Char.ofNat b.toNat))
  else .error .notText

/-- Bytes without the zeros at their end. -/
def trimZeros (bs : List UInt8) : List UInt8 := (bs.reverse.dropWhile (· = 0)).reverse

/-- The text of a value in a cell, which has no zero characters at its end. -/
def textCell : Value → Except Fault Value
  | .bytes bs => do return .text (Text.trimRight '\x00' (← asciiText bs))
  | v => .ok (.text (Text.trimRight '\x00' v.plain))

/-- The bytes of a value in a cell, which have no zeros at their end. -/
def bytesCell : Value → Value
  | .bytes bs => .bytes (trimZeros bs)
  | v => .bytes (trimZeros v.plain.toUTF8.toList)

/-- A value in a cell of a kind that can hold it. -/
def hold (k : CellKind) (v : Value) : Except Fault Value :=
  match k with
  | element t => .ok (.cell t (elementCell t v))
  | word => .ok (.int (wholeCell v))
  | text => textCell v
  | bytes => .ok (bytesCell v)
  | any =>
    match v with
    | .cell t c => .ok (released t c)
    | v => .ok v

end CellKind

end TensorEmit
