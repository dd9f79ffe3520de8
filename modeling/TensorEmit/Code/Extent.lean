import TensorEmit.Grid.Basic

/-!
# The extent of a shape

The number of elements that a shape asks for: the product of its sizes. Sizes that fit 64 bits are
multiplied in a word of 64 bits, which wraps; larger sizes are multiplied as they are.
-/

namespace TensorEmit.Code

/-- The product of two floats of a format; a product with no number, or of zero and infinity, is
none. -/
def multiply (fmt : Number.BinaryFormat) (a b : Nat) : Nat :=
  let quiet := fmt.infinity + Nat.pow 2 (fmt.fractionBits - 1)
  match fmt.read a, fmt.read b with
  | .finite s m e, .finite t n f => fmt.round (s != t) (m * n) (e + f)
  | .infinite s, .infinite t => fmt.withSign (s != t) fmt.infinity
  | .infinite s, .finite t n _ => if n = 0 then quiet else fmt.withSign (s != t) fmt.infinity
  | .finite s m _, .infinite t => if m = 0 then quiet else fmt.withSign (s != t) fmt.infinity
  | _, _ => quiet

/-- The product of whole numbers, as it stands in the word for the products of an element type. -/
def wordProduct (t : ElementType) (ns : List Int) : Int :=
  let p := ns.foldl (· * ·) 1
  match t with
  | .uint8 | .uint16 => p % (wordSize : Int)
  | _ => Int.bmod p wordSize

/-- The product of the elements of an array. -/
def elementProduct (t : ElementType) (cells : List Int) : Except Fault Value :=
  if t.isQuantized then .error .noProduct
  else
    match t.floatFormat? with
    | some fmt =>
      let p := (cells.map Int.toNat).foldl (multiply fmt) (fmt.ofInt 1)
      .ok (.float (Number.convertFloat fmt Number.double p))
    | none => .ok (.int (wordProduct t.base cells))

/-- The whole number that a size is. -/
def wholeSize? : Value → Option Int
  | .int n => some n
  | .bool b => some (if b then 1 else 0)
  | _ => none

/-- A whole number as a float, which has to be large enough for it. -/
def floatOfWhole (n : Int) : Except Fault Nat :=
  let bits := Number.double.ofInt n
  match Number.double.read bits with
  | .infinite _ => .error .tooLarge
  | _ => .ok bits

/-- The float that a size is. -/
def floatSize (v : Value) : Except Fault Nat :=
  match v, wholeSize? v with
  | .float bits, _ => .ok bits
  | _, some n => floatOfWhole n
  | _, none => .error .unfit

/-- Whether a size is a text, which can be repeated. -/
def isTextSize : Value → Bool
  | .text _ | .bytes _ | .list _ => true
  | _ => false

/-- The product of two sizes of any kind. -/
def times (a b : Value) : Except Fault Value :=
  match wholeSize? a, wholeSize? b with
  | some m, some n => .ok (.int (m * n))
  | some m, none => if isTextSize b then repeated m else floats
  | none, some n => if isTextSize a then repeated n else floats
  | none, none => floats
where
  floats : Except Fault Value := do
    let x ← floatSize a
    let y ← floatSize b
    return .float (multiply Number.double x y)
  repeated (n : Int) : Except Fault Value :=
    if fitsWord n then .error .unfit else .error .tooLarge

/-- The product of sizes of any kind, of which a single one may be no number. -/
def anyProduct : List Value → Except Fault Value
  | [] => .ok (.int 1)
  | v :: vs => vs.foldlM times v

/-- The extent of a shape, which is no number if the shape is not made of numbers. -/
def extent (shape : Value) : Except Fault Value := do
  let g ← Grid.ofValue shape
  match g.kind with
  | .element t => elementProduct t (g.cells.map (CellKind.elementCell t))
  | .word => return .int ((g.cells.map CellKind.wholeCell).foldl (· * ·) 1 % (wordSize : Int))
  | .text | .bytes => throw .noProduct
  | .any => anyProduct g.cells

/-- A number as a whole number. -/
def wholeNumber : Value → Except Fault Int
  | .int n => .ok n
  | .bool b => .ok (if b then 1 else 0)
  | .float bits =>
    match Number.double.read bits with
    | .nan _ _ => .error (.notWhole "NaN")
    | .infinite _ => .error .tooLarge
    | _ =>
      match Number.truncateFloat? Number.double bits with
      | some n => .ok n
      | none => .error .tooLarge
  | _ => .error .unfit

end TensorEmit.Code
