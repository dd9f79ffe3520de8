import TensorEmit.Grid.Basic
import TensorEmit.Position

/-!
# Rearranging arguments

Some operators take their arguments in another order than the graph lists them. The arguments are
packed into a grid on the way, so that a list with a text in it becomes a list of texts. An order is
a list of positions, which may itself be nested, or a list of truth values that tells what to keep.
-/

namespace TensorEmit.Code

/-- The members at the given positions, in their order. -/
def pickAll {α : Type} (xs : List α) : List Int → Except Fault (List α)
  | [] => .ok []
  | i :: rest => do
    match pick xs i with
    | none => throw .outOfRange
    | some x => return x :: (← pickAll xs rest)

/-- The position that a cell of an order stands for; a number beyond 63 bits counts from the end. -/
def positionOf (c : Value) : Int := Int.bmod (CellKind.wholeCell c) wordSize

/-- Whether the cells of an order are positions. An order without cells may have any kind. -/
def hasPositions (order : Grid) : Bool :=
  order.cells.isEmpty ||
    match order.kind with
    | .element t => !t.isQuantized && t.floatFormat?.isNone && t.base ≠ .bool
    | .word => true
    | _ => false

/-- The rows of a grid at the positions that an order names; they have the shape of the order. -/
def atPositions (g order : Grid) : Except Fault Grid := do
  let picked ← pickAll g.rowCells (order.cells.map positionOf)
  return ⟨g.kind, order.shape ++ g.shape.tail, picked.flatten⟩

/-- The parts of a grid for which the cells of a mask of the same sizes are true. -/
def whereTrue (g mask : Grid) : Except Fault Grid := do
  if mask.shape.isPrefixOf g.shape then
    let rest := g.shape.drop mask.shape.length
    let parts := Text.partsOfLength (Text.blockSize rest) mask.cells.length g.cells
    let kept := (mask.cells.zip parts).filter fun e => CellKind.wholeCell e.1 ≠ 0
    return ⟨g.kind, kept.length :: rest, (kept.map Prod.snd).flatten⟩
  else throw .outOfRange

/-- A grid in a given order. -/
def reorder (g order : Grid) : Except Fault Grid :=
  if g.shape.isEmpty then .error .outOfRange
  else if hasPositions order then atPositions g order
  else if order.kind = .element .bool then whereTrue g order
  else .error .outOfRange

/-- The arguments in a given order; without one they keep theirs. -/
def arrange (args order : Value) : Except Fault (List Value) := do
  if order matches .none ∧ args.length?.isNone then throw .unfit
  let g ← Grid.ofValue args
  match order with
  | .none => if g.shape.isEmpty then throw .outOfRange else return g.rows
  | .list _ => return (← reorder g (← Grid.ofValue order)).rows
  | _ => throw .outOfRange

/-- The order in which a product or a sum of quantised tensors takes its arguments. -/
def operandsFirst : Value := .list ([0, 2, 3, 1, 4, 5].map Value.int)

/-- The arguments as a list in braces. -/
def argumentList (args : Value) : Except Fault String := do
  match args.members? with
  | none => throw .unfit
  | some vs =>
    return "\x7b" ++ ",".intercalate (vs.map fun v => "\"" ++ v.formatted ++ "\"") ++ "\x7d"

end TensorEmit.Code
