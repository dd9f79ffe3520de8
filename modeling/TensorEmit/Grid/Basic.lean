import TensorEmit.Grid.Kind

/-!
# Grids

A list of lists of values is packed into a grid: a block of cells of one kind with any number of
dimensions. Arrays among the values are taken apart. All lists of one depth must have one length.
-/

namespace TensorEmit

/-! ## Sizes -/

/-- The sizes of a nested list as far as all its parts agree on them, and whether they agree on
all. -/
structure Sizes where
  dims : List Nat
  even : Bool
  deriving DecidableEq, Repr

/-- The sizes at the front on which two parts agree. -/
def commonFront : List Nat → List Nat → List Nat
  | m :: ms, n :: ns => if m = n then m :: commonFront ms ns else []
  | _, _ => []

/-- The sizes on which two parts agree. -/
def Sizes.meet (s t : Sizes) : Sizes :=
  ⟨commonFront s.dims t.dims, s.even && t.even && s.dims == t.dims⟩

mutual

/-- The sizes of a value; what is neither a list nor an array has none. -/
def Value.sizes : Value → Sizes
  | .list vs =>
    match Value.partSizes vs with
    | .none => ⟨[0], true⟩
    | some s => ⟨vs.length :: s.dims, s.even⟩
  | .array a => ⟨a.shape, true⟩
  | _ => ⟨[], true⟩

/-- The sizes on which the parts of a list agree, if there are any parts. -/
def Value.partSizes : List Value → Option Sizes
  | [] => .none
  | v :: vs =>
    match Value.partSizes vs with
    | .none => some v.sizes
    | some s => some (v.sizes.meet s)

end

/-! ## Cells -/

mutual

/-- The values in the cells of a nested list, in row order. -/
def Value.leaves : Value → List Value
  | .list vs => Value.leavesOfAll vs
  | .array a => a.cells.map (Value.cell a.type)
  | v => [v]

/-- The values in the cells of several nested lists. -/
def Value.leavesOfAll : List Value → List Value
  | [] => []
  | v :: vs => v.leaves ++ Value.leavesOfAll vs

end

mutual

/-- The kinds of the parts of a nested list; an array has a kind even if it has no elements. -/
def Value.leafKinds : Value → List CellKind
  | .list vs => Value.leafKindsOfAll vs
  | .array a => [.element a.type.lowFirst]
  | v => [CellKind.of v]

/-- The kinds of the parts of several nested lists. -/
def Value.leafKindsOfAll : List Value → List CellKind
  | [] => []
  | v :: vs => v.leafKinds ++ Value.leafKindsOfAll vs

end

/-- A block of cells of one kind, in row order. -/
structure Grid where
  kind : CellKind
  shape : List Nat
  cells : List Value

namespace Grid

/-- The grid of a value. -/
def ofValue (v : Value) : Except Fault Grid := do
  let s := v.sizes
  if !s.even then throw (.unevenSizes s.dims)
  let kind := CellKind.ofAll v.leafKinds
  return ⟨kind, s.dims, ← v.leaves.mapM kind.hold⟩

/-! ## Rows -/

/-- The number of cells of a row. -/
def rowLength (g : Grid) : Nat := Text.blockSize g.shape.tail

/-- The cells of each row. -/
def rowCells (g : Grid) : List (List Value) :=
  Text.partsOfLength g.rowLength (g.shape.headD 0) g.cells

/-- The words for the cells of a kind. -/
def words (k : CellKind) (cells : List Value) : List String :=
  match k with
  | .element t => t.words (cells.map (CellKind.elementCell t))
  | .word => alignRight (cells.map Value.quoted)
  | _ => cells.map Value.quoted

/-- The text of a grid that has dimensions. -/
def text (g : Grid) : String :=
  if g.cells.isEmpty then "[]"
  else
    let axes := Text.shownAxes g.shape
    Text.blockText " " axes 1 NumArray.lineWidth
      (words g.kind (Text.shownCells g.shape axes g.cells))

/-- The rows of a grid. A row that is a grid itself is given by its text. -/
def rows (g : Grid) : List Value :=
  match g.shape with
  | [] => []
  | [_] => g.cells
  | _ :: shape => g.rowCells.map fun cells => .text (Grid.text ⟨g.kind, shape, cells⟩)

end Grid

end TensorEmit
