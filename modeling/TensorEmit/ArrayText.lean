import TensorEmit.Element
import TensorEmit.Number.Column
import TensorEmit.Text.Rows

/-!
# The text of an array

An array is shown in rows of words of one width. On its own it is shown without its element type;
among other values the type is added, unless it is one of the three that a plain list of numbers
has.
-/

namespace TensorEmit

/-- Words with blanks before them up to one width. -/
def alignRight (words : List String) : List String :=
  let width := Number.greatest (words.map String.length)
  words.map fun w => String.ofList (Number.padLeft width w.toList)

/-- The words for elements of a type; a truth value has the same width as the other. -/
def ElementType.words (t : ElementType) (cells : List Int) : List String :=
  let words := match t.floatFormat? with
    | some fmt => Number.columnWords fmt (cells.map Int.toNat)
    | none =>
      if t.base = .bool then cells.map fun c => if c = 0 then "False" else " True"
      else alignRight (cells.map toString)
  if t.isQuantized then words.map fun w => "(" ++ w ++ ",)" else words

/-- The name of an element type in the text of an array. -/
def ElementType.label (t : ElementType) : String :=
  match t with
  | .float32High | .int32High => "'" ++ t.name ++ "'"
  | t => t.text

/-- Whether a plain list of numbers has this element type. -/
def ElementType.isUsual : ElementType → Bool
  | .int64 | .float64 | .bool => true
  | _ => false

/-- The sizes of a shape between parentheses. -/
def shapeTuple : List Nat → String
  | [n] => "(" ++ toString n ++ ",)"
  | ns => "(" ++ ", ".intercalate (ns.map toString) ++ ")"

namespace NumArray

/-- The width of a line of array text. -/
def lineWidth : Nat := 75

/-- The rows of an array. A truth value without a row has no blank before it. -/
def rowsText (sep : String) (indent width : Nat) (a : NumArray) : String :=
  if a.cells.isEmpty then "[]"
  else if a.shape = [] ∧ a.type = .bool then String.join (a.cells.map a.type.cellText)
  else
    let axes := Text.shownAxes a.shape
    let words := a.type.words (Text.shownCells a.shape axes a.cells)
    Text.blockText sep axes indent width words

/-- An array on its own; one without dimensions is shown as its element. -/
def text (a : NumArray) : String :=
  match a.shape, a.cells with
  | [], c :: _ => a.type.cellText c
  | _, _ => a.rowsText " " 1 lineWidth

/-- What stands before the rows of an array among other values. -/
def opening : String := "array("

/-- An array among other values. The element type goes to a line of its own if it does not fit. -/
def quoted (a : NumArray) : String :=
  let rows :=
    if a.cells.isEmpty ∧ a.shape ≠ [0] then "[], shape=" ++ shapeTuple a.shape
    else a.rowsText ", " (opening.length + 1) (lineWidth - 1)
  if a.type.isUsual ∧ ¬ a.cells.isEmpty then opening ++ rows ++ ")"
  else
    let front := opening ++ rows ++ ","
    let label := "dtype=" ++ a.type.label ++ ")"
    let last := front.toList.reverse.takeWhile (· ≠ '\n')
    let gap := if lineWidth < last.length + label.length + 1
      then "\n" ++ Text.blanks opening.length else " "
    front ++ gap ++ label

end NumArray

end TensorEmit
