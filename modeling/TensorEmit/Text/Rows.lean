import TensorEmit.Text.Search

/-!
# Words in rows

The layout of a block of words that has any number of dimensions. The words of the last dimension
stand in rows between brackets; a row that is too long for a line is broken, and the lines after the
break are indented. A long block is cut: of each dimension only the first and the last members are
shown, with dots between them.
-/

namespace TensorEmit.Text

/-- The greatest number of words that are all shown. -/
def wordLimit : Nat := 1000

/-- How many members are shown at each end of a dimension that is cut. -/
def edgeCount : Nat := 3

/-- What stands for the members that are left out. -/
def dots : String := "..."

/-- A dimension as it is shown: how many of its members, and whether others are left out. -/
structure ShownAxis where
  count : Nat
  cut : Bool
  deriving DecidableEq, Repr

/-- The number of cells of a block. -/
def blockSize (shape : List Nat) : Nat := shape.foldl (· * ·) 1

/-- A dimension of a block in which long dimensions are cut. -/
def ShownAxis.ofSize (n : Nat) : ShownAxis :=
  if 2 * edgeCount < n then ⟨2 * edgeCount, true⟩ else ⟨n, false⟩

/-- The dimensions of a block as they are shown. -/
def shownAxes (shape : List Nat) : List ShownAxis :=
  if wordLimit < blockSize shape then shape.map ShownAxis.ofSize
  else shape.map fun n => ⟨n, false⟩

/-- The parts of a list of `n` parts of one length. -/
def partsOfLength {α : Type} (length : Nat) : (n : Nat) → List α → List (List α)
  | 0, _ => []
  | n + 1, xs => xs.take length :: partsOfLength length n (xs.drop length)

/-- The cells of a block that are shown. -/
def shownCells {α : Type} : (shape : List Nat) → (axes : List ShownAxis) → List α → List α
  | n :: shape, a :: axes, xs =>
    let parts := partsOfLength (blockSize shape) n xs
    let kept := if a.cut then parts.take edgeCount ++ parts.drop (n - edgeCount) else parts
    kept.flatMap (shownCells shape axes)
  | _, _, xs => xs

/-- The members of a dimension with dots where some are left out. -/
def withDots (a : ShownAxis) (parts : List String) : List String :=
  if a.cut then parts.take edgeCount ++ dots :: parts.drop edgeCount else parts

/-- A row under construction: the lines that are done, and the line that is being filled. -/
structure RowState where
  done : String
  line : String

/-- Puts a word into a row. The line is broken before a word that does not fit, unless the line is
empty. -/
def RowState.put (width : Nat) (indent : String) (r : RowState) (word : String) : RowState :=
  if width < r.line.length + word.length ∧ indent.length < r.line.length then
    ⟨r.done ++ trimRight ' ' r.line ++ "\n", indent ++ word⟩
  else ⟨r.done, r.line ++ word⟩

/-- Puts words into a row, divided by a separator. -/
def RowState.putAll (width : Nat) (indent sep : String) : RowState → List String → RowState
  | r, [] => r
  | r, [w] => r.put width indent w
  | r, w :: ws =>
    let r := r.put width indent w
    putAll width indent sep ⟨r.done, r.line ++ sep⟩ ws

/-- A row between brackets, whose lines after the first start with the indentation. -/
def rowText (width : Nat) (indent sep : String) (words : List String) : String :=
  let r := RowState.putAll (width - 1) indent sep ⟨"", indent⟩ words
  "[" ++ String.ofList ((r.done ++ r.line).toList.drop indent.length) ++ "]"

/-- The text of a block of words, in lines of a given width. -/
def blockText (sep : String) : (axes : List ShownAxis) → (indent width : Nat) → List String → String
  | [], _, _, words => words.headD ""
  | [a], indent, width, words => rowText width (blanks indent) sep (withDots a words)
  | a :: b :: axes, indent, width, words =>
    let rest := b :: axes
    let length := (rest.map ShownAxis.count).foldl (· * ·) 1
    let parts := (partsOfLength length a.count words).map
      (blockText sep rest (indent + 1) (width - 1))
    let gap := trimRight ' ' sep ++ String.ofList (List.replicate rest.length '\n') ++ blanks indent
    "[" ++ gap.intercalate (withDots a parts) ++ "]"

end TensorEmit.Text
