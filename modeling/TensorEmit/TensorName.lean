import TensorEmit.Fault
import TensorEmit.Text.Integer
import TensorEmit.Text.Search

/-!
# Tensor names

A tensor is named by the operation that produces it and by its place among that operation's outputs,
as in `conv:1`; without a place it is the first output. A control input is written with a leading
caret, which is not part of the name.
-/

namespace TensorEmit

/-- A tensor name taken apart. -/
structure TensorName where
  op : String
  index : Int
  deriving DecidableEq, Repr

namespace TensorName

/-- The name of an operation without the mark of a control input. -/
def dropControlMark (s : String) : String :=
  match s.toList with
  | '^' :: cs => String.ofList cs
  | _ => s

/-- Takes a tensor name apart. -/
def parse (s : String) : Except Fault TensorName :=
  match Text.splitAt ":" s with
  | [op] => .ok ⟨dropControlMark op, 0⟩
  | [op, index] =>
    match Text.readInt? index with
    | some i => .ok ⟨dropControlMark op, i⟩
    | none => .error (.badOutputIndex s)
  | _ => .error (.badTensorName s)

/-- The name of the operation that produces a tensor. -/
def producer (s : String) : Except Fault String := (parse s).map TensorName.op

/-- The full form of a tensor name. -/
def render (t : TensorName) : String := t.op ++ ":" ++ toString t.index

end TensorName

/-- A tensor name with the marks that cannot stand in a file name replaced by low lines. -/
def flatName (s : String) : String :=
  Text.replaceChar '/' '_' (Text.replaceChar ':' '_' s)

end TensorEmit
