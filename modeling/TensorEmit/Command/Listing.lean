import TensorEmit.Disk.Site
import TensorEmit.Graph.Workspace

/-!
# Listing a graph file

The operations of a graph file in order, each in one line or as a paragraph with its tensors. Names
are highlighted by escape sequences, which a terminal without colours does not show.
-/

namespace TensorEmit.Command

/-! ## Highlighting -/

/-- A highlight by its colour number; all highlights are bold. -/
def highlighted (colour text : String) : String :=
  "\x1b[" ++ colour ++ "m\x1b[1m" ++ text ++ "\x1b[0m"

/-- The highlight of names. -/
def emphasised (text : String) : String := highlighted "33" text

/-- The highlight of complaints. -/
def alarming (text : String) : String := highlighted "31" text

/-- Whether a character stands between the bracket and the letter of an escape sequence. -/
def isEscapeParameter (c : Char) : Bool := c.isDigit || c = ';' || c = '?'

/-- The length of the escape sequence that characters start with, or zero. -/
def escapeLength : List Char → Nat
  | '\x1b' :: '[' :: rest =>
    match rest.dropWhile isEscapeParameter with
    | c :: _ => if c.isAlpha then 3 + (rest.takeWhile isEscapeParameter).length else 0
    | [] => 0
  | _ => 0

/-- Characters without escape sequences, of which the first `skip` are left out anyway. -/
def dropEscapes : (skip : Nat) → List Char → List Char
  | _, [] => []
  | skip + 1, _ :: rest => dropEscapes skip rest
  | 0, c :: rest =>
    match escapeLength (c :: rest) with
    | 0 => c :: dropEscapes 0 rest
    | n + 1 => dropEscapes n rest

/-- A text as a terminal without colours shows it. -/
def withoutHighlights (text : String) : String := String.ofList (dropEscapes 0 text.toList)

/-! ## Operations -/

/-- The text that shows a tensor. -/
def tensorText (t : Tensor) : String :=
  let shape := match t.shape with
    | some vs => (Value.list vs).quoted
    | none => Value.none.quoted
  "TensorInfo(name=" ++ Text.quoted t.name ++ ", op_name=" ++ Text.quoted t.producer ++
    ", dtype=" ++ t.type.quoted ++ ", shape=" ++ shape ++
    ", ugraph=<utensor_cgen.ir.base.uTensorGraph object>)"

/-- The texts of tensors in brackets. -/
def tensorTexts (ts : List Tensor) : String := Value.bracketed "[" "]" (ts.map tensorText)

/-- The names of tensors in brackets. -/
def tensorNames (ts : List Tensor) : String :=
  (Value.list (ts.map fun t => .text t.name)).quoted

/-- An operation in one line. -/
def operationLine (op : Operation) : String :=
  emphasised (op.name ++ " ") ++ "op_type: " ++ op.type ++ ", inputs: " ++ tensorNames op.inputs ++
    ", outputs: " ++ tensorNames op.outputs ++ "\n"

/-- An operation as a paragraph. -/
def operationParagraph (op : Operation) : String :=
  emphasised ("op_name: " ++ op.name ++ "\n") ++ "      op_type: " ++ op.type ++
    "\n      input(s):\n        " ++ tensorTexts op.inputs ++
    "\n      ouptut(s):\n        " ++ tensorTexts op.outputs ++ "\n"

/-- The text that lists operations. -/
def operationsText (oneline : Bool) (ops : List Operation) : String :=
  if oneline then String.join (ops.map operationLine)
  else "\n".intercalate (ops.map operationParagraph) ++ "\n"

/-! ## Graph files -/

/-- The operations of the graph in a file, with all of them wanted. -/
def operationsOf [Importer] (nodes : List Node) : Except Fault (List Operation) := do
  let (w, r) := Workspace.empty.ofNodes nodes (.list (nodes.map fun n => .text n.name))
  (w.graph (← r)).inOrder

/-- The nodes in a graph file. -/
def readNodes (d : Disk) (path : String) : Except Fault (List Node) := do
  match ← d.read path with
  | .model nodes => return nodes
  | .savedModel nodes => return nodes
  | _ => throw .unfit

/-- Lists a graph file: the text that is shown, and what went wrong. A file with another extension
is complained about, and then there is no graph to list. -/
def list [Importer] (d : Disk) (path : String) (oneline : Bool) : String × Except Fault Unit :=
  if Path.extension path = ".pb" then
    match readNodes d path >>= operationsOf with
    | .ok ops => (operationsText oneline ops, .ok ())
    | .error f => ("", .error f)
  else (alarming ("unknown file extension: " ++ Path.extension path) ++ "\n", .error .noResult)

end TensorEmit.Command
