import TensorEmit.Graph.Order
import TensorEmit.Position
import TensorEmit.Text.Classes

/-!
# Graphs on the wire

A graph file is a list of nodes. A node names its inputs; an input that starts with a caret only
asks for an order and brings no tensor. What each node makes is declared with the node. Before the
first node is read, the import of the system that the file comes from has to take all of them
(`Importer`).
-/

namespace TensorEmit

/-- The declared type and shape of one output of a node. -/
structure NodeOutput where
  type : ElementType
  shape : Option (List Value)

/-- A node of a graph file. -/
structure Node where
  name : String
  type : String
  inputs : List String
  device : Value
  attrs : Entries String Value
  outputs : List NodeOutput

/-- The key under which an operation stores the device of its node. -/
def deviceKey : String := "tensorflow__device"

/-! ## Reading -/

namespace Node

/-- The node of a name; of several the last one counts. -/
def find? (nodes : List Node) (name : String) : Option Node :=
  nodes.reverse.find? fun n => n.name = name

/-- The data inputs of a node. -/
def dataInputs (n : Node) : List String := n.inputs.filter fun s => s.toList.head? ≠ some '^'

/-- The output that an input names, with its node and its place there. -/
def source (nodes : List Node) (input : String) : Except Fault (Node × NodeOutput × Nat) := do
  let name ← TensorName.parse input
  match find? nodes name.op with
  | none => throw (.missing name.op)
  | some n =>
    match pick n.outputs.zipIdx name.index with
    | none => throw .outOfRange
    | some out => return (n, out)

/-- Refuses nodes that make up no graph: each output has a type that has a number on the wire, and
each data input names an output. -/
def checkAll (nodes : List Node) : Except Fault Unit := do
  let _ ← (nodes.flatMap Node.outputs).mapM fun out => Converter.codeOfElementType out.type
  let _ ← (nodes.flatMap dataInputs).mapM (source nodes)

end Node

/-- The import of the system that graph files come from. It takes the nodes of a file as a whole or
refuses them; what it makes of a node it takes are the outputs that are declared with the node. It
is no part of this library, so all that reads a graph file is given one. -/
class Importer where
  accept : List Node → Except Fault Unit

/-- The import that takes nodes by their names alone. -/
@[reducible] def Importer.byName : Importer := ⟨Node.checkAll⟩

namespace Node

/-- The tensor of an output of a node. -/
def outputTensor (n : Node) (id : Nat) (owner : GraphId) (i : Nat) (out : NodeOutput) : Tensor :=
  ⟨id, n.name ++ ":" ++ toString i, n.name, out.type, out.shape, owner⟩

/-- The tensor that an input names. -/
def inputTensor (nodes : List Node) (id : Nat) (owner : GraphId) (input : String) :
    Except Fault Tensor := do
  let (n, out, i) ← source nodes input
  return n.outputTensor id owner i out

/-- The operation of a node, with numbers from `base` on. Its tensors are those of the last node of
the same name. -/
def operation (nodes : List Node) (base : Nat) (owner : GraphId) (n : Node) :
    Except Fault Operation := do
  let body := (find? nodes n.name).getD n
  let inputs ← body.dataInputs.zipIdx.mapM fun e => inputTensor nodes (base + e.2) owner e.1
  let start := base + inputs.length
  let outputs := body.outputs.zipIdx.map fun e =>
    body.outputTensor (start + e.2) owner e.2 e.1
  let _ ← (inputs ++ outputs).mapM fun t => Tensor.checkShape t.shape
  let attrs ← storedAttrs n.attrs
  return ⟨start + outputs.length, n.name, n.type, inputs, outputs, attrs.set deviceKey n.device,
    owner⟩

/-- How many numbers the operation of a node takes. -/
def numbers (nodes : List Node) (n : Node) : Nat :=
  let body := (find? nodes n.name).getD n
  body.inputs.length + body.outputs.length + 1

/-- Whether a node holds a variable, which a frozen graph has none of. -/
def isVariable (n : Node) : Bool := n.type = "VariableV2"

end Node

/-- Adds the operations of nodes to a graph. -/
def Graph.addNodes (all : List Node) (id : GraphId) : (base : Nat) → Graph → List Node →
    Except Fault Graph
  | _, g, [] => .ok g
  | base, g, n :: rest => do
    let op ← n.operation all base id
    Graph.addNodes all id (base + n.numbers all) (g.put op) rest

/-- How many numbers a list of nodes takes. -/
def Node.numbersOf (nodes : List Node) : Nat := Number.total (nodes.map (Node.numbers nodes))

/-- The output names that a value lists, up to the first that is no text, with that one's fault. -/
def outputNames : List Value → List String × Option Fault
  | [] => ([], none)
  | .text s :: rest => let (names, fault) := outputNames rest; (s :: names, fault)
  | v :: _ => ([], some (if v.isKey then .unfiled v else .unfit))

/-- The members of a list of outputs; nothing is an empty list. -/
def outputList : Value → Except Fault (List Value)
  | .none => .ok []
  | .list vs => .ok vs
  | v => .error (.outputsNotList v)

/-- Reads a graph from its nodes, with numbers from `base` on. -/
def Graph.ofNodes [Importer] (base : Nat) (id : GraphId) (nodes : List Node) (outputs : Value) :
    Except Fault Graph := do
  let outs ← outputList outputs
  if outs.isEmpty then throw .noOutputs
  if nodes.any Node.isVariable then throw .notFrozen
  Importer.accept nodes
  let (names, fault) := outputNames outs
  let g ← Graph.addNodes nodes id base ⟨[], [], names, tensorBackend⟩ nodes
  let g ← g.sort
  match fault with
  | some f => throw f
  | none => return g

/-- Reads a graph from something that is no graph file. -/
def Graph.ofValue (v outputs : Value) : Except Fault Graph :=
  match v with
  | .none => .ok Graph.empty
  | _ => do
    let _ ← outputList outputs
    throw .unknownGraphForm

/-! ## Writing -/

/-- Whether characters start with two low lines and an identifier. -/
def startsPrivateName : List Char → Bool
  | '_' :: '_' :: c :: _ => Text.isIdentStart c
  | _ => false

/-- Whether two low lines and an identifier follow on some of the word characters at the start. -/
def hasScope : List Char → Bool
  | [] => false
  | c :: cs => startsPrivateName (c :: cs) || (Text.isWordChar c && hasScope cs)

/-- Whether an attribute is kept out of graph files: its key is a scope, two low lines and a
name. -/
def isScopedKey (key : String) : Bool :=
  match key.toList with
  | [] => false
  | c :: cs => Text.isIdentStart c && hasScope cs

/-- An attribute as a graph file holds it. -/
def wireAttrOf : Value → Except Fault Value
  | .attr kind v => do return .wireAttr (some kind) (← v.toWire)
  | _ => .error .noPart

/-- The node of an operation. -/
def Operation.node (op : Operation) : Except Fault Node := do
  let attrs ← (op.attrs.filter fun e => !isScopedKey e.1).mapM fun e => do
    return (e.1, ← wireAttrOf e.2)
  return ⟨op.name, op.type, op.inputs.map Tensor.name, (op.attrs.get? deviceKey).getD (.text ""),
    attrs, []⟩

/-- The nodes of a graph in the order of evaluation. -/
def Graph.nodes (g : Graph) : Except Fault (List Node) := do
  if g.backend ≠ tensorBackend then throw .foreignBackend
  g.order.mapM fun name => do (← g.find name).node

end TensorEmit
