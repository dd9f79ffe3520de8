import TensorEmit.Attribute.Convert
import TensorEmit.Entries
import TensorEmit.Number.Total
import TensorEmit.TensorName

/-!
# Dataflow graphs

A graph holds operations in the order in which they were added, an order of evaluation and the names
of its output operations. An operation lists the tensors it reads and the tensors it makes. A tensor
names its producer; the producer itself is looked up in the graph that owns the tensor.

Graphs, operations and tensors can be shared, so each of them has a number: two occurrences with one
number are one thing, and a change to it shows at both.
-/

namespace TensorEmit

/-- The number of a graph. -/
abbrev GraphId := Nat

/-- A tensor as an operation lists it. -/
structure Tensor where
  id : Nat
  name : String
  /-- The name of the operation that makes the tensor. -/
  producer : String
  type : ElementType
  /-- The sizes, each a whole number or unknown, or nothing if not even their number is known. -/
  shape : Option (List Value)
  /-- The graph in which the producer is looked up. -/
  owner : GraphId

/-- An operation of a graph. -/
structure Operation where
  id : Nat
  name : String
  type : String
  inputs : List Tensor
  outputs : List Tensor
  attrs : Entries String Value
  owner : GraphId

/-- A graph: its operations, the order of evaluation, the names of its outputs and its backend. -/
structure Graph where
  ops : List Operation
  order : List String
  outputs : List String
  backend : String

/-- The one backend there is. -/
def tensorBackend : String := "tensorflow"

/-! ## Tensors -/

namespace Tensor

/-- Whether a value can be a size. -/
def isSize : Value → Bool
  | .int _ | .bool _ | .none => true
  | _ => false

/-- The sizes of a shape have to be whole numbers or unknown. -/
def checkShape (shape : Option (List Value)) : Except Fault Unit :=
  if (shape.getD []).all isSize then .ok () else .error .badShapeEntries

/-- A field that has to be a text. -/
def textField (field : String) : Value → Except Fault String
  | .text s => .ok s
  | v => .error (.wrongField field Value.textClass v)

/-- A field that has to be an element type. -/
def typeField : Value → Except Fault ElementType
  | .type t => .ok t
  | v => .error (.wrongField "dtype" Value.typeClass v)

/-- A field that has to be a list of sizes or nothing. -/
def shapeField : Value → Except Fault (Option (List Value))
  | .none => .ok none
  | .list vs => .ok (some vs)
  | v => .error (.wrongField "shape" (Value.bracketed "(" ")" [Value.listClass, Value.noneClass]) v)

end Tensor

/-- What a tensor is made from. -/
structure TensorSpec where
  name : Value
  producer : Value
  type : Value
  shape : Value

/-- Makes a tensor of a graph; the fields are checked one after the other. -/
def TensorSpec.make (s : TensorSpec) (id : Nat) (owner : Option GraphId) : Except Fault Tensor := do
  let name ← Tensor.textField "name" s.name
  let producer ← Tensor.textField "op_name" s.producer
  let type ← Tensor.typeField s.type
  let shape ← Tensor.shapeField s.shape
  Tensor.checkShape shape
  match owner with
  | some g => return ⟨id, name, producer, type, shape, g⟩
  | none => throw (.notAGraph Value.intClass)

/-! ## Attributes of operations -/

/-- The mark with which the keys of private attributes start. -/
def privateMark : String := "_utensor_"

/-- An attribute as an operation stores it: a private one as it is, any other in neutral form. -/
def storedAttr (e : String × Value) : Except Fault (String × Value) := do
  if Text.startsWith privateMark e.1 then return e
  return (e.1, ← e.2.toNeutral)

/-- Attributes as an operation stores them. -/
def storedAttrs (attrs : Entries String Value) : Except Fault (Entries String Value) :=
  attrs.mapM storedAttr

/-! ## Operations -/

namespace Operation

/-- The name of an operation's backend has to be the one there is. -/
def checkBackend : Value → Except Fault Unit
  | .text s => if s = tensorBackend then .ok () else .error (.unsupportedBackend (.text s))
  | v => .error (.unsupportedBackend v)

/-- The tensors that an operation lists. -/
def tensors (op : Operation) : List Tensor := op.inputs ++ op.outputs

/-- The operation with each of its tensors changed. -/
def mapTensors (f : Tensor → Tensor) (op : Operation) : Operation :=
  { op with inputs := op.inputs.map f, outputs := op.outputs.map f }

/-- The names of the producers of the inputs, each once. -/
def producers (op : Operation) : List String := (op.inputs.map Tensor.producer).eraseDups

/-- The names of the operations that the names of the inputs speak of. -/
def inputNames (op : Operation) : Except Fault (List String) :=
  op.inputs.mapM fun t => TensorName.producer t.name

end Operation

/-- The fault of values that stand where a list of tensors should. -/
def checkTensorList (side : Side) (v : Value) : Except Fault Unit :=
  let field := match side with
    | .input => "input_tensors"
    | .output => "output_tensors"
  match v with
  | .list [] => .ok ()
  | .list _ => .error (.notTensors side)
  | v => .error (.wrongField field Value.listClass v)

/-! ## Graphs -/

namespace Graph

/-- A graph without operations. -/
def empty : Graph := ⟨[], [], [], ""⟩

/-- The operation of a name. -/
def find? (g : Graph) (name : String) : Option Operation := g.ops.find? fun op => op.name = name

/-- The operation of a name that has to be there. -/
def find (g : Graph) (name : String) : Except Fault Operation :=
  match g.find? name with
  | some op => .ok op
  | none => .error (.missing name)

/-- Whether a graph has an operation of a name. -/
def has (g : Graph) (name : String) : Bool := (g.find? name).isSome

/-- Adds an operation; one of the same name is replaced in its place. -/
def put (g : Graph) (op : Operation) : Graph :=
  if g.has op.name then
    { g with ops := g.ops.map fun old => if old.name = op.name then op else old }
  else { g with ops := g.ops ++ [op] }

/-- Removes an operation but leaves the order of evaluation. -/
def forget (g : Graph) (name : String) : Graph :=
  { g with ops := g.ops.filter fun op => op.name ≠ name }

/-- The graph with each of its operations changed. -/
def mapOps (f : Operation → Operation) (g : Graph) : Graph := { g with ops := g.ops.map f }

/-- The operations in the order of evaluation. -/
def inOrder (g : Graph) : Except Fault (List Operation) := g.order.mapM g.find

/-- The producers of an operation's inputs, each once; nothing stands for one that is not there. -/
def inputNodes (g : Graph) (op : Operation) : List (Option Operation) := op.producers.map g.find?

/-- Whether the producer of an input of an operation is not there. -/
def isDangling (g : Graph) (op : Operation) : Bool :=
  op.producers.any fun name => !g.has name

/-- The operations that read a tensor of the named one, in the order of evaluation. -/
def consumers (g : Graph) (name : String) : Except Fault (List String) := do
  let ops ← g.inOrder
  let readers := ops.filter fun op => op.inputs.any fun t => t.producer = name
  return (readers.map Operation.name).eraseDups

end Graph

end TensorEmit
