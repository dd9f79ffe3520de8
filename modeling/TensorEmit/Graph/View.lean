import TensorEmit.Graph.Workspace

/-!
# Views of a graph

What can be seen of a graph in a workspace: besides its operations and tensors, whether they are its
own, and what each finds in the graph that owns it.
-/

namespace TensorEmit

/-- What can be seen of a tensor. -/
structure TensorView where
  tensor : Tensor
  own : Bool
  /-- The type of the producing operation. -/
  producerType : Option String
  dangling : Bool

/-- What can be seen of an operation. -/
structure OperationView where
  operation : Operation
  own : Bool
  inputs : List TensorView
  outputs : List TensorView
  inputNodes : List (Option String)
  outputNodes : Except Fault (List String)
  dangling : Bool

namespace Workspace

/-- The operation that makes a tensor. -/
def producerOf (w : Workspace) (t : Tensor) : Option Operation := (w.graph t.owner).find? t.producer

/-- Whether an operation misses a producer in the graph that owns it. -/
def isDangling (w : Workspace) (op : Operation) : Bool := (w.graph op.owner).isDangling op

/-- The sizes of a tensor as they are now, also of one that was seen earlier. -/
def shapeNow (w : Workspace) (t : Tensor) : Option (List Value) :=
  match w.resized.get? t.id with
  | some sizes => some sizes
  | none => t.shape

/-- What can be seen of a tensor from a graph. -/
def viewTensor (w : Workspace) (id : GraphId) (t : Tensor) : TensorView :=
  let producer := w.producerOf t
  ⟨t, t.owner = id, producer.map Operation.type,
    match producer with
    | some op => w.isDangling op
    | none => true⟩

/-- What can be seen of an operation from a graph. -/
def viewOperation (w : Workspace) (id : GraphId) (op : Operation) : OperationView :=
  let home := w.graph op.owner
  { operation := op
    own := op.owner = id
    inputs := op.inputs.map (w.viewTensor id)
    outputs := op.outputs.map (w.viewTensor id)
    inputNodes := (home.inputNodes op).map fun found => found.map Operation.name
    outputNodes := home.consumers op.name >>= fun names => names.mapM fun name =>
      (home.find name).map Operation.name
    dangling := w.isDangling op }

/-- What can be seen of the operations of a graph. -/
def view (w : Workspace) (id : GraphId) : List OperationView :=
  (w.graph id).ops.map (w.viewOperation id)

end Workspace

end TensorEmit
