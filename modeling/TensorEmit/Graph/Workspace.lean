import TensorEmit.Graph.Copy
import TensorEmit.Graph.Prune
import TensorEmit.Graph.Wire

/-!
# The workspace

All graphs at hand, by number, so that a tensor finds the graph that owns it. A graph is never taken
out. Every step gives the new workspace together with its result, since a step that fails can have
changed a graph already. `next` is larger than the number of any operation or tensor.
-/

namespace TensorEmit

/-- A graph handed over to be quantised: its nodes, the names of its inputs and outputs, and the
transformations that are asked for. -/
structure Handover where
  nodes : List Node
  inputs : List String
  outputs : List String
  transforms : List String

/-- The graphs at hand, with the graphs that were handed over so far and the sizes that were set
anew, by the number of the tensor. -/
structure Workspace where
  graphs : List Graph
  next : Nat
  handovers : List Handover
  resized : Entries Nat (List Value)

/-- What an operation is made from. -/
structure OperationSpec where
  name : String
  type : String
  inputs : List TensorSpec
  outputs : List TensorSpec
  attrs : Entries String Value
  backend : Value

namespace Workspace

/-- A workspace without graphs. -/
def empty : Workspace := ⟨[], 0, [], []⟩

/-- A graph by its number. -/
def graph (w : Workspace) (id : GraphId) : Graph := w.graphs.getD id Graph.empty

/-- The number of the next graph. -/
def nextGraph (w : Workspace) : GraphId := w.graphs.length

/-- Adds a graph under the next number. -/
def add (w : Workspace) (g : Graph) : Workspace := { w with graphs := w.graphs ++ [g] }

/-- Replaces a graph. -/
def set (w : Workspace) (id : GraphId) (g : Graph) : Workspace :=
  { w with graphs := w.graphs.set id g }

/-- Sets apart some numbers. -/
def reserve (w : Workspace) (n : Nat) : Workspace := { w with next := w.next + n }

/-- Changes the operation of a number wherever it occurs. -/
def updateOperation (w : Workspace) (id : Nat) (f : Operation → Operation) : Workspace :=
  { w with graphs := w.graphs.map (Graph.mapOps fun op => if op.id = id then f op else op) }

/-- Changes the tensor of a number wherever it occurs. -/
def updateTensor (w : Workspace) (id : Nat) (f : Tensor → Tensor) : Workspace :=
  { w with graphs := w.graphs.map (Graph.mapOps
      (Operation.mapTensors fun t => if t.id = id then f t else t)) }

/-! ## Making graphs -/

/-- Makes an operation of a graph with numbers from `base` on. -/
def makeOperation (base : Nat) (id : GraphId) (s : OperationSpec) : Except Fault Operation := do
  let inputs ← s.inputs.zipIdx.mapM fun e => e.1.make (base + e.2) (some id)
  let start := base + inputs.length
  let outputs ← s.outputs.zipIdx.mapM fun e => e.1.make (start + e.2) (some id)
  Operation.checkBackend s.backend
  let attrs ← storedAttrs s.attrs
  return ⟨start + outputs.length, s.name, s.type, inputs, outputs, attrs, id⟩

/-- How many numbers an operation takes. -/
def numbersFor (s : OperationSpec) : Nat := s.inputs.length + s.outputs.length + 1

/-- Adds a new operation to a graph. -/
def addNew (w : Workspace) (id : GraphId) (s : OperationSpec) : Workspace × Except Fault Unit :=
  match makeOperation w.next id s with
  | .error f => (w, .error f)
  | .ok op => ((w.set id ((w.graph id).put op)).reserve (numbersFor s), .ok ())

/-- Adds new operations to a graph. -/
def addAllNew (w : Workspace) (id : GraphId) : List OperationSpec → Workspace × Except Fault Unit
  | [] => (w, .ok ())
  | s :: rest =>
    match w.addNew id s with
    | (w, .error f) => (w, .error f)
    | (w, .ok _) => w.addAllNew id rest

/-- Sets the order of evaluation of a graph; a graph that has none keeps the old one. -/
def sort (w : Workspace) (id : GraphId) : Workspace × Except Fault Unit :=
  match (w.graph id).sort with
  | .error f => (w, .error f)
  | .ok g => (w.set id g, .ok ())

/-- Builds a graph from specifications of its operations. -/
def build (w : Workspace) (backend : String) (outputs : List String) (ops : List OperationSpec)
    (sorted : Bool) : Workspace × Except Fault GraphId :=
  let id := w.nextGraph
  match (w.add ⟨[], [], outputs, backend⟩).addAllNew id ops with
  | (_, .error f) => (w, .error f)
  | (w', .ok _) =>
    if sorted then
      match w'.sort id with
      | (_, .error f) => (w, .error f)
      | (w'', .ok _) => (w'', .ok id)
    else (w', .ok id)

/-- Reads a graph from nodes. -/
def ofNodes [Importer] (w : Workspace) (nodes : List Node) (outputs : Value) :
    Workspace × Except Fault GraphId :=
  match Graph.ofNodes w.next w.nextGraph nodes outputs with
  | .error f => (w, .error f)
  | .ok g => ((w.add g).reserve (Node.numbersOf nodes), .ok w.nextGraph)

/-- Reads a graph from something that is no graph file. -/
def ofValue (w : Workspace) (v outputs : Value) : Workspace × Except Fault GraphId :=
  match Graph.ofValue v outputs with
  | .error f => (w, .error f)
  | .ok g => (w.add g, .ok w.nextGraph)

/-- Copies a graph. -/
def copy (w : Workspace) (id : GraphId) : Workspace × Except Fault GraphId :=
  match (w.graph id).copy w.next w.nextGraph with
  | .error f => (w, .error f)
  | .ok g => ((w.add g).reserve w.next, .ok w.nextGraph)

/-- Copies a graph without the operations that its outputs do not need. -/
def prune (w : Workspace) (id : GraphId) : Workspace × Except Fault GraphId :=
  match (w.graph id).copy w.next w.nextGraph >>= Graph.pruned with
  | .error f => (w, .error f)
  | .ok g => ((w.add g).reserve w.next, .ok w.nextGraph)

/-! ## Changing graphs -/

/-- Adds an operation that another graph may hold too. -/
def addShared (w : Workspace) (id : GraphId) (op : Operation) : Workspace × Except Fault Unit :=
  if (w.graph id).has op.name then (w, .error (.duplicateOperation op.name))
  else (w.set id ((w.graph id).put op)).sort id

/-- Refuses to add something that is no operation. -/
def addValue (w : Workspace) (v : Value) : Workspace × Except Fault Unit :=
  (w, .error (.notAnOperation v))

/-- Takes an operation out of a graph and out of its order of evaluation. An operation that the
order does not list is taken out all the same, but that is a fault. -/
def dropOperation (w : Workspace) (id : GraphId) (name : String) : Workspace × Except Fault Unit :=
  let g := w.graph id
  if g.has name then
    let g' := { g.forget name with order := g.order.erase name }
    (w.set id g', if name ∈ g.order then .ok () else .error .notListed)
  else (w, .error (.operationNotFound name))

/-- Takes an operation out of a graph but leaves it in the order of evaluation. -/
def forget (w : Workspace) (id : GraphId) (name : String) : Workspace × Except Fault Unit :=
  if (w.graph id).has name then (w.set id ((w.graph id).forget name), .ok ())
  else (w, .error (.missing name))

/-- Sets the names of the outputs. -/
def setOutputs (w : Workspace) (id : GraphId) (outputs : List String) :
    Workspace × Except Fault Unit :=
  (w.set id { w.graph id with outputs }, .ok ())

/-- Sets the type of an operation. -/
def setType (w : Workspace) (id : GraphId) (name type : String) : Workspace × Except Fault Unit :=
  match (w.graph id).find name with
  | .error f => (w, .error f)
  | .ok op => (w.updateOperation op.id fun op => { op with type }, .ok ())

/-- Sets the sizes of the tensor at a position of one side of an operation. -/
def setShape (w : Workspace) (id : GraphId) (name : String) (side : Side) (i : Int)
    (shape : Value) : Workspace × Except Fault Unit :=
  match (w.graph id).find name with
  | .error f => (w, .error f)
  | .ok op =>
    let tensors := match side with
      | .input => op.inputs
      | .output => op.outputs
    match pick tensors i with
    | none => (w, .error .outOfRange)
    | some t =>
      match t.shape, shape.members? with
      | some _, some sizes =>
        let w' := w.updateTensor t.id fun t => { t with shape := some sizes }
        ({ w' with resized := w'.resized.set t.id sizes }, .ok ())
      | _, _ => (w, .error .unfit)

/-- Makes an operation without tensors from values that stand where lists of tensors should. -/
def addFromValues (w : Workspace) (id : GraphId) (name : String) (inputs outputs : Value)
    (owned : Bool) : Workspace × Except Fault Unit :=
  match (do
    if !owned then throw (.notAGraph Value.intClass)
    checkTensorList .input inputs
    checkTensorList .output outputs : Except Fault Unit) with
  | .error f => (w, .error f)
  | .ok _ => w.addNew id ⟨name, "X", [], [], [], .text tensorBackend⟩

/-- Copies an operation into a graph. -/
def copyInto (w : Workspace) (src dst : GraphId) (name : String) :
    Workspace × Except Fault Operation :=
  match (w.graph src).find name >>= Operation.copy w.next dst with
  | .error f => (w, .error f)
  | .ok op => ((w.set dst ((w.graph dst).put op)).reserve w.next, .ok op)

end Workspace

end TensorEmit
