import TensorEmit.Graph.Workspace

/-!
# Reference counts

Notes on every operation in the order of evaluation how often each of its outputs is read, and
whether the operation has to be evaluated at once. Outputs of the graph, constants and inputs of the
graph do not.
-/

namespace TensorEmit

/-- The key of the note that an operation has to be evaluated. -/
def evaluateKey : String := "_utensor_refcnt__to_eval"

/-- The key of the note of how often outputs are read. -/
def countsKey : String := "_utensor_refcnt__ref_counts"

namespace Graph

/-- How often the operations of a graph read a tensor name. -/
def uses (g : Graph) (name : String) : Nat :=
  (g.ops.flatMap fun op => op.inputs.map Tensor.name).count name

/-- Whether an operation has to be evaluated at once. -/
def evaluatesAtOnce (g : Graph) (op : Operation) : Bool :=
  !(op.name ∈ g.outputs || op.type = "Const" || op.type = "Placeholder")

/-- The operation with its notes. -/
def annotate (g : Graph) (op : Operation) : Operation :=
  let counts := op.outputs.map fun t => Value.int (g.uses t.name)
  let noted := op.attrs.set evaluateKey (.bool (g.evaluatesAtOnce op))
  { op with attrs := noted.set countsKey (.list counts) }

/-- The graph with notes on every operation in the order of evaluation. -/
def counted (g : Graph) : Except Fault Graph := do
  let _ ← g.order.reverse.mapM g.find
  return g.mapOps fun op => if op.name ∈ g.order then g.annotate op else op

end Graph

/-- Adds reference counts to a copy of a graph. -/
def Workspace.countReferences (w : Workspace) (id : GraphId) : Workspace × Except Fault GraphId :=
  match (w.graph id).copy w.next w.nextGraph >>= Graph.counted with
  | .error f => (w, .error f)
  | .ok g => ((w.add g).reserve w.next, .ok w.nextGraph)

end TensorEmit
