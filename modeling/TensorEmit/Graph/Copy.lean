import TensorEmit.Graph.Basic

/-!
# Copies

A copy of a graph has the same operations and tensors under new numbers, and the copy owns them. The
numbers grow by one amount that no number reaches, so what was shared inside the graph is shared
inside the copy and nothing is shared between the two. Whatever a copy holds is checked again.
-/

namespace TensorEmit

/-- A copy of a tensor for a graph. -/
def Tensor.copy (base : Nat) (owner : GraphId) (t : Tensor) : Except Fault Tensor := do
  Tensor.checkShape t.shape
  return { t with id := base + t.id, owner := owner }

/-- A copy of an operation for a graph. -/
def Operation.copy (base : Nat) (owner : GraphId) (op : Operation) : Except Fault Operation := do
  let inputs ← op.inputs.mapM (Tensor.copy base owner)
  let outputs ← op.outputs.mapM (Tensor.copy base owner)
  let attrs ← storedAttrs op.attrs
  return { op with id := base + op.id, inputs, outputs, attrs, owner }

/-- A copy of a graph. -/
def Graph.copy (base : Nat) (id : GraphId) (g : Graph) : Except Fault Graph := do
  let ops ← g.ops.mapM (Operation.copy base id)
  return { g with ops }

end TensorEmit
