import TensorEmit.Graph.Basic

/-!
# Pruning

`Graph.pruned` keeps the operations that the outputs need and drops all others. It goes from the
outputs to the producers of the inputs, breadth first.
-/

namespace TensorEmit.Graph

/--
The names met so far, extended by the producers that the waiting names need. Every name waits at
most as often as the outputs and one list of inputs name it, which bounds `fuel`.
-/
def meet (g : Graph) : (fuel : Nat) → (waiting met : List String) → Except Fault (List String)
  | _, [], met => .ok met
  | 0, _ :: _, met => .ok met
  | fuel + 1, name :: waiting, met => do
    let op ← g.find name
    let names ← op.inputNames
    g.meet fuel (waiting ++ names.filter fun n => n ∉ met) (met ++ names.filter fun n => n ∉ met)

/-- A bound on the number of names that wait. -/
def meetBound (g : Graph) : Nat :=
  g.outputs.length + Number.total (g.ops.map fun op => op.inputs.length) + 1

/-- The names that the outputs need. -/
def needed (g : Graph) : Except Fault (List String) := do
  return g.outputs ++ (← g.meet g.meetBound g.outputs [])

/-- The graph without the operations that its outputs do not need. -/
def pruned (g : Graph) : Except Fault Graph := do
  let names ← g.needed
  return { g with ops := g.ops.filter fun op => op.name ∈ names }

end TensorEmit.Graph
