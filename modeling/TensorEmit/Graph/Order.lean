import TensorEmit.Graph.Basic

/-!
# The order of evaluation

`Graph.sorted` lists the operations that the outputs need so that each stands behind all that it
needs itself. It goes from the outputs to the producers of the inputs, depth first, and takes an
operation when all its producers are taken. A name that is met again on the way to itself shows a
cycle.
-/

namespace TensorEmit.Graph

/--
The names taken so far, extended by a name and all it needs. `path` holds the names on the way from
an output to this one. The path has no repetition, so it is never longer than there are operations,
and `fuel` that exceeds their number does not run out.
-/
def visit (g : Graph) : (fuel : Nat) → (path taken : List String) → String →
    Except Fault (List String)
  | 0, _, _, _ => .error .cyclic
  | fuel + 1, path, taken, name =>
    if name ∈ taken then .ok taken
    else if name ∈ path then .error .cyclic
    else
      match g.find? name with
      | none => .error (.missing name)
      | some op => do
        let taken ← op.inputs.foldlM (fun acc t => do
          let producer ← TensorName.producer t.name
          g.visit fuel (name :: path) acc producer) taken
        return taken ++ [name]

/-- The names that some names need, in order. -/
def visitAll (g : Graph) (names : List String) : Except Fault (List String) :=
  names.foldlM (g.visit (g.ops.length + 1) []) []

/-- The names that the outputs need, in order. -/
def sorted (g : Graph) : Except Fault (List String) := g.visitAll g.outputs

/-- The graph with its order of evaluation set. -/
def sort (g : Graph) : Except Fault Graph := do return { g with order := ← g.sorted }

end TensorEmit.Graph
