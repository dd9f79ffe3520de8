import TensorEmit.Graph.Workspace

/-!
# Inlining constants

Marks the constants in the order of evaluation as part of the program text. The graph itself is
changed, so the marks show wherever its operations are shared.
-/

namespace TensorEmit

/-- Marks the named constants of a graph, up to the first name that is not there. -/
def Workspace.inlineAll (w : Workspace) (id : GraphId) : List String → Workspace × Except Fault Unit
  | [] => (w, .ok ())
  | name :: rest =>
    match (w.graph id).find name with
    | .error f => (w, .error f)
    | .ok op =>
      let w' := if op.type = "Const" then
          w.updateOperation op.id fun op => { op with type := "Inline" }
        else w
      w'.inlineAll id rest

/-- Marks the constants of a graph. -/
def Workspace.inlineConstants (w : Workspace) (id : GraphId) : Workspace × Except Fault GraphId :=
  let (w', r) := w.inlineAll id (w.graph id).order
  (w', r.map fun _ => id)

end TensorEmit
