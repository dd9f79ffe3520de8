import TensorEmit.Proofs.Emission
import TensorEmit.Proofs.Export
import TensorEmit.Proofs.Importing

/-!
# What a graph has from its import

The promises of an import are about the nodes that it takes. The passes keep them: in a graph that
reaches emission names stay on one line, the sizes of all tensors can be sizes, and an operation of
a registered type has as many inputs as its type is registered with
(`Graph.fitsType_of_transformedGraph`). An inlined constant is no exception, since its type is not
registered.
-/

namespace TensorEmit

/-- The name of an operation stays on one line. -/
def Operation.OneLine (op : Operation) : Prop := '\n' ∉ op.name.toList

namespace Graph

variable [Importer] (quantizer : Quantizer)

theorem operationInvariant_shaped : OperationInvariant quantizer Operation.Shaped where
  alike := fun shaped alike => alike.forall_tensors Tensor.shaped_of_content shaped
  inlined := fun shaped => shaped
  annotated := fun _ _ shaped => shaped
  bypassed := fun _ shaped run =>
    forall_tensors_of_dropoutRemoved Tensor.shaped_of_content shaped run
  quantized := fun _ _ _ _ _ _ _ read => read.shaped

theorem oneLine_of_read (names : Importer.ChecksNames) {nodes : List Node} {n : Node}
    {op : Operation} (taken : Importer.accept nodes = .ok ()) (member : n ∈ nodes)
    (read : n.Read nodes op) : op.OneLine := by
  unfold Operation.OneLine
  rw [read.name]
  exact names.oneLine taken n member

theorem operationInvariant_oneLine (names : Importer.ChecksNames) :
    OperationInvariant quantizer Operation.OneLine where
  alike := by
    intro op op' oneLine alike
    unfold Operation.OneLine
    rwa [alike.name]
  inlined := fun oneLine => oneLine
  annotated := fun _ _ oneLine => oneLine
  bypassed := by
    intro g g' base owner _ oneLine run op' member
    obtain ⟨inputs, sources, _⟩ := dropoutRemoved_ok run
    obtain ⟨_, _, op, found, bypassed⟩ := exists_of_dropoutRemoved sources run member
    unfold Operation.OneLine
    rw [bypassed.name]
    exact oneLine op (mem_of_find? found)
  quantized := fun _ _ _ taken n member _ read => oneLine_of_read names taken member read

section Reached

variable {quantizer} {r : Request} {model : String} {e e' : Emission} {g : Graph}
  {methods : List String}
  (run : (transformedGraph quantizer r model).runOn e = (e', .ok (g, methods)))

include run

/-- The sizes of all tensors of a graph that reaches emission can be sizes. -/
theorem shaped_of_transformedGraph : ∀ op ∈ g.ops, op.Shaped :=
  (operationInvariant_shaped quantizer).reaches (fun _ _ read => read.shaped) run

theorem oneLine_of_transformedGraph (names : Importer.ChecksNames) : ∀ op ∈ g.ops, op.OneLine :=
  (operationInvariant_oneLine quantizer names).reaches (oneLine_of_read names) run

end Reached

end Graph

end TensorEmit
