import TensorEmit.Proofs.Emission
import TensorEmit.Proofs.Texts

/-!
# Names of tensors

A tensor that was read from a graph file has the name of its operation, a colon and its place as
its name. Passes make no other names, so every tensor of a graph that reaches emission has such a
name (`Graph.fullyNamed_of_transformedGraph`).
-/

namespace TensorEmit

/-- A tensor has a name with a place. -/
def Tensor.FullyNamed (t : Tensor) : Prop :=
  ∃ (op : String) (i : Nat), t.name = op ++ ":" ++ toString i

theorem Tensor.FullyNamed.unpadded {t : Tensor} (named : t.FullyNamed) :
    Text.Unpadded t.name := by
  obtain ⟨op, i, name⟩ := named
  rw [name]
  exact Text.unpadded_append_decimal _ i

theorem Tensor.fullyNamed_of_content {t t' : Tensor} (same : t'.content = t.content)
    (named : t.FullyNamed) : t'.FullyNamed := by
  obtain ⟨op, i, name⟩ := named
  exact ⟨op, i, (Tensor.name_of_content same).trans name⟩

/-- All tensors of an operation have a name with a place. -/
def Operation.FullyNamed (op : Operation) : Prop := ∀ t ∈ op.tensors, t.FullyNamed

theorem Operation.fullyNamed_of_read {nodes : List Node} {n : Node} {op : Operation}
    (read : n.Read nodes op) : op.FullyNamed := by
  refine Operation.forall_tensors_iff.mpr ⟨?_, ?_⟩
  · intro t member
    obtain ⟨s, _, m, out, i, _, content⟩ := exists_left_of_forall₂ read.inputs member
    exact ⟨m.name, i, Tensor.name_of_content (t := m.outputTensor 0 0 i out) content⟩
  · intro t member
    have shared : t.content ∈ op.outputs.map Tensor.content := List.mem_map_of_mem member
    rw [read.outputs] at shared
    obtain ⟨⟨out, i⟩, _, content⟩ := List.mem_map.mp shared
    exact ⟨_, i, (congrArg Tensor.name content).symm⟩

namespace Graph

theorem operationInvariant_fullyNamed [Importer] (quantizer : Quantizer) :
    OperationInvariant quantizer Operation.FullyNamed where
  alike := fun named alike => alike.forall_tensors Tensor.fullyNamed_of_content named
  inlined := fun named => named
  annotated := fun _ _ named => named
  bypassed := fun _ named run =>
    forall_tensors_of_dropoutRemoved Tensor.fullyNamed_of_content named run
  quantized := fun _ _ _ _ _ _ _ read => Operation.fullyNamed_of_read read

/-- Every tensor of a graph that reaches emission has a name with a place. -/
theorem fullyNamed_of_transformedGraph [Importer] {quantizer : Quantizer} {r : Request}
    {model : String} {e e' : Emission} {g : Graph} {methods : List String}
    (run : (transformedGraph quantizer r model).runOn e = (e', .ok (g, methods))) :
    ∀ op ∈ g.ops, op.FullyNamed :=
  (operationInvariant_fullyNamed quantizer).reaches
    (fun _ _ read => Operation.fullyNamed_of_read read) run

theorem unpadded_of_transformedGraph [Importer] {quantizer : Quantizer} {r : Request}
    {model : String} {e e' : Emission} {g : Graph} {methods : List String}
    (run : (transformedGraph quantizer r model).runOn e = (e', .ok (g, methods))) {op : Operation}
    (member : op ∈ g.orderedOps) : ∀ s ∈ op.inputs.map Tensor.name, Text.Unpadded s := by
  intro s read
  obtain ⟨t, input, rfl⟩ := List.mem_map.mp read
  have inside := mem_of_find? (mem_orderedOps.mp member).2
  have named := fullyNamed_of_transformedGraph run op inside t (List.mem_append_left _ input)
  exact named.unpadded

/-- A graph that reaches emission is in order. -/
theorem ordered_of_transformedGraph [Importer] {quantizer : Quantizer} {r : Request}
    {model : String} {e e' : Emission} {g : Graph} {methods : List String}
    (run : (transformedGraph quantizer r model).runOn e = (e', .ok (g, methods))) :
    g.Ordered g.order := by
  obtain ⟨_, nodes, _, _, g₀, pipeline, _, read, _, runs⟩ := transformedGraph_ok run
  exact runs.ordered (ordered_of_ofNodes read)

end Graph

end TensorEmit
