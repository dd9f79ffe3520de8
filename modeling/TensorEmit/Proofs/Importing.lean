import TensorEmit.Generate
import TensorEmit.Proofs.Outcome

/-!
# Nodes that an import takes

The import of graph files belongs to the system that the files come from. What it promises of the
nodes that it takes is named here: that inputs name outputs (`Importer.Resolves`), that names are
different (`Importer.ChecksNames`), and that a node of a registered type has as many data inputs as
its type is registered with (`Importer.ChecksArities`). A result that rests on one of these says so.
`Importer.strict` is an import that keeps all of them.
-/

namespace TensorEmit

/-- With how many data inputs the type of a kind is registered. Inlined constants are made by a
pass, so no graph file has them and there is no number for them. -/
def OperatorKind.inputCount : OperatorKind → Option Nat
  | const => some 0
  | inline => none
  | add | argMax | max | min | reshape => some 2
  | dequantize | maxPool | quantize | relu | requantizeRange => some 3
  | quantizedReshape => some 4
  | requantize => some 5
  | matMul | quantizedAdd | conv2d => some 6

/-- With how many data inputs a type is registered, if it is one of those that can be emitted. -/
def registeredInputs (type : String) : Option Nat :=
  if type = inputType then some 0 else (OperatorKind.ofType? type).bind OperatorKind.inputCount

/-- Whether a node has the data inputs that its type is registered with. -/
def Node.fitsType (n : Node) : Bool :=
  match registeredInputs n.type with
  | some count => n.dataInputs.length == count
  | none => true

namespace Importer

/-- Each data input of a node that the import takes names an output among the nodes, and outputs
have sizes that can be sizes. -/
structure Resolves [Importer] : Prop where
  inputs : ∀ {nodes : List Node}, accept nodes = .ok () → ∀ n ∈ nodes, ∀ s ∈ n.dataInputs,
    ∃ found, Node.source nodes s = .ok found
  shapes : ∀ {nodes : List Node}, accept nodes = .ok () → ∀ n ∈ nodes, ∀ out ∈ n.outputs,
    Tensor.checkShape out.shape = .ok ()

/-- Nodes that the import takes have different names, which stay on one line. -/
structure ChecksNames [Importer] : Prop where
  distinct : ∀ {nodes : List Node}, accept nodes = .ok () → (nodes.map Node.name).Nodup
  oneLine : ∀ {nodes : List Node}, accept nodes = .ok () → ∀ n ∈ nodes, '\n' ∉ n.name.toList

end Importer

/-- Refuses nodes that make up no graph, nodes with sizes that cannot be sizes or names that cannot
be names, and nodes without the inputs that their types are registered with. -/
def Node.checkFully (nodes : List Node) : Except Fault Unit := do
  checkAll nodes
  let _ ← (nodes.flatMap Node.outputs).mapM fun out => Tensor.checkShape out.shape
  if (nodes.map Node.name).Nodup ∧ ∀ n ∈ nodes, '\n' ∉ n.name.toList ∧ n.fitsType then return ()
  throw .unfit

theorem Node.checkFully_ok {nodes : List Node} (taken : checkFully nodes = .ok ()) :
    (∀ n ∈ nodes, ∀ s ∈ n.dataInputs, ∃ found, source nodes s = .ok found) ∧
      (∀ n ∈ nodes, ∀ out ∈ n.outputs, Tensor.checkShape out.shape = .ok ()) ∧
      (nodes.map Node.name).Nodup ∧ ∀ n ∈ nodes, '\n' ∉ n.name.toList ∧ n.fitsType := by
  simp only [checkFully, checkAll, bind_eq_ok_iff] at taken
  obtain ⟨_, ⟨_, _, found, named, _⟩, units, sized, last⟩ := taken
  refine ⟨fun n member s read => ?_, fun n member out made => ?_, ?_⟩
  · exact exists_mapM_iff.mp ⟨found, named⟩ s (List.mem_flatMap.mpr ⟨n, member, read⟩)
  · have listed := List.mem_flatMap.mpr ⟨n, member, made⟩
    obtain ⟨_, _, checked⟩ := exists_result_of_mem sized listed
    exact checked
  · split at last
    · assumption
    · cases last

namespace Importer

/-- The import that looks at all that is promised here. -/
@[reducible] def strict : Importer := ⟨Node.checkFully⟩

attribute [local instance] strict

theorem strict_resolves : Resolves where
  inputs := fun taken => (Node.checkFully_ok taken).1
  shapes := fun taken => (Node.checkFully_ok taken).2.1

theorem strict_checksNames : ChecksNames where
  distinct := fun taken => (Node.checkFully_ok taken).2.2.1
  oneLine := fun taken n member => ((Node.checkFully_ok taken).2.2.2 n member).1

end Importer

end TensorEmit
