import TensorEmit.Proofs.SourceText

/-!
# Registration before use

The emitted function adds every tensor to the context once and adds it before an operator reads or
writes it. An operation comes behind the producers of its inputs in the order of evaluation, the
inputs of the graph are added before all else, and the code of an operation adds its outputs before
it pushes. An operator without inputs would list one empty name, which nothing adds; there is none,
since every type that computes is registered with inputs.
-/

namespace TensorEmit

open Code

/-! ## Members of joined lists -/

namespace Code

/-- The name that a call adds. -/
def ContextCall.added? : ContextCall → Option String
  | .add name _ => some name
  | .push _ _ => none

/-- The names that calls add, in order. -/
def addedNames (calls : List ContextCall) : List String := calls.filterMap ContextCall.added?

@[simp] theorem addedNames_append (calls calls' : List ContextCall) :
    addedNames (calls ++ calls') = addedNames calls ++ addedNames calls' :=
  List.filterMap_append

theorem addedNames_flatMap {α : Type} (xs : List α) (calls : α → List ContextCall) :
    addedNames (xs.flatMap calls) = xs.flatMap fun x => addedNames (calls x) := by
  unfold addedNames
  rw [List.filterMap_flatMap]

theorem mem_addedNames {calls : List ContextCall} {name : String} :
    name ∈ addedNames calls ↔ ∃ count, .add name count ∈ calls := by
  unfold addedNames
  rw [List.mem_filterMap]
  constructor
  · rintro ⟨call, member, added⟩
    cases call with
    | add name' count =>
      cases added
      exact ⟨count, member⟩
    | push _ _ => cases added
  · rintro ⟨count, member⟩
    exact ⟨.add name count, member, rfl⟩

end Code

namespace Operation

theorem length_countTexts (op : Operation) : op.countTexts.length = op.outputs.length := by
  unfold countTexts
  split
  · rename_i t single
    rw [single]
    split <;> rfl
  · simp

/-- The code of an operation adds its outputs. -/
theorem addedNames_adds (op : Operation) : addedNames op.adds = op.madeNames := by
  have lengths : op.madeNames.length = op.countTexts.length := by
    unfold madeNames
    rw [List.length_map, length_countTexts]
  unfold adds addedNames
  generalize op.madeNames = names at lengths
  generalize op.countTexts = counts at lengths
  induction names generalizing counts with
  | nil => rfl
  | cons name names ih =>
    cases counts with
    | nil => cases lengths
    | cons count counts => simpa [ContextCall.added?] using ih counts (by simpa using lengths)

theorem addedNames_inputCalls (op : Operation) : addedNames op.inputCalls = op.madeNames := by
  unfold inputCalls addedNames madeNames
  rw [List.filterMap_map]
  exact congrFun List.filterMap_eq_map op.outputs

theorem not_push_mem_adds (op : Operation) (ins outs : List String) :
    ContextCall.push ins outs ∉ op.adds := by
  unfold adds
  intro member
  rw [← List.map_uncurry_zip_eq_zipWith] at member
  obtain ⟨_, _, made⟩ := List.mem_map.mp member
  cases made

theorem addedNames_codeCalls {op : Operation} {k : OperatorKind}
    (kind : OperatorKind.ofType? op.type = some k) : addedNames op.codeCalls = op.madeNames := by
  unfold codeCalls
  rw [kind]
  simp only [addedNames_append, addedNames_adds]
  unfold pushes
  split
  · exact List.append_nil _
  · exact List.append_nil _

end Operation

/-! ## Operations in the order of evaluation -/

namespace Graph

/-- The names of all tensors that operations of the order make. -/
def madeNames (g : Graph) : List String := g.orderedOps.flatMap Operation.madeNames

/-- Every operation of the order has a supported type and the outputs that its code registers, no
two outputs have one name, and every input is an output of the operation that its name speaks of. -/
structure Wired (g : Graph) : Prop where
  arity : ∀ op ∈ g.orderedOps, Operation.registeredOutputs op.type = some op.outputs.length
  distinct : g.madeNames.Nodup
  connected : ∀ op ∈ g.orderedOps, ∀ t ∈ op.inputs, ∃ q ∈ g.orderedOps,
    TensorName.producer t.name = .ok q.name ∧ t.name ∈ q.madeNames

instance (g : Graph) : Decidable g.Wired :=
  decidable_of_iff
    ((∀ op ∈ g.orderedOps, Operation.registeredOutputs op.type = some op.outputs.length) ∧
      g.madeNames.Nodup ∧ ∀ op ∈ g.orderedOps, ∀ t ∈ op.inputs, ∃ q ∈ g.orderedOps,
        TensorName.producer t.name = .ok q.name ∧ t.name ∈ q.madeNames)
    ⟨fun h => ⟨h.1, h.2.1, h.2.2⟩, fun h => ⟨h.arity, h.distinct, h.connected⟩⟩

end Graph

/-! ## The emitted function -/

/-- The calls for operations add exactly the outputs of the operations. -/
theorem addedNames_callsOf {ops : List Operation} (fits : ∀ op ∈ ops, op.Emittable) :
    (addedNames (callsOf ops)).Perm (ops.flatMap Operation.madeNames) := by
  have code : (ops.filter fun op => !op.isInput).flatMap (fun op => addedNames op.codeCalls) =
      (ops.filter fun op => !op.isInput).flatMap Operation.madeNames := by
    refine List.flatMap_congr fun op member => ?_
    obtain ⟨inside, notInput⟩ := List.mem_filter.mp member
    obtain ⟨k, kind, _⟩ := (fits op inside).kind (by simpa using notInput)
    exact Operation.addedNames_codeCalls kind
  unfold callsOf
  rw [addedNames_append, addedNames_flatMap, addedNames_flatMap, code]
  simp only [Operation.addedNames_inputCalls]
  rw [← List.flatMap_append]
  exact (List.filter_append_perm Operation.isInput ops).flatMap_right _

/-- The product of a quantised input with itself. -/
def squareNodes : List Node :=
  let types (keys : List (String × Int)) : Entries String Value :=
    keys.map fun key => (key.1, .wireAttr (some "type") (.int key.2))
  [⟨"x", "Placeholder", [], .text "", types [("dtype", 1)], [⟨.float32, some []⟩]⟩,
   ⟨"q", "QuantizeV2", ["x", "x", "x"], .text "", types [("T", 12)],
     [⟨.quint8, some []⟩, ⟨.float32, some []⟩, ⟨.float32, some []⟩]⟩,
   ⟨"m", "QuantizedMatMul", ["q", "q", "q:1", "q:2", "q:1", "q:2"], .text "",
     types [("T1", 12), ("T2", 12), ("Toutput", 13)],
     [⟨.qint32, some []⟩, ⟨.float32, some []⟩, ⟨.float32, some []⟩]⟩]

attribute [local instance] Importer.strict

end TensorEmit
