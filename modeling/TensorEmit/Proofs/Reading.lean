import TensorEmit.Graph.Wire
import TensorEmit.Proofs.Copies

/-!
# What reading a graph file gives

`Node.Read` relates a node to the operation that is read from it: the operation lists a tensor for
each data input, named after the output that the input names, and a tensor for each output.
`Graph.ofNodes_ok` says that a graph that was read holds operations of its nodes and nothing else
and is in order; if the names of the nodes differ, there is one operation for each node, in the
order of the nodes (`Graph.ops_of_addNodes`).
-/

namespace TensorEmit

/-- What is picked is a member. -/
theorem mem_of_pick {α : Type} {xs : List α} {i : Int} {x : α} (picked : pick xs i = some x) :
    x ∈ xs := by
  unfold pick at picked
  split at picked
  · exact List.mem_of_getElem? picked
  · split at picked
    · exact List.mem_of_getElem? picked
    · cases picked

/-! ## Nodes -/

namespace Node

/-- The node whose tensors a node of this name has. -/
def body (nodes : List Node) (n : Node) : Node := (find? nodes n.name).getD n

theorem operation_eq (nodes : List Node) (base : Nat) (owner : GraphId) (n : Node) :
    n.operation nodes base owner = do
      let inputs ← (n.body nodes).dataInputs.zipIdx.mapM fun e =>
        inputTensor nodes (base + e.2) owner e.1
      let outputs := (n.body nodes).outputs.zipIdx.map fun e =>
        (n.body nodes).outputTensor (base + inputs.length + e.2) owner e.2 e.1
      let _ ← (inputs ++ outputs).mapM fun t => Tensor.checkShape t.shape
      let attrs ← storedAttrs n.attrs
      return ⟨base + inputs.length + outputs.length, n.name, n.type, inputs, outputs,
        attrs.set deviceKey n.device, owner⟩ := rfl

/-- A tensor is the one that an input names. -/
def Names (nodes : List Node) (input : String) (t : Tensor) : Prop :=
  ∃ m out i, source nodes input = .ok (m, out, i) ∧ t.content = m.outputTensor 0 0 i out

/-- An operation is read from a node. -/
structure Read (nodes : List Node) (n : Node) (op : Operation) : Prop where
  name : op.name = n.name
  type : op.type = n.type
  inputs : List.Forall₂ (Names nodes) (n.body nodes).dataInputs op.inputs
  outputs : op.outputs.map Tensor.content =
    (n.body nodes).outputs.zipIdx.map fun e => (n.body nodes).outputTensor 0 0 e.2 e.1
  shaped : op.Shaped
  attrs : ∃ attrs, storedAttrs n.attrs = .ok attrs ∧ op.attrs = attrs.set deviceKey n.device

theorem names_of_inputTensor {nodes : List Node} {id : Nat} {owner : GraphId} {input : String}
    {t : Tensor} (run : inputTensor nodes id owner input = .ok t) : Names nodes input t := by
  unfold inputTensor at run
  rw [bind_eq_ok_iff] at run
  obtain ⟨⟨m, out, i⟩, found, made⟩ := run
  cases made
  exact ⟨m, out, i, found, rfl⟩

theorem read_of_operation {nodes : List Node} {base : Nat} {owner : GraphId} {n : Node}
    {op : Operation} (run : n.operation nodes base owner = .ok op) : n.Read nodes op := by
  rw [operation_eq] at run
  simp only [bind_eq_ok_iff, pure_eq_ok_iff] at run
  obtain ⟨inputs, named, _, checked, attrs, stored, rfl⟩ := run
  refine ⟨rfl, rfl, ?_, ?_, ?_, attrs, stored, rfl⟩
  · have numbered := mapM_eq_ok_iff.mp named
    have places : List.Forall₂ (fun s e : _ => e.1 = s) (n.body nodes).dataInputs
        (n.body nodes).dataInputs.zipIdx :=
      forall₂_of_views ((List.zipIdx_map_fst 0 _).trans (List.map_id _).symm)
    refine forall₂_trans ?_ places numbered
    rintro _ ⟨s, k⟩ t rfl found
    exact names_of_inputTensor found
  · rw [List.map_map]
    rfl
  · intro t member
    obtain ⟨_, _, sized⟩ := exists_result_of_mem checked member
    exact sized

end Node

/-! ## Adding nodes to a graph -/

namespace Graph

theorem mem_put {g : Graph} {op op' : Operation} (member : op' ∈ (g.put op).ops) :
    op' = op ∨ op' ∈ g.ops := by
  unfold put at member
  split at member
  · obtain ⟨old, inside, made⟩ := List.mem_map.mp member
    split at made
    · exact .inl made.symm
    · exact .inr (made ▸ inside)
  · rcases List.mem_append.mp member with inside | last
    · exact .inr inside
    · exact .inl (List.mem_singleton.mp last)

/-- What putting the operation of a node into a graph keeps is kept by adding nodes. -/
theorem addNodes_invariant {P : Graph → Prop} {nodes rest : List Node} {id : GraphId} {base : Nat}
    {g g' : Graph}
    (put : ∀ {g op}, (∃ n ∈ rest, ∃ base', n.operation nodes base' id = .ok op) → P g →
      P (g.put op))
    (start : P g) (run : Graph.addNodes nodes id base g rest = .ok g') : P g' := by
  induction rest generalizing base g with
  | nil =>
    rw [addNodes] at run
    cases run
    exact start
  | cons n rest ih =>
    rw [addNodes, bind_eq_ok_iff] at run
    obtain ⟨op, made, later⟩ := run
    refine ih ?_ (put ⟨n, List.mem_cons_self, base, made⟩ start) later
    rintro g op ⟨m, inside, own⟩ before
    exact put ⟨m, List.mem_cons_of_mem n inside, own⟩ before

/-- Every operation after adding some nodes was there or is that of one of them. -/
theorem mem_addNodes {nodes rest : List Node} {id : GraphId} {base : Nat} {g g' : Graph}
    (run : Graph.addNodes nodes id base g rest = .ok g') {op : Operation} (member : op ∈ g'.ops) :
    op ∈ g.ops ∨ ∃ n ∈ rest, ∃ base', n.operation nodes base' id = .ok op := by
  refine addNodes_invariant (P := fun g₁ => ∀ op ∈ g₁.ops, op ∈ g.ops ∨
    ∃ n ∈ rest, ∃ base', n.operation nodes base' id = .ok op) ?_ (fun _ => .inl) run op member
  intro g₁ new own all op member
  rcases mem_put member with rfl | older
  · exact .inr own
  · exact all op older

/-- Names do not repeat when an operation is put into a graph. -/
theorem nodup_put {g : Graph} {op : Operation} (distinct : (g.ops.map Operation.name).Nodup) :
    ((g.put op).ops.map Operation.name).Nodup := by
  unfold put
  split
  · have names : (g.ops.map fun old => if old.name = op.name then op else old).map
        Operation.name = g.ops.map Operation.name := by
      rw [List.map_map]
      refine List.map_congr_left fun old _ => ?_
      by_cases same : old.name = op.name
      · simp [same]
      · simp [same]
    rw [names]
    exact distinct
  · rename_i absent
    rw [List.map_append, List.map_singleton]
    refine List.Nodup.append distinct (List.nodup_singleton _) ?_
    intro name member last
    obtain ⟨old, inside, rfl⟩ := List.mem_map.mp member
    refine absent ?_
    unfold has find?
    rw [List.find?_isSome]
    exact ⟨old, inside, by simpa using List.mem_singleton.mp last⟩

theorem nodup_addNodes {nodes rest : List Node} {id : GraphId} {base : Nat} {g g' : Graph}
    (distinct : (g.ops.map Operation.name).Nodup)
    (run : Graph.addNodes nodes id base g rest = .ok g') : (g'.ops.map Operation.name).Nodup :=
  addNodes_invariant (P := fun g => (g.ops.map Operation.name).Nodup) (fun _ => nodup_put) distinct
    run

/-- Nodes of new names add one operation each, in their order. -/
theorem ops_of_addNodes {nodes rest : List Node} {id : GraphId} {base : Nat} {g g' : Graph}
    (distinct : (rest.map Node.name).Nodup)
    (fresh : ∀ n ∈ rest, ∀ op ∈ g.ops, op.name ≠ n.name)
    (run : Graph.addNodes nodes id base g rest = .ok g') :
    ∃ ops, g'.ops = g.ops ++ ops ∧ List.Forall₂ (Node.Read nodes) rest ops := by
  induction rest generalizing base g with
  | nil =>
    rw [addNodes] at run
    cases run
    exact ⟨[], by simp, .nil⟩
  | cons n rest ih =>
    rw [addNodes, bind_eq_ok_iff] at run
    obtain ⟨op, made, later⟩ := run
    have read := Node.read_of_operation made
    rw [List.map_cons, List.nodup_cons] at distinct
    have added : (g.put op).ops = g.ops ++ [op] := by
      unfold put
      rw [if_neg ?_]
      unfold has find?
      rw [List.find?_isSome]
      rintro ⟨old, inside, same⟩
      exact fresh n (by simp) old inside (by simpa [read.name] using same)
    have fresh' : ∀ m ∈ rest, ∀ old ∈ (g.put op).ops, old.name ≠ m.name := by
      intro m inside old member
      rw [added] at member
      rcases List.mem_append.mp member with before | last
      · exact fresh m (by simp [inside]) old before
      · cases List.mem_singleton.mp last
        rw [read.name]
        intro same
        exact distinct.1 (same ▸ List.mem_map_of_mem inside)
    obtain ⟨ops, grown, related⟩ := ih distinct.2 fresh' later
    refine ⟨op :: ops, ?_, .cons read related⟩
    rw [grown, added, List.append_assoc]
    rfl

/-- Adding nodes changes nothing but the operations. -/
theorem outputs_of_addNodes {nodes rest : List Node} {id : GraphId} {base : Nat} {g g' : Graph}
    (run : Graph.addNodes nodes id base g rest = .ok g') :
    g'.outputs = g.outputs ∧ g'.backend = g.backend := by
  refine addNodes_invariant
    (P := fun g₁ => g₁.outputs = g.outputs ∧ g₁.backend = g.backend) ?_ ⟨rfl, rfl⟩ run
  intro g₁ op _ same
  unfold put
  split
  · exact same
  · exact same

/-! ## Reading a graph -/

/-- Values without a fault are the names they list. -/
theorem eq_of_outputNames {vs : List Value} {names : List String}
    (run : outputNames vs = (names, none)) : vs = names.map Value.text := by
  induction vs generalizing names with
  | nil =>
    rw [outputNames] at run
    cases run
    rfl
  | cons v vs ih =>
    unfold outputNames at run
    split at run
    · rename_i parts
      cases parts
    · rename_i s rest parts
      cases parts
      simp only [Prod.mk.injEq] at run
      obtain ⟨rfl, clean⟩ := run
      rw [List.map_cons, ← ih (Prod.ext rfl clean)]
    · cases run

/-- The steps of reading a graph. -/
theorem ofNodes_ok [Importer] {base : Nat} {id : GraphId} {nodes : List Node} {outputs : Value}
    {g : Graph} (run : Graph.ofNodes base id nodes outputs = .ok g) :
    ∃ names g₁, outputs = .list (names.map Value.text) ∧ Importer.accept nodes = .ok () ∧
      Graph.addNodes nodes id base ⟨[], [], names, tensorBackend⟩ nodes = .ok g₁ ∧
      g₁.sort = .ok g := by
  unfold ofNodes at run
  rw [bind_eq_ok_iff] at run
  obtain ⟨outs, list, run⟩ := run
  rcases listed : outputNames outs with ⟨names, fault⟩
  rw [listed] at run
  dsimp only at run
  split at run
  · cases run
  rename_i some
  split at run
  · cases run
  simp only [bind_eq_ok_iff] at run
  obtain ⟨_, checked, g₁, added, g₂, sorted, run⟩ := run
  cases fault with
  | some f => cases run
  | none =>
    cases run
    refine ⟨names, g₁, ?_, checked, added, sorted⟩
    rw [← eq_of_outputNames listed]
    unfold outputList at list
    split at list
    · cases list
      exact absurd rfl some
    · cases list
      rfl
    · cases list

/-- A graph that was read is in order. -/
theorem ordered_of_ofNodes [Importer] {base : Nat} {id : GraphId} {nodes : List Node}
    {outputs : Value}
    {g : Graph} (run : Graph.ofNodes base id nodes outputs = .ok g) : g.Ordered g.order := by
  obtain ⟨names, g₁, _, _, _, sort⟩ := ofNodes_ok run
  obtain ⟨order, sorted, rfl⟩ := sort_eq_ok_iff.mp sort
  exact (ordered_of_sorted sorted).transport fun _ _ op found => ⟨op, found, rfl⟩

/-- Every operation of a graph that was read is that of a node. -/
theorem exists_operation_of_ofNodes [Importer] {base : Nat} {id : GraphId} {nodes : List Node}
    {outputs : Value} {g : Graph} (run : Graph.ofNodes base id nodes outputs = .ok g)
    {op : Operation} (member : op ∈ g.ops) :
    ∃ n ∈ nodes, ∃ base', n.operation nodes base' id = .ok op := by
  obtain ⟨names, g₁, _, _, added, sort⟩ := ofNodes_ok run
  obtain ⟨order, _, rfl⟩ := sort_eq_ok_iff.mp sort
  rcases mem_addNodes added member with none | own
  · cases none
  · exact own

theorem read_of_mem_ofNodes [Importer] {base : Nat} {id : GraphId} {nodes : List Node}
    {outputs : Value} {g : Graph} (run : Graph.ofNodes base id nodes outputs = .ok g)
    {op : Operation}
    (member : op ∈ g.ops) : ∃ n ∈ nodes, n.Read nodes op := by
  obtain ⟨n, inside, _, made⟩ := exists_operation_of_ofNodes run member
  exact ⟨n, inside, Node.read_of_operation made⟩

end Graph

/-! ## Nodes that are written -/

/-- An attribute of a node is one of its operation in wire form. -/
theorem Operation.exists_attr_of_node {op : Operation} {n : Node} (run : op.node = .ok n)
    {e : String × Value} (member : e ∈ n.attrs) :
    ∃ v, (e.1, v) ∈ op.attrs ∧ isScopedKey e.1 = false ∧ wireAttrOf v = .ok e.2 := by
  unfold Operation.node at run
  simp only [bind_eq_ok_iff, pure_eq_ok_iff] at run
  obtain ⟨attrs, wired, rfl⟩ := run
  obtain ⟨e₀, inside, made⟩ := exists_of_mem_mapM wired member
  simp only [bind_eq_ok_iff, pure_eq_ok_iff] at made
  obtain ⟨w, isWire, rfl⟩ := made
  obtain ⟨stored, kept⟩ := List.mem_filter.mp inside
  exact ⟨e₀.2, stored, by simpa using kept, isWire⟩

theorem Graph.exists_op_of_mem_nodes {g : Graph} {nodes : List Node} (run : g.nodes = .ok nodes)
    {n : Node} (member : n ∈ nodes) : ∃ op ∈ g.ops, op.node = .ok n := by
  unfold Graph.nodes at run
  split at run
  · cases run
  · obtain ⟨name, _, made⟩ := exists_of_mem_mapM run member
    rw [bind_eq_ok_iff] at made
    obtain ⟨op, found, node⟩ := made
    exact ⟨op, mem_of_find? (find_eq_ok_iff.mp found), node⟩

end TensorEmit
