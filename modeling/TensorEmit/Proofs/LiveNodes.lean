import TensorEmit.Proofs.Export
import TensorEmit.Proofs.Importing
import TensorEmit.Proofs.Renumbering

/-!
# Nodes that are not needed

A graph file can hold nodes that the outputs do not need. The import has to take them and their
attributes have to be such that they can be stored, since a file is read as a whole; apart from that
they leave no trace. `Graph.agrees_ofNodes_needed` says so of reading and sorting: from two files
with the same needed nodes come graphs with the same order and the same operations in it.
-/

namespace TensorEmit

/-! ## Nodes whose inputs are found -/

namespace Node

variable {nodes nodes' : List Node} {outputs : List String}

theorem mem_of_source {s : String} {m : Node} {out : NodeOutput} {i : Nat}
    (found : source nodes s = .ok (m, out, i)) : m ∈ nodes ∧ out ∈ m.outputs := by
  obtain ⟨name, _, here, picked⟩ := source_eq_ok_iff.mp found
  exact ⟨List.mem_reverse.mp (List.mem_of_find?_eq_some here),
    List.fst_mem_of_mem_zipIdx (mem_of_pick picked)⟩

/-- The operation of a node can be made if its inputs are found, sizes can be sizes and its
attributes can be stored. -/
theorem exists_operation (distinct : (nodes.map Node.name).Nodup) {n : Node} (member : n ∈ nodes)
    (inputs : ∀ s ∈ n.dataInputs, ∃ found, source nodes s = .ok found)
    (shapes : ∀ m ∈ nodes, ∀ out ∈ m.outputs, Tensor.checkShape out.shape = .ok ())
    (stored : ∃ attrs, storedAttrs n.attrs = .ok attrs) (base : Nat) (owner : GraphId) :
    ∃ op, n.operation nodes base owner = .ok op := by
  have named : ∀ e ∈ n.dataInputs.zipIdx, ∃ t, inputTensor nodes (base + e.2) owner e.1 = .ok t ∧
      Tensor.checkShape t.shape = .ok () := by
    intro e listed
    obtain ⟨⟨m, out, i⟩, found⟩ := inputs e.1 (List.fst_mem_of_mem_zipIdx listed)
    obtain ⟨inside, made⟩ := mem_of_source found
    exact ⟨_, bind_eq_ok_iff.mpr ⟨_, found, rfl⟩, shapes m inside out made⟩
  obtain ⟨ins, made, sized⟩ := exists_mapM_related (R := fun _ (t : Tensor) =>
    Tensor.checkShape t.shape = .ok ()) named
  have checks : ∃ units, (ins ++ n.outputs.zipIdx.map fun e =>
      n.outputTensor (base + ins.length + e.2) owner e.2 e.1).mapM
        (fun t => Tensor.checkShape t.shape) = .ok units := by
    refine exists_mapM_iff.mpr fun t listed => ?_
    rcases List.mem_append.mp listed with input | output
    · obtain ⟨_, _, fits⟩ := exists_left_of_forall₂ sized input
      exact ⟨(), fits⟩
    · obtain ⟨e, place, rfl⟩ := List.mem_map.mp output
      exact ⟨(), shapes n member e.1 (List.fst_mem_of_mem_zipIdx place)⟩
  obtain ⟨units, checked⟩ := checks
  obtain ⟨attrs, stored⟩ := stored
  rw [operation_eq, body_of_mem distinct member]
  exact ⟨_, bind_eq_ok_iff.mpr ⟨ins, made, bind_eq_ok_iff.mpr ⟨units, checked,
    bind_eq_ok_iff.mpr ⟨attrs, stored, rfl⟩⟩⟩⟩

end Node

namespace Graph

/-- Reads all nodes, before they are put in order. -/
def readAll [Importer] (base : Nat) (id : GraphId) (nodes : List Node) (outputs : List String) :
    Except Fault Graph := do
  Importer.accept nodes
  Graph.addNodes nodes id base ⟨[], [], outputs, tensorBackend⟩ nodes

variable {nodes : List Node} {outputs : List String}

/-- Adding nodes succeeds if the operation of each of them can be made. -/
theorem exists_addNodes {rest : List Node} (id : GraphId)
    (each : ∀ n ∈ rest, ∀ base, ∃ op, n.operation nodes base id = .ok op) (base : Nat) (g : Graph) :
    ∃ g', Graph.addNodes nodes id base g rest = .ok g' := by
  induction rest generalizing base g with
  | nil => exact ⟨g, rfl⟩
  | cons n rest ih =>
    obtain ⟨op, made⟩ := each n (by simp) base
    rw [addNodes, made, ok_bind]
    exact ih (fun m member => each m (by simp [member])) _ _

theorem operation_of_addNodes {id : GraphId} {rest : List Node} {base : Nat} {g g' : Graph}
    (run : Graph.addNodes nodes id base g rest = .ok g') :
    ∀ n ∈ rest, ∃ base op, n.operation nodes base id = .ok op := by
  induction rest generalizing base g with
  | nil =>
    intro n member
    cases member
  | cons n rest ih =>
    rw [addNodes, bind_eq_ok_iff] at run
    obtain ⟨op, made, later⟩ := run
    intro m member
    rcases List.mem_cons.mp member with rfl | inside
    · exact ⟨base, op, made⟩
    · exact ih later m inside

/-- Nodes of different names can be read as a whole if the import takes them and their attributes
can be stored. -/
theorem readAll_ok_iff [Importer] (resolves : Importer.Resolves)
    (distinct : (nodes.map Node.name).Nodup) (base : Nat) (id : GraphId) (outputs : List String) :
    (∃ g, readAll base id nodes outputs = .ok g) ↔
      Importer.accept nodes = .ok () ∧ ∀ n ∈ nodes, ∃ attrs, storedAttrs n.attrs = .ok attrs := by
  unfold readAll
  simp only [bind_eq_ok_iff]
  constructor
  · rintro ⟨g, _, taken, added⟩
    refine ⟨taken, fun n member => ?_⟩
    obtain ⟨_, op, made⟩ := operation_of_addNodes added n member
    obtain ⟨attrs, stored, _⟩ := (Node.read_of_operation made).attrs
    exact ⟨attrs, stored⟩
  · rintro ⟨taken, stored⟩
    obtain ⟨g, added⟩ := exists_addNodes id
      (fun n member base => Node.exists_operation distinct member (resolves.inputs taken n member)
        (resolves.shapes taken) (stored n member) base id) base ⟨[], [], outputs, tensorBackend⟩
    exact ⟨g, (), taken, added⟩

theorem outputNames_texts (names : List String) :
    outputNames (names.map Value.text) = (names, none) := by
  induction names with
  | nil => rfl
  | cons name rest ih =>
    rw [List.map_cons, outputNames, ih]

/-- A file without variables is read as a whole and put in order. -/
theorem ofNodes_texts [Importer] (base : Nat) (id : GraphId)
    (frozen : nodes.any Node.isVariable = false) :
    Graph.ofNodes base id nodes (.list (outputs.map Value.text)) =
      if outputs.isEmpty then .error .noOutputs
      else readAll base id nodes outputs >>= Graph.sort := by
  have listed : outputList (.list (outputs.map Value.text)) = .ok (outputs.map Value.text) := rfl
  unfold ofNodes readAll
  rw [listed, ok_bind, outputNames_texts, frozen]
  dsimp only
  cases outputs with
  | nil => rfl
  | cons name rest =>
    rw [if_neg (by simp), if_neg (by simp), if_neg (by simp)]
    rw [bind_assoc]
    simp only [bind_pure]

end Graph

/-! ## The same needed nodes -/

namespace Node

variable {nodes nodes' : List Node} {outputs : List String}

/-- Two files hold the same needed nodes, of which the import makes the same outputs. -/
def SameNeeded (outputs : List String) (nodes nodes' : List Node) : Prop :=
  ∀ n, n ∈ nodes ∧ Needed nodes outputs n.name ↔ n ∈ nodes' ∧ Needed nodes' outputs n.name

/-- A file without variables whose nodes have different names and in which the attributes of all
nodes that are not needed can be stored. -/
structure Frozen (outputs : List String) (nodes : List Node) : Prop where
  distinct : (nodes.map Node.name).Nodup
  constant : nodes.any isVariable = false
  spare : ∀ n ∈ nodes, ¬ Needed nodes outputs n.name →
    ∃ attrs, storedAttrs n.attrs = .ok attrs

theorem SameNeeded.symm (same : SameNeeded outputs nodes nodes') :
    SameNeeded outputs nodes' nodes :=
  fun n => (same n).symm

theorem Needed.step {n m : Node} {s : String} {out : NodeOutput} {i : Nat}
    (needed : Needed nodes outputs n.name) (member : n ∈ nodes) (read : s ∈ n.dataInputs)
    (found : source nodes s = .ok (m, out, i)) : Needed nodes outputs m.name := by
  obtain ⟨start, output, path⟩ := needed
  exact ⟨start, output, path.tail ⟨n, member, rfl, s, read, m, out, i, found, rfl⟩⟩

/-- The inputs of needed nodes name the same outputs in both files. -/
theorem SameNeeded.source (same : SameNeeded outputs nodes nodes')
    (distinct : (nodes'.map Node.name).Nodup) {n m : Node} {s : String} {out : NodeOutput} {i : Nat}
    (member : n ∈ nodes) (needed : Needed nodes outputs n.name) (read : s ∈ n.dataInputs)
    (found : Node.source nodes s = .ok (m, out, i)) : Node.source nodes' s = .ok (m, out, i) := by
  have inside := ((same m).mp ⟨(mem_of_source found).1, needed.step member read found⟩).1
  obtain ⟨name, parsed, here, picked⟩ := source_eq_ok_iff.mp found
  refine source_eq_ok_iff.mpr ⟨name, parsed, ?_, picked⟩
  rw [← find?_name here]
  exact find?_of_mem distinct inside

theorem SameNeeded.needed (same : SameNeeded outputs nodes nodes')
    (distinct : (nodes'.map Node.name).Nodup) {name : String}
    (needed : Needed nodes outputs name) : Needed nodes' outputs name := by
  obtain ⟨start, output, path⟩ := needed
  refine ⟨start, output, ?_⟩
  -- Each node on the way is needed itself, so it is in the other file and reads from the same node.
  induction path with
  | refl => exact .refl
  | tail path reads ih =>
    obtain ⟨n, member, rfl, s, read, m, out, i, found, named⟩ := reads
    have needed : Needed nodes outputs n.name := ⟨start, output, path⟩
    have inside := ((same n).mp ⟨member, needed⟩).1
    exact ih.tail ⟨n, inside, rfl, s, read, m, out, i,
      same.source distinct member needed read found, named⟩

/-- If all attributes of one file can be stored, those of the other can. -/
theorem SameNeeded.stored (same : SameNeeded outputs nodes nodes') (frozen : Frozen outputs nodes')
    (all : ∀ n ∈ nodes, ∃ attrs, storedAttrs n.attrs = .ok attrs) :
    ∀ n ∈ nodes', ∃ attrs, storedAttrs n.attrs = .ok attrs := by
  intro n member
  by_cases needed : Needed nodes' outputs n.name
  · exact all n ((same n).mpr ⟨member, needed⟩).1
  · exact frozen.spare n member needed

theorem Names.unique {s : String} {t t' : Tensor} (named : Names nodes s t)
    (named' : Names nodes s t') : t.SameContent t' := by
  obtain ⟨m, out, i, found, content⟩ := named
  obtain ⟨m', out', i', found', content'⟩ := named'
  rw [found] at found'
  cases found'
  exact content'.trans content.symm

end Node

namespace Graph

variable {nodes nodes' : List Node} {outputs : List String} {g g' : Graph}

theorem ReadOnce.find? (once : g.ReadOnce nodes) {n : Node} (member : n ∈ nodes) :
    ∃ op, g.find? n.name = some op ∧ n.Read nodes op ∧
      List.Forall₂ (Node.Names nodes) n.dataInputs op.inputs := by
  obtain ⟨op, inside, read, inputs⟩ := exists_right_of_forall₂ once.reads member
  refine ⟨op, ?_, read, inputs⟩
  rw [← read.name]
  exact find?_of_mem once.nodup inside

/-- An operation of a needed name is in both graphs. -/
theorem ReadOnce.found (once : g.ReadOnce nodes) (once' : g'.ReadOnce nodes')
    (same : Node.SameNeeded outputs nodes nodes') {name : String}
    (needed : Node.Needed nodes outputs name) {op : Operation} (found : g.find? name = some op) :
    ∃ op', g'.find? name = some op' ∧ op'.content = op.content := by
  obtain ⟨n, member, read, inputs⟩ := exists_left_of_forall₂ once.reads (mem_of_find? found)
  have named : n.name = name := read.name.symm.trans (find?_name found)
  subst named
  have member' := ((same n).mp ⟨member, needed⟩).1
  obtain ⟨op', found', read', inputs'⟩ := once'.find? member'
  refine ⟨op', found', Operation.content_of_parts (read'.name.trans read.name.symm)
    (read'.type.trans read.type.symm) ?_ ?_ ?_⟩
  · have moved : List.Forall₂ (Node.Names nodes') n.dataInputs op.inputs := by
      refine ((List.forall₂_and_left _ _).mpr ⟨fun s read => read, inputs⟩).imp ?_
      rintro s t ⟨read, m, out, i, source, content⟩
      exact ⟨m, out, i, same.source once'.distinct member needed read source, content⟩
    have compose : ∀ t s t', Node.Names nodes' s t → Node.Names nodes' s t' → t.SameContent t' :=
      fun _ _ _ named named' => named.unique named'
    exact forall₂_trans compose moved.flip inputs'
  · have tensors := read.outputs
    have tensors' := read'.outputs
    rw [Node.body_of_mem once.distinct member] at tensors
    rw [Node.body_of_mem once'.distinct member'] at tensors'
    exact forall₂_of_views (tensors'.trans tensors.symm)
  · obtain ⟨attrs, stored, holds⟩ := read.attrs
    obtain ⟨attrs', stored', holds'⟩ := read'.attrs
    rw [stored] at stored'
    cases stored'
    exact holds'.trans holds.symm

/-- Both graphs have the same operation under a needed name, or none. -/
theorem ReadOnce.sameAt (once : g.ReadOnce nodes) (once' : g'.ReadOnce nodes')
    (same : Node.SameNeeded outputs nodes nodes') {name : String}
    (needed : Node.Needed nodes outputs name) : g.SameAt g' name := by
  unfold SameAt
  cases here : g.find? name with
  | some op =>
    obtain ⟨op', found', content⟩ := once.found once' same needed here
    rw [found', Option.map_some, Option.map_some, content]
  | none =>
    cases there : g'.find? name with
    | none => rfl
    | some op' =>
      have needed' := same.needed once'.distinct needed
      obtain ⟨op, found, _⟩ := once'.found once same.symm needed' there
      rw [here] at found
      cases found

/-- A graph that all nodes are read into, before they are put in order. -/
structure ReadFrom (g : Graph) (nodes : List Node) (outputs : List String) : Prop
    extends g.ReadOnce nodes where
  outputs : g.outputs = outputs
  backend : g.backend = tensorBackend

theorem readFrom_of_readAll [Importer] {base : Nat} {id : GraphId}
    (distinct : (nodes.map Node.name).Nodup)
    (run : readAll base id nodes outputs = .ok g) : g.ReadFrom nodes outputs := by
  unfold readAll at run
  rw [bind_eq_ok_iff] at run
  obtain ⟨_, _, added⟩ := run
  obtain ⟨outs, backend⟩ := outputs_of_addNodes added
  exact ⟨readOnce_of_addNodes distinct added, outs, backend⟩

/-- Two files with the same needed nodes can both be read, or both cannot. -/
theorem agrees_readAll [Importer] (resolves : Importer.Resolves) (base base' : Nat)
    (id id' : GraphId) (frozen : Node.Frozen outputs nodes) (frozen' : Node.Frozen outputs nodes')
    (same : Node.SameNeeded outputs nodes nodes')
    (taken : Importer.accept nodes = .ok () ↔ Importer.accept nodes' = .ok ()) :
    Agrees (fun g g' => g.ReadFrom nodes outputs ∧ g'.ReadFrom nodes' outputs)
      (readAll base id nodes outputs) (readAll base' id' nodes' outputs) := by
  have here := readAll_ok_iff resolves frozen.distinct base id outputs
  have there := readAll_ok_iff resolves frozen'.distinct base' id' outputs
  refine .of_ok (fun g run => ?_) (fun g' run' => ?_)
  · obtain ⟨accepted, all⟩ := here.mp ⟨g, run⟩
    obtain ⟨g', run'⟩ := there.mpr ⟨taken.mp accepted, same.stored frozen' all⟩
    exact ⟨g', run', readFrom_of_readAll frozen.distinct run,
      readFrom_of_readAll frozen'.distinct run'⟩
  · obtain ⟨accepted, all⟩ := there.mp ⟨g', run'⟩
    exact here.mpr ⟨taken.mpr accepted, same.symm.stored frozen all⟩

/-- Graphs with the same operations under the names that the outputs need are in the same order. -/
theorem ReadFrom.sort (read : g.ReadFrom nodes outputs) (read' : g'.ReadFrom nodes' outputs)
    (same : Node.SameNeeded outputs nodes nodes') : Agrees SameLive g.sort g'.sort := by
  have live : ∀ name, g.Reachable name → g.SameAt g' name := by
    intro name reached
    have needed := read.needed_of_reachable reached
    rw [read.outputs] at needed
    exact read.sameAt read'.toReadOnce same needed
  have outs : g'.outputs = g.outputs := read'.outputs.trans read.outputs.symm
  unfold Graph.sort
  rw [sorted_congr outs live]
  cases sorted : g.sorted with
  | error f => exact .error f f
  | ok order =>
    refine .ok ⟨fun name listed => ?_, rfl, outs, read'.backend.trans read.backend.symm⟩
    exact live name ((mem_sorted_iff sorted name).mp listed)

/-- From two files with the same needed nodes come graphs with the same operations in the same
order. -/
theorem agrees_ofNodes_needed [Importer] (resolves : Importer.Resolves) (base base' : Nat)
    (id id' : GraphId) (frozen : Node.Frozen outputs nodes) (frozen' : Node.Frozen outputs nodes')
    (same : Node.SameNeeded outputs nodes nodes')
    (taken : Importer.accept nodes = .ok () ↔ Importer.accept nodes' = .ok ()) :
    Agrees SameLive (Graph.ofNodes base id nodes (.list (outputs.map Value.text)))
      (Graph.ofNodes base' id' nodes' (.list (outputs.map Value.text))) := by
  rw [ofNodes_texts base id frozen.constant, ofNodes_texts base' id' frozen'.constant]
  split
  · exact .error _ _
  · refine (agrees_readAll resolves base base' id id' frozen frozen' same taken).bind
      fun g g' read => ?_
    exact read.1.sort read.2 same

end Graph

end TensorEmit
