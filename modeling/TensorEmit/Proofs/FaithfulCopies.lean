import TensorEmit.Proofs.Export
import TensorEmit.Proofs.Importing
import TensorEmit.Proofs.Ownership
import TensorEmit.Proofs.SortedPruning

/-!
# Faithful copies

A copy makes all tensors and operations of a graph anew, so whatever is checked and converted when
an operation is made is checked and converted a second time. `Operation.Accepted` says that an
operation is as it was made, but for its numbers, its owners and attributes that were set later: the
device that reading a node sets, and private ones. Such an operation passes as it is. Its sizes were
checked when its tensors were made, its private attributes are not converted, and the conversion to
neutral form leaves alone what it has given. Nothing else passes as it is
(`Operation.accepted_iff`).

So a graph of accepted operations has a copy, and the copy differs from the graph in nothing but
numbers and owners (`Workspace.copy_is_faithful`).
-/

namespace TensorEmit

/-! ## Operations as they were made -/

/-- An operation that was made from a specification, with other numbers and owners perhaps, and with
attributes that were set since: a device and private attributes. -/
inductive Operation.Accepted : Operation → Prop
  | made {base : Nat} {id : GraphId} {s : OperationSpec} {op : Operation} :
      Workspace.makeOperation base id s = .ok op → Accepted op
  | renumbered {op op' : Operation} : op'.content = op.content → Accepted op → Accepted op'
  | placed {op : Operation} (device : String) :
      Accepted op → Accepted { op with attrs := op.attrs.set deviceKey (.text device) }
  | noted {op : Operation} {key : String} (v : Value) : Text.startsWith privateMark key →
      Accepted op → Accepted { op with attrs := op.attrs.set key v }

/-- What a tensor can be made from. -/
def Tensor.spec (t : Tensor) : TensorSpec :=
  ⟨.text t.name, .text t.producer, .type t.type, t.shape.elim .none .list⟩

theorem Tensor.make_spec {t : Tensor} (checked : checkShape t.shape = .ok ()) (number : Nat)
    (owner : GraphId) : t.spec.make number (some owner) = .ok { t with id := number, owner } := by
  obtain ⟨_, name, producer, type, shape, _⟩ := t
  unfold TensorSpec.make Tensor.spec
  cases shape with
  | none => rfl
  | some sizes =>
    simp only [Tensor.textField, Tensor.typeField, Option.elim, Tensor.shapeField, ok_bind]
    rw [checked]
    rfl

/-- Tensors whose sizes pass can be made. -/
theorem Tensor.exists_made {ts : List Tensor} (checked : ∀ t ∈ ts, checkShape t.shape = .ok ())
    (base start : Nat) (owner : GraphId) :
    ∃ ts', ((ts.map Tensor.spec).zipIdx start).mapM
        (fun e => e.1.make (base + e.2) (some owner)) = .ok ts' ∧
      List.Forall₂ Tensor.SameContent ts ts' := by
  induction ts generalizing start with
  | nil => exact ⟨[], rfl, .nil⟩
  | cons t ts ih =>
    obtain ⟨ts', later, same⟩ := ih (fun u member => checked u (List.mem_cons_of_mem _ member))
      (start + 1)
    refine ⟨{ t with id := base + start, owner } :: ts', ?_, .cons rfl same⟩
    rw [List.map_cons, List.zipIdx_cons, List.mapM_cons,
      Tensor.make_spec (checked t (List.mem_cons_self ..)), ok_bind, later]
    rfl

/-- What an operation can be made from. -/
def Operation.spec (op : Operation) : OperationSpec :=
  ⟨op.name, op.type, op.inputs.map Tensor.spec, op.outputs.map Tensor.spec, op.attrs,
    .text tensorBackend⟩

/-- An operation is accepted exactly if its attributes are in the form in which they are stored and
its sizes pass. -/
theorem Operation.accepted_iff {op : Operation} :
    op.Accepted ↔ storedAttrs op.attrs = .ok op.attrs ∧ op.Shaped := by
  constructor
  · intro accepted
    induction accepted with
    | made run => exact Workspace.intact_of_makeOperation run
    | renumbered same _ ih =>
      rw [Operation.attrs_of_content same]
      exact ⟨ih.1, Operation.shaped_of_content same ih.2⟩
    | placed device _ ih => exact ⟨storedAttrs_set ih.1 rfl, ih.2⟩
    | noted v isPrivate _ ih =>
      refine ⟨storedAttrs_set_of_kept ih.1 (storedAttr_eq_ok_iff.mpr ?_), ih.2⟩
      rw [if_pos isPrivate]
  · -- such an operation renumbers the one that is made from its own parts
    rintro ⟨stored, shaped⟩
    obtain ⟨inputs, ins, sameIns⟩ := Tensor.exists_made
      (fun t input => shaped t (List.mem_append_left _ input)) 0 0 0
    obtain ⟨outputs, outs, sameOuts⟩ := Tensor.exists_made
      (fun t output => shaped t (List.mem_append_right _ output)) (0 + inputs.length) 0 0
    obtain ⟨again, run, name, type, inputs', outputs', attrs⟩ : ∃ again,
        Workspace.makeOperation 0 0 op.spec = .ok again ∧ again.name = op.name ∧
        again.type = op.type ∧ again.inputs = inputs ∧ again.outputs = outputs ∧
        again.attrs = op.attrs := by
      unfold Workspace.makeOperation Operation.spec
      dsimp only
      rw [ins, ok_bind, outs, ok_bind, stored]
      exact ⟨_, rfl, rfl, rfl, rfl, rfl, rfl⟩
    subst inputs' outputs'
    exact .renumbered (Operation.content_of_parts name type sameIns sameOuts attrs).symm (.made run)

namespace Graph

/-- All operations of a graph are accepted. -/
def Accepted (g : Graph) : Prop := ∀ op ∈ g.ops, op.Accepted

variable {g g' : Graph}

theorem accepted_iff : g.Accepted ↔ g.Stored ∧ g.Shaped := by
  unfold Accepted
  simp only [Operation.accepted_iff]
  exact ⟨fun each => ⟨fun op member => (each op member).1, fun op member => (each op member).2⟩,
    fun both op member => ⟨both.1 op member, both.2 op member⟩⟩

/-! ## Graphs that are read -/

/-- The operation of a node whose device is a text is accepted. -/
theorem accepted_of_operation {nodes : List Node} {base : Nat} {owner : GraphId} {n : Node}
    {op : Operation} (run : n.operation nodes base owner = .ok op) {device : String}
    (placed : n.device = .text device) : op.Accepted := by
  rw [Node.operation_eq] at run
  simp only [bind_eq_ok_iff, pure_eq_ok_iff] at run
  obtain ⟨inputs, _, _, checked, attrs, stored, rfl⟩ := run
  refine Operation.accepted_iff.mpr ⟨?_, fun t member => ?_⟩
  · rw [placed]
    exact storedAttrs_set (storedAttrs_idempotent stored) rfl
  · obtain ⟨_, _, passed⟩ := exists_result_of_mem checked member
    exact passed

/-- A graph that is read from nodes whose devices are texts has accepted operations. -/
theorem accepted_of_ofNodes [Importer] {base : Nat} {id : GraphId} {nodes : List Node}
    {outputs : Value} (run : Graph.ofNodes base id nodes outputs = .ok g)
    (devices : ∀ n ∈ nodes, ∃ device, n.device = .text device) : g.Accepted := by
  intro op member
  obtain ⟨n, inside, _, made⟩ := exists_operation_of_ofNodes run member
  obtain ⟨device, placed⟩ := devices n inside
  exact accepted_of_operation made placed

/-! ## Copies -/

/-- A graph that differs from another in nothing but numbers and owners. -/
structure SameContent (g g' : Graph) : Prop where
  ops : g'.ops.map Operation.content = g.ops.map Operation.content
  order : g'.order = g.order
  outputs : g'.outputs = g.outputs
  backend : g'.backend = g.backend

theorem Renumbered.sameContent {k k' : Nat} (same : g.Renumbered k k' g') : g.SameContent g' :=
  ⟨views_of_forall₂ (same.ops.imp fun _ _ both => both.content), same.order, same.outputs,
    same.backend⟩

theorem SameContent.symm (same : g.SameContent g') : g'.SameContent g :=
  ⟨same.ops.symm, same.order.symm, same.outputs.symm, same.backend.symm⟩

theorem SameContent.trans {g'' : Graph} (first : g.SameContent g') (second : g'.SameContent g'') :
    g.SameContent g'' :=
  ⟨second.ops.trans first.ops, second.order.trans first.order, second.outputs.trans first.outputs,
    second.backend.trans first.backend⟩

/-- The operations have the same names in the same arrangement. -/
theorem SameContent.names (same : g.SameContent g') :
    g'.ops.map Operation.name = g.ops.map Operation.name := by
  have names := congrArg (List.map Operation.name) same.ops
  rw [List.map_map, List.map_map] at names
  exact names

theorem SameContent.accepted (same : g.SameContent g') (accepted : g.Accepted) : g'.Accepted := by
  intro op' member
  obtain ⟨op, inside, both⟩ := exists_left_of_forall₂ (forall₂_of_views same.ops) member
  exact .renumbered both (accepted op inside)

theorem Accepted.exists_copy (accepted : g.Accepted) (base : Nat) (id : GraphId) :
    ∃ c, g.copy base id = .ok c ∧ g.Renumbered base 0 c := by
  obtain ⟨stored, shaped⟩ := accepted_iff.mp accepted
  obtain ⟨c, copied⟩ := (exists_copy_iff stored).mpr shaped
  exact ⟨c, copied, renumbered_of_copy stored copied⟩

/-- The notes of reference counts are private attributes. -/
theorem Accepted.counted (accepted : g.Accepted) (run : g.counted = .ok g') : g'.Accepted := by
  rw [eq_of_counted run]
  intro op' member
  obtain ⟨op, inside, rfl⟩ := List.mem_map.mp member
  split
  · exact .noted _ (by decide) (.noted _ (by decide) (accepted op inside))
  · exact accepted op inside

end Graph

namespace Workspace

/-- A graph all of whose operations are accepted can be copied. The copy has the same operations in
the same arrangement, each with the same name, type, tensors and attributes, and the same order,
outputs and backend; it owns all it holds, no other graph changes, and it can be copied in turn. For
this the conversion to neutral form has to leave as it is whatever it gives. -/
theorem copy_is_faithful {w : Workspace} {id : GraphId} (accepted : (w.graph id).Accepted) :
    (∃ w', w.copy id = (w', .ok w.nextGraph) ∧
      (w'.graph w.nextGraph).ops.map Operation.name = (w.graph id).ops.map Operation.name ∧
      (w.graph id).SameContent (w'.graph w.nextGraph) ∧
      w'.Owns w.nextGraph ∧ (w'.graph w.nextGraph).Accepted ∧
      ∀ other, other ≠ w.nextGraph → w'.graph other = w.graph other) ∧
    ∀ v v' : Value, v.toNeutral = .ok v' → v'.toNeutral = .ok v' := by
  refine ⟨?_, fun v v' run => Value.toNeutral_of_isNeutral (Value.isNeutral_of_toNeutral run)⟩
  obtain ⟨c, copied, renumbered⟩ := accepted.exists_copy w.next w.nextGraph
  have same := renumbered.sameContent
  have run : w.copy id = ((w.add c).reserve w.next, .ok w.nextGraph) := by
    unfold Workspace.copy
    rw [copied]
  have here : ((w.add c).reserve w.next).graph w.nextGraph = c := by
    rw [graph_reserve, graph_add]
  refine ⟨_, run, ?_⟩
  unfold Workspace.Owns
  rw [here]
  refine ⟨same.names, same, Graph.ownedBy_of_copy copied, same.accepted accepted, ?_⟩
  intro other apart
  rw [graph_reserve, graph_add_eq, if_neg apart]

theorem accepted_of_countReferences {w w' : Workspace} {id id' : GraphId}
    (accepted : (w.graph id).Accepted) (run : w.countReferences id = (w', .ok id')) :
    (w'.graph id').Accepted := by
  obtain ⟨_, _, made⟩ := graph_adding run
  obtain ⟨c, copied, counted⟩ := bind_eq_ok_iff.mp made
  obtain ⟨c', copied', same⟩ := accepted.exists_copy w.next w.nextGraph
  cases copied.symm.trans copied'
  exact (same.sameContent.accepted accepted).counted counted

attribute [local instance] Importer.strict

/-- A workspace with a graph that was read and a copy of it with reference counts. Its attributes
are of many kinds. -/
def countedListing : Workspace :=
  ((Workspace.empty.ofNodes Graph.listedNodes (.list [.text "y"])).1.countReferences 0).1

theorem copy_is_faithful_countedListing : ∃ w', countedListing.copy 1 = (w', .ok 2) ∧
    (countedListing.graph 1).SameContent (w'.graph 2) ∧ (w'.graph 2).order = ["levels", "y"] ∧
    (w'.graph 2).ops.map (fun op => op.attrs.keys) =
      [["dtype", "value", deviceKey, evaluateKey, countsKey], [deviceKey],
        ["all", deviceKey, evaluateKey, countsKey]] := by
  have read : Graph.ofNodes 0 0 Graph.listedNodes (.list [.text "y"]) =
      .ok ((Workspace.empty.ofNodes Graph.listedNodes (.list [.text "y"])).1.graph 0) := rfl
  have accepted := Graph.accepted_of_ofNodes read (by simp [Graph.listedNodes])
  have counted : (countedListing.graph 1).Accepted :=
    accepted_of_countReferences accepted (Prod.ext rfl rfl)
  obtain ⟨⟨w', run, _, same, _⟩, _⟩ := copy_is_faithful counted
  have keys := congrArg (List.map fun op : Operation => op.attrs.keys) same.ops
  rw [List.map_map, List.map_map] at keys
  exact ⟨w', run, same, same.order, keys⟩

end Workspace

end TensorEmit
