import Mathlib.Data.List.Induction
import TensorEmit.Proofs.Edges
import TensorEmit.Proofs.Importing
import TensorEmit.Proofs.InPlace

/-!
# Who owns the operations of a graph

An operation and each of its tensors name the graph that they belong to, and look for their
neighbours there. Copies, pruned copies, graphs that are built and graphs that are read own all they
hold. There are two ways to a graph that does not: an operation of another graph can be added to it,
and where dropout is removed without pruning, the input that stands for a scope is taken over from
the old graph as it is.

`Session` follows the graphs that were asked for through a history of requests, and `Session.Spoils`
names these two ways. `Session.owns_iff_not_spoiled` says that there is no other one, and that none
of the two is ever made good: a graph owns all it holds exactly if no request has spoiled it.
-/

namespace TensorEmit

/-! ## Owners -/

/-- An operation belongs to a graph with all its tensors. -/
structure Operation.BelongsTo (op : Operation) (id : GraphId) : Prop where
  owner : op.owner = id
  inputs : ∀ t ∈ op.inputs, t.owner = id
  outputs : ∀ t ∈ op.outputs, t.owner = id

/-- The owners of an operation, of its inputs and of its outputs. -/
def Operation.owners (op : Operation) : GraphId × List GraphId × List GraphId :=
  (op.owner, op.inputs.map Tensor.owner, op.outputs.map Tensor.owner)

theorem Operation.belongsTo_iff_owners {op : Operation} {id : GraphId} :
    op.BelongsTo id ↔ op.owners.1 = id ∧ (∀ o ∈ op.owners.2.1, o = id) ∧
      ∀ o ∈ op.owners.2.2, o = id := by
  unfold owners
  simp only [List.forall_mem_map]
  constructor
  · intro own
    exact ⟨own.owner, own.inputs, own.outputs⟩
  · rintro ⟨owner, inputs, outputs⟩
    exact ⟨owner, inputs, outputs⟩

namespace Graph

/-- The owners of all operations of a graph and of their tensors. -/
def owners (g : Graph) : List (GraphId × List GraphId × List GraphId) :=
  g.ops.map Operation.owners

/-- All operations of a graph belong to the graph of a number. -/
def OwnedBy (g : Graph) (id : GraphId) : Prop := ∀ op ∈ g.ops, op.BelongsTo id

/-- All inputs belong to graphs with numbers below `n`. -/
def ReadsBelow (g : Graph) (n : Nat) : Prop := ∀ op ∈ g.ops, ∀ t ∈ op.inputs, t.owner < n

section Owners

variable {g g' : Graph} {base n : Nat} {id owner : GraphId}

theorem ownedBy_iff_owners : g.OwnedBy id ↔ ∀ e ∈ g.owners, e.1 = id ∧ (∀ o ∈ e.2.1, o = id) ∧
    ∀ o ∈ e.2.2, o = id := by
  unfold owners OwnedBy
  simp only [List.forall_mem_map, Operation.belongsTo_iff_owners]

theorem ownedBy_congr (same : g'.owners = g.owners) : g'.OwnedBy id ↔ g.OwnedBy id := by
  rw [ownedBy_iff_owners, ownedBy_iff_owners, same]

theorem readsBelow_iff_owners : g.ReadsBelow n ↔ ∀ e ∈ g.owners, ∀ o ∈ e.2.1, o < n := by
  unfold owners ReadsBelow Operation.owners
  simp only [List.forall_mem_map]

theorem ReadsBelow.congr (below : g.ReadsBelow n) (same : g'.owners = g.owners) :
    g'.ReadsBelow n := by
  rw [readsBelow_iff_owners, same, ← readsBelow_iff_owners]
  exact below

theorem ReadsBelow.mono {m : Nat} (below : g.ReadsBelow m) (le : m ≤ n) : g.ReadsBelow n :=
  fun op member t read => Nat.lt_of_lt_of_le (below op member t read) le

theorem OwnedBy.readsBelow (own : g.OwnedBy id) (inside : id < n) : g.ReadsBelow n := by
  intro op member t read
  rw [(own op member).inputs t read]
  exact inside

theorem owners_mapOps {f : Operation → Operation} (keeps : ∀ op, (f op).owners = op.owners) :
    (g.mapOps f).owners = g.owners := by
  unfold owners mapOps
  rw [List.map_map]
  exact List.map_congr_left fun op _ => keeps op

theorem owners_marked (numbers : List Nat) : (g.marked numbers).owners = g.owners := by
  refine owners_mapOps fun op => ?_
  unfold Operation.marked
  split
  · rfl
  · rfl

/-! ### Copies -/

theorem ownedBy_of_copy (run : g.copy base owner = .ok g') : g'.OwnedBy owner := by
  intro op' member
  obtain ⟨op, _, copied⟩ := exists_of_mem_copy run member
  have tensors : ∀ t ∈ op'.tensors, t.owner = owner := by
    intro t' inside
    obtain ⟨t, _, made⟩ := copied.exists_tensor inside
    obtain ⟨_, rfl⟩ := Tensor.copy_eq_ok_iff.mp made
    rfl
  obtain ⟨inputs, outputs⟩ := Operation.forall_tensors_iff.mp tensors
  exact ⟨copied.owner, inputs, outputs⟩

theorem ownedBy_of_pruned (run : g.pruned = .ok g') (own : g.OwnedBy id) : g'.OwnedBy id := by
  obtain ⟨names, _, rfl⟩ := pruned_eq_ok_iff.mp run
  exact fun op member => own op (List.mem_of_mem_filter member)

theorem owners_of_counted (run : g.counted = .ok g') : g'.owners = g.owners := by
  rw [eq_of_counted run]
  refine owners_mapOps fun op => ?_
  split
  · rfl
  · rfl

/-! ### New operations -/

theorem OwnedBy.put (own : g.OwnedBy id) {op : Operation} (belongs : op.BelongsTo id) :
    (g.put op).OwnedBy id := by
  intro op' member
  rcases mem_put member with rfl | before
  · exact belongs
  · exact own op' before

theorem belongsTo_of_operation {nodes : List Node} {n : Node} {op : Operation}
    (run : n.operation nodes base owner = .ok op) : op.BelongsTo owner := by
  rw [Node.operation_eq] at run
  simp only [bind_eq_ok_iff, pure_eq_ok_iff] at run
  obtain ⟨inputs, ins, _, _, _, _, rfl⟩ := run
  refine ⟨rfl, fun t input => ?_, fun t output => ?_⟩
  · obtain ⟨_, _, made⟩ := exists_of_mem_mapM ins input
    unfold Node.inputTensor at made
    rw [bind_eq_ok_iff] at made
    obtain ⟨_, _, made⟩ := made
    cases made
    rfl
  · obtain ⟨_, _, rfl⟩ := List.mem_map.mp output
    rfl

theorem ownedBy_of_ofNodes [Importer] {nodes : List Node} {outputs : Value}
    (run : Graph.ofNodes base id nodes outputs = .ok g) : g.OwnedBy id := by
  intro op member
  obtain ⟨_, _, _, made⟩ := exists_operation_of_ofNodes run member
  exact belongsTo_of_operation made

/-! ### Removing dropout -/

/-- An operation outside of dropout scopes reads a tensor that a scope made. -/
def ReadsDropout (g : Graph) : Prop :=
  ∃ name ∈ g.order, dropoutScope? name = none ∧ ∃ op, g.find? name = some op ∧
    ∃ t ∈ op.inputs, ∃ p scope, TensorName.producer t.name = .ok p ∧ dropoutScope? p = some scope

/-- The tensor that an operation reads after the removal belongs to the new graph, unless it stands
for a scope. -/
def Rehomed (inputs : Entries String Tensor) (owner : GraphId) (t t' : Tensor) : Prop :=
  ∃ p, TensorName.producer t.name = .ok p ∧
    ((dropoutScope? p = none ∧ t'.owner = owner) ∨
      ∃ scope, dropoutScope? p = some scope ∧ inputs.get? scope = some t')

theorem rehomed_of_remade {inputs : Entries String Tensor} {op op' : Operation}
    (remade : Remade inputs base owner op op') :
    List.Forall₂ (Rehomed inputs owner) op.inputs op'.inputs := by
  refine remade.inputs.imp ?_
  rintro t t' ⟨_, ⟨id, rfl⟩, made⟩
  obtain ⟨p, producer, ⟨outside, rfl⟩ | source⟩ := bypass_eq_ok_iff.mp made
  · exact ⟨p, producer, .inl ⟨outside, rfl⟩⟩
  · exact ⟨p, producer, .inr source⟩

/-- The inputs that stand for scopes are all that is taken over from the old graph. -/
theorem rehomed_of_dropoutRemoved (run : g.dropoutRemoved base owner = .ok g') :
    ∃ inputs, g.dropoutInputs = .ok inputs ∧
      List.Forall₂ (fun name op' => ∃ op, g.find? name = some op ∧ op'.owner = owner ∧
          List.Forall₂ (Rehomed inputs owner) op.inputs op'.inputs ∧
          ∀ t ∈ op'.outputs, t.owner = owner)
        (g.order.filter fun name => (dropoutScope? name).isNone) g'.ops := by
  obtain ⟨inputs, found, kept⟩ := remade_of_dropoutRemoved run
  refine ⟨inputs, found, kept.imp ?_⟩
  rintro name op' ⟨op, here, remade⟩
  refine ⟨op, here, remade.owner, rehomed_of_remade remade, fun t output => ?_⟩
  obtain ⟨_, _, _, rfl⟩ := exists_left_of_forall₂ remade.outputs output
  rfl

/-- Without dropout a new graph owns all it holds exactly if no operation that stays has read from a
scope. -/
theorem ownedBy_of_dropoutRemoved_iff (run : g.dropoutRemoved base owner = .ok g')
    (below : g.ReadsBelow owner) : g'.OwnedBy owner ↔ ¬g.ReadsDropout := by
  obtain ⟨inputs, found, kept⟩ := rehomed_of_dropoutRemoved run
  constructor
  · rintro own ⟨name, listed, outside, op, here, t, read, p, scope, producer, inside⟩
    have stays : name ∈ g.order.filter fun name => (dropoutScope? name).isNone :=
      List.mem_filter.mpr ⟨listed, by simp [outside]⟩
    obtain ⟨op', member, op₁, here', _, rehomed, _⟩ := exists_right_of_forall₂ kept stays
    cases here.symm.trans here'
    obtain ⟨t', read', p', producer', cases'⟩ := exists_right_of_forall₂ rehomed read
    cases producer.symm.trans producer'
    rcases cases' with ⟨other, _⟩ | ⟨scope', _, source⟩
    · cases inside.symm.trans other
    · -- What stands for the scope is an input of the old graph.
      obtain ⟨reader, member', input⟩ := read_of_dropoutInputs found source
      have foreign := below reader member' t' input
      rw [(own op' member).inputs t' read'] at foreign
      exact Nat.lt_irrefl owner foreign
  · intro clean op' member
    obtain ⟨name, stays, op, here, own, rehomed, outputs⟩ := exists_left_of_forall₂ kept member
    obtain ⟨listed, outside⟩ := List.mem_filter.mp stays
    refine ⟨own, fun t' read' => ?_, outputs⟩
    obtain ⟨t, read, p, producer, ⟨_, owned⟩ | ⟨scope, inside, _⟩⟩ :=
      exists_left_of_forall₂ rehomed read'
    · exact owned
    · exact absurd ⟨name, listed, by simpa using outside, op, here, t, read, p, scope, producer,
        inside⟩ clean

theorem readsBelow_of_dropoutRemoved (run : g.dropoutRemoved base owner = .ok g')
    (below : g.ReadsBelow owner) : g'.ReadsBelow (owner + 1) := by
  obtain ⟨inputs, found, kept⟩ := rehomed_of_dropoutRemoved run
  intro op' member t' read'
  obtain ⟨name, _, op, here, _, rehomed, _⟩ := exists_left_of_forall₂ kept member
  obtain ⟨t, _, p, _, ⟨_, owned⟩ | ⟨scope, _, source⟩⟩ := exists_left_of_forall₂ rehomed read'
  · rw [owned]
    exact Nat.lt_succ_self owner
  · obtain ⟨reader, member', input⟩ := read_of_dropoutInputs found source
    exact Nat.lt_succ_of_lt (below reader member' t' input)

end Owners

end Graph

/-! ## Workspaces -/

namespace Workspace

variable {w w' : Workspace} {id : GraphId} {quantizer : Quantizer}

/-- A graph owns all it holds. -/
def Owns (w : Workspace) (id : GraphId) : Prop := (w.graph id).OwnedBy id

/-- Every input belongs to a graph that is at hand. -/
def Closed (w : Workspace) : Prop := ∀ id, (w.graph id).ReadsBelow w.nextGraph

/-- The graphs at hand keep their owners, there may be more of them, and the workspace is still
closed. -/
structure Extends (w w' : Workspace) : Prop where
  owners : ∀ id < w.nextGraph, (w'.graph id).owners = (w.graph id).owners
  nextGraph : w.nextGraph ≤ w'.nextGraph
  closed : w'.Closed

theorem Extends.refl (closed : w.Closed) : w.Extends w := ⟨fun _ _ => rfl, Nat.le_refl _, closed⟩

theorem Extends.trans {w'' : Workspace} (first : w.Extends w') (second : w'.Extends w'') :
    w.Extends w'' := by
  refine ⟨fun id inside => ?_, Nat.le_trans first.nextGraph second.nextGraph, second.closed⟩
  rw [second.owners id (Nat.lt_of_lt_of_le inside first.nextGraph), first.owners id inside]

theorem Extends.owns_iff (step : w.Extends w') (inside : id < w.nextGraph) :
    w'.Owns id ↔ w.Owns id :=
  Graph.ownedBy_congr (step.owners id inside)

/-- A change in place that keeps all owners. -/
theorem extends_of_owners (closed : w.Closed) (nextGraph : w'.nextGraph = w.nextGraph)
    (owners : ∀ id, (w'.graph id).owners = (w.graph id).owners) : w.Extends w' := by
  refine ⟨fun id _ => owners id, Nat.le_of_eq nextGraph.symm, fun id => ?_⟩
  rw [nextGraph]
  exact (closed id).congr (owners id)

theorem extends_add (closed : w.Closed) {g : Graph} (below : g.ReadsBelow (w.nextGraph + 1))
    (k : Nat) : w.Extends ((w.add g).reserve k) := by
  have more : ((w.add g).reserve k).nextGraph = w.nextGraph + 1 := by
    unfold nextGraph reserve Workspace.add
    simp
  refine ⟨fun id inside => ?_, more ▸ Nat.le_succ _, fun id => ?_⟩
  · rw [graph_reserve, graph_add_eq, if_neg (Nat.ne_of_lt inside)]
  · rw [more, graph_reserve, graph_add_eq]
    split
    · exact below
    · exact (closed id).mono (Nat.le_succ _)

/-- A step that makes a graph extends the workspace and gives the new graph. -/
theorem extends_adding (closed : w.Closed) {r : Except Fault Graph}
    (below : ∀ g, r = .ok g → g.ReadsBelow (w.nextGraph + 1)) (k : Nat) :
    w.Extends (w.adding k r).1 := by
  cases r with
  | error f => exact .refl closed
  | ok g => exact extends_add closed (below g rfl) k

theorem extends_sort (closed : w.Closed) (id : GraphId) : w.Extends (w.sort id).1 := by
  cases sorts : w.sort id with
  | mk w₁ r =>
    cases r with
    | error f =>
      rw [eq_of_sort_failed sorts]
      exact .refl closed
    | ok u =>
      obtain ⟨names, _, rfl⟩ := sort_eq_ok_iff.mp sorts
      refine extends_of_owners closed (by simp [nextGraph, Workspace.set]) fun other => ?_
      by_cases same : other = id
      · subst same
        rcases w.graph_set_cases other { w.graph other with order := names } other with new | old
        · rw [new]
          rfl
        · rw [old]
      · rw [graph_set_of_ne same]

/-! ### Steps that give a graph of their own -/

/-- A step extends the workspace, and a graph that it gives is a new one that owns all it holds. -/
structure Brings (w : Workspace) (x : Workspace × Except Fault GraphId) : Prop where
  step : w.Extends x.1
  result : ∀ id, x.2 = .ok id → w.nextGraph ≤ id ∧ id < x.1.nextGraph ∧ x.1.Owns id

theorem brings_adding (closed : w.Closed) {r : Except Fault Graph}
    (own : ∀ g, r = .ok g → g.OwnedBy w.nextGraph) (k : Nat) : w.Brings (w.adding k r) := by
  refine ⟨extends_adding closed (fun g made => (own g made).readsBelow (Nat.lt_succ_self _)) k, ?_⟩
  intro id given
  obtain ⟨rfl, inside, made⟩ := graph_adding (Prod.ext rfl given)
  exact ⟨Nat.le_refl _, inside, own _ made⟩

theorem brings_copy (closed : w.Closed) (id : GraphId) : w.Brings (w.copy id) :=
  brings_adding closed (fun _ made => Graph.ownedBy_of_copy made) w.next

theorem brings_prune (closed : w.Closed) (id : GraphId) : w.Brings (w.prune id) := by
  refine brings_adding closed (fun g made => ?_) w.next
  obtain ⟨c, copied, pruned⟩ := bind_eq_ok_iff.mp made
  exact Graph.ownedBy_of_pruned pruned (Graph.ownedBy_of_copy copied)

theorem brings_countReferences (closed : w.Closed) (id : GraphId) :
    w.Brings (w.countReferences id) := by
  refine brings_adding closed (fun g made => ?_) w.next
  obtain ⟨c, copied, counted⟩ := bind_eq_ok_iff.mp made
  exact (Graph.ownedBy_congr (Graph.owners_of_counted counted)).mpr (Graph.ownedBy_of_copy copied)

theorem brings_ofNodes [Importer] (closed : w.Closed) (nodes : List Node) (outputs : Value) :
    w.Brings (w.ofNodes nodes outputs) :=
  brings_adding closed (fun _ made => Graph.ownedBy_of_ofNodes made) (Node.numbersOf nodes)

theorem brings_quantize [Importer] (quantizer : Quantizer) (closed : w.Closed) (id : GraphId) :
    w.Brings (w.quantize quantizer id) := by
  unfold Workspace.quantize
  dsimp only
  split
  · exact ⟨.refl closed, fun _ made => by cases made⟩
  · split
    · exact ⟨⟨fun _ _ => rfl, Nat.le_refl _, closed⟩, fun _ made => by cases made⟩
    · rename_i nodes _ _ nodes' _
      have noted : Workspace.Closed { w with
          handovers := w.handovers ++ [⟨nodes, [], (w.graph id).outputs, quantizeTransforms⟩] } :=
        closed
      obtain ⟨step, result⟩ := brings_ofNodes noted nodes'
        (.list ((w.graph id).outputs.map Value.text))
      exact ⟨⟨step.owners, step.nextGraph, step.closed⟩, result⟩

/-! ### Building -/

theorem belongsTo_of_makeOperation {base : Nat} {s : OperationSpec} {op : Operation}
    (run : makeOperation base id s = .ok op) : op.BelongsTo id := by
  have tensor : ∀ {s : TensorSpec} {number : Nat} {t : Tensor},
      s.make number (some id) = .ok t → t.owner = id := by
    intro s number t made
    unfold TensorSpec.make at made
    simp only [bind_eq_ok_iff, pure_eq_ok_iff] at made
    obtain ⟨_, _, _, _, _, _, _, _, _, _, rfl⟩ := made
    rfl
  unfold makeOperation at run
  simp only [bind_eq_ok_iff, pure_eq_ok_iff] at run
  obtain ⟨inputs, ins, outputs, outs, _, _, _, _, rfl⟩ := run
  refine ⟨rfl, fun t input => ?_, fun t output => ?_⟩
  · obtain ⟨_, _, made⟩ := exists_of_mem_mapM ins input
    exact tensor made
  · obtain ⟨_, _, made⟩ := exists_of_mem_mapM outs output
    exact tensor made

/-- What building adds belongs to the new graph. -/
theorem owns_of_addAllNew {specs : List OperationSpec} {u : Unit} (inside : id < w.nextGraph)
    (own : w.Owns id) (run : w.addAllNew id specs = (w', .ok u)) :
    w'.Owns id ∧ w'.nextGraph = w.nextGraph := by
  refine addAllNew_invariant (P := fun w' => w'.Owns id ∧ w'.nextGraph = w.nextGraph) ?_ ⟨own, rfl⟩
    run
  rintro w₁ s op made ⟨owns, same⟩
  constructor
  · unfold Owns
    rw [graph_reserve, graph_set_self (same ▸ inside)]
    exact owns.put (belongsTo_of_makeOperation made)
  · rw [← same]
    unfold nextGraph reserve Workspace.set
    simp

theorem brings_build (closed : w.Closed) (backend : String) (outputs : List String)
    (specs : List OperationSpec) (sorted : Bool) :
    w.Brings (w.build backend outputs specs sorted) := by
  have failed : ∀ f, w.Brings (w, .error f) := fun f =>
    ⟨.refl closed, fun _ made => by cases made⟩
  have more : (w.add ⟨[], [], outputs, backend⟩).nextGraph = w.nextGraph + 1 := by
    unfold nextGraph Workspace.add
    simp
  have own : (w.add ⟨[], [], outputs, backend⟩).Owns w.nextGraph := by
    unfold Owns
    rw [graph_add]
    exact fun op member => by cases member
  unfold Workspace.build
  dsimp only
  split
  · exact failed _
  · rename_i w₁ u added
    obtain ⟨owns, longer⟩ := owns_of_addAllNew (by rw [more]; exact Nat.lt_succ_self _) own added
    have others : ∀ other ≠ w.nextGraph, w₁.graph other =
        (w.add ⟨[], [], outputs, backend⟩).graph other := fun _ => graph_addAllNew_of_ne added
    rw [more] at longer
    have built : w.Extends w₁ := by
      refine ⟨fun id inside => ?_, longer ▸ Nat.le_succ _, fun id => ?_⟩
      · rw [others id (Nat.ne_of_lt inside), graph_add_eq, if_neg (Nat.ne_of_lt inside)]
      · rw [longer]
        by_cases new : id = w.nextGraph
        · subst new
          exact owns.readsBelow (Nat.lt_succ_self _)
        · rw [others id new, graph_add_eq, if_neg new]
          exact (closed id).mono (Nat.le_succ _)
    have inside : w.nextGraph < w₁.nextGraph := longer ▸ Nat.lt_succ_self _
    split
    · split
      · exact failed _
      · rename_i w₂ _ sorts
        have step := extends_sort built.closed w.nextGraph
        rw [sorts] at step
        refine ⟨built.trans step, fun id made => ?_⟩
        cases made
        exact ⟨Nat.le_refl _, Nat.lt_of_lt_of_le inside step.nextGraph,
          (step.owns_iff inside).mpr owns⟩
    · refine ⟨built, fun id made => ?_⟩
      cases made
      exact ⟨Nat.le_refl _, inside, owns⟩

/-! ### Passes -/

theorem extends_apply [Importer] (quantizer : Quantizer) (closed : w.Closed) (id : GraphId)
    (pass : Pass) :
    w.Extends (w.apply quantizer id pass).1 := by
  cases pass with
  | refCount => exact (brings_countReferences closed id).step
  | dropout =>
    exact extends_adding closed (fun g made => Graph.readsBelow_of_dropoutRemoved made (closed id))
      (w.graph id).numbers
  | batchNorm => exact .refl closed
  | quantize => exact (brings_quantize quantizer closed id).step
  | inline =>
    unfold apply
    rw [inlineConstants_eq]
    refine extends_of_owners closed (nextGraph_marked w _) fun other => ?_
    rw [graph_marked]
    exact Graph.owners_marked _

/-- Inlining gives the graph itself. Every other pass gives a new graph, which owns all it holds
unless it has lost dropout scopes that were read from. -/
theorem result_of_apply [Importer] {id' : GraphId} {pass : Pass} (closed : w.Closed)
    (run : w.apply quantizer id pass = (w', .ok id')) :
    (pass = .inline ∧ id' = id) ∨ (w.nextGraph ≤ id' ∧ id' < w'.nextGraph ∧
      (w'.Owns id' ↔ ¬(pass = .dropout ∧ (w.graph id).ReadsDropout))) := by
  have brought : w.Brings (w', .ok id') → pass ≠ .dropout →
      w.nextGraph ≤ id' ∧ id' < w'.nextGraph ∧
        (w'.Owns id' ↔ ¬(pass = .dropout ∧ (w.graph id).ReadsDropout)) := by
    rintro ⟨_, result⟩ other
    obtain ⟨new, inside, own⟩ := result id' rfl
    exact ⟨new, inside, fun _ both => other both.1, fun _ => own⟩
  cases pass with
  | refCount =>
    have brings := brings_countReferences closed id
    exact .inr (brought (run ▸ brings) (by decide))
  | dropout =>
    obtain ⟨rfl, inside, made⟩ := graph_adding run
    have own := Graph.ownedBy_of_dropoutRemoved_iff made (closed id)
    refine .inr ⟨Nat.le_refl _, inside, ?_⟩
    unfold Owns
    rw [own]
    simp
  | batchNorm => cases run
  | quantize =>
    have brings := brings_quantize quantizer closed id
    exact .inr (brought (run ▸ brings) (by decide))
  | inline => exact .inl ⟨rfl, (retyped_of_inline run).1⟩

/-- Sorting what a pass gives keeps the owners of the graphs at hand. -/
theorem extends_sorted [Importer] {w₁ w₂ : Workspace} {id₁ : GraphId} {pass : Pass}
    {r : Except Fault Unit} (closed : w.Closed) (ran : w.apply quantizer id pass = (w₁, .ok id₁))
    (sorts : w₁.sort id₁ = (w₂, r)) : w₁.Extends w₂ ∧ w.Extends w₂ := by
  have applied := extends_apply quantizer closed id pass
  rw [ran] at applied
  have sorted := extends_sort applied.closed id₁
  rw [sorts] at sorted
  exact ⟨sorted, applied.trans sorted⟩

/-- What follows a pass keeps the owners of the graphs at hand. -/
theorem extends_runStep [Importer] (quantizer : Quantizer) (closed : w.Closed) (id : GraphId)
    (s : PassStep) :
    w.Extends (w.runStep quantizer id s).1 := by
  generalize run : w.runStep quantizer id s = x
  cases outcome_of_runStep run with
  | failed ran =>
    have applied := extends_apply quantizer closed id s.pass
    rw [ran] at applied
    exact applied
  | unsorted ran sorts => exact (extends_sorted closed ran sorts).2
  | undecided ran sorts _ => exact (extends_sorted closed ran sorts).2
  | sorted ran sorts _ => exact (extends_sorted closed ran sorts).2
  | pruned ran sorts _ made =>
    have both := (extends_sorted closed ran sorts).2
    rw [← made]
    exact both.trans (brings_prune both.closed _).step

/-- A step that inlines without pruning gives the graph itself. Every other step gives a new graph,
which owns all it holds unless it has lost dropout scopes that were read from and was not pruned. -/
theorem result_of_runStep [Importer] {id' : GraphId} {s : PassStep} (closed : w.Closed)
    (run : w.runStep quantizer id s = (w', .ok id')) :
    (s.pass = .inline ∧ id' = id) ∨ (w.nextGraph ≤ id' ∧ id' < w'.nextGraph ∧
      (w'.Owns id' ↔
        ¬(s.pass = .dropout ∧ s.prune.truth? = some false ∧ (w.graph id).ReadsDropout))) := by
  cases outcome_of_runStep run with
  | sorted ran sorts keep =>
    obtain ⟨sorted, _⟩ := extends_sorted closed ran sorts
    rcases result_of_apply closed ran with inline | ⟨new, inside, own⟩
    · exact .inl inline
    · refine .inr ⟨new, Nat.lt_of_lt_of_le inside sorted.nextGraph, ?_⟩
      rw [sorted.owns_iff inside, own, keep]
      simp
  | @pruned _ _ id₁ _ ran sorts keep made =>
    obtain ⟨_, both⟩ := extends_sorted closed ran sorts
    obtain ⟨_, result⟩ := brings_prune both.closed id₁
    rw [made] at result
    obtain ⟨new, inside, own⟩ := result id' rfl
    refine .inr ⟨Nat.le_trans both.nextGraph new, inside, ?_⟩
    simp [own, keep]

/-! ### Operations of other graphs -/

theorem graph_addShared {op : Operation} (fresh : (w.graph id).has op.name = false) :
    (w.addShared id op).1 = ((w.set id ((w.graph id).put op)).sort id).1 := by
  unfold addShared
  rw [if_neg (by simp [fresh])]

theorem closed_put (closed : w.Closed) (id : GraphId) {op : Operation}
    (below : ∀ t ∈ op.inputs, t.owner < w.nextGraph) :
    (w.set id ((w.graph id).put op)).Closed := by
  intro other
  have same : (w.set id ((w.graph id).put op)).nextGraph = w.nextGraph := by
    simp [nextGraph, Workspace.set]
  rw [same]
  rcases w.graph_set_cases id ((w.graph id).put op) other with new | old
  · rw [new]
    intro op' member
    rcases Graph.mem_put member with rfl | before
    · exact below
    · exact closed id op' before
  · rw [old]
    exact closed other

/-- An operation that is added leaves a graph the owner of all it holds exactly if it belongs to it;
other graphs do not change. -/
theorem owns_of_addShared_iff (closed : w.Closed) (id : GraphId) {op : Operation}
    (below : ∀ t ∈ op.inputs, t.owner < w.nextGraph) {other : GraphId}
    (held : other < w.nextGraph) :
    (w.addShared id op).1.Owns other ↔
      w.Owns other ∧ (other = id → (w.graph id).has op.name = false → op.BelongsTo id) := by
  cases known : (w.graph id).has op.name with
  | true =>
    unfold addShared
    rw [if_pos known]
    simp
  | false =>
    have step := extends_sort (closed_put closed id below) id
    have inside : other < (w.set id ((w.graph id).put op)).nextGraph := by
      simpa [nextGraph, Workspace.set] using held
    rw [graph_addShared known, step.owns_iff inside]
    by_cases same : other = id
    · subst same
      unfold Owns
      rw [graph_set_self held]
      have added : ((w.graph other).put op).ops = (w.graph other).ops ++ [op] := by
        unfold Graph.put
        rw [if_neg (by simp [known])]
      unfold Graph.OwnedBy
      rw [added]
      simp only [List.mem_append, List.mem_singleton, or_imp, forall_and, forall_eq, true_implies]
    · unfold Owns
      rw [graph_set_of_ne same]
      simp [same]

theorem closed_addShared (closed : w.Closed) (id : GraphId) {op : Operation}
    (below : ∀ t ∈ op.inputs, t.owner < w.nextGraph) :
    (w.addShared id op).1.Closed ∧ w.nextGraph ≤ (w.addShared id op).1.nextGraph := by
  cases known : (w.graph id).has op.name with
  | true =>
    unfold addShared
    rw [if_pos known]
    exact ⟨closed, Nat.le_refl _⟩
  | false =>
    have step := extends_sort (closed_put closed id below) id
    rw [graph_addShared known]
    refine ⟨step.closed, Nat.le_trans (Nat.le_of_eq ?_) step.nextGraph⟩
    simp [nextGraph, Workspace.set]

/-! ### What owners are looked up for -/

/-- All that the operations of a graph and their tensors find is in the graph. -/
structure Resolves (w : Workspace) (id : GraphId) : Prop where
  operations : ∀ op ∈ (w.graph id).ops, (w.viewOperation id op).own = true
  tensors : ∀ op ∈ (w.graph id).ops, ∀ t ∈ op.tensors, (w.viewTensor id t).own = true
  producers : ∀ op ∈ (w.graph id).ops, ∀ t ∈ op.tensors,
    w.producerOf t = (w.graph id).find? t.producer
  inputNodes : ∀ op ∈ (w.graph id).ops, (w.viewOperation id op).inputNodes =
    ((w.graph id).inputNodes op).map fun found => found.map Operation.name
  outputNodes : ∀ op ∈ (w.graph id).ops, (w.viewOperation id op).outputNodes =
    (w.graph id).consumers op.name >>= fun names =>
      names.mapM fun name => ((w.graph id).find name).map Operation.name

theorem Owns.resolves (own : w.Owns id) : w.Resolves id := by
  have tensors : ∀ op ∈ (w.graph id).ops, ∀ t ∈ op.tensors, t.owner = id := by
    intro op member t listed
    rcases List.mem_append.mp listed with input | output
    · exact (own op member).inputs t input
    · exact (own op member).outputs t output
  refine ⟨fun op member => ?_, fun op member t listed => ?_, fun op member t listed => ?_,
    fun op member => ?_, fun op member => ?_⟩
  · exact decide_eq_true (own op member).owner
  · exact decide_eq_true (tensors op member t listed)
  · unfold producerOf
    rw [tensors op member t listed]
  · unfold viewOperation
    rw [(own op member).owner]
  · unfold viewOperation
    rw [(own op member).owner]

end Workspace

/-! ## Sessions -/

/-- A workspace with the graphs that were asked for. Other graphs of the workspace are what was on
the way to these. -/
structure Session where
  workspace : Workspace
  held : List GraphId

namespace Session

/-- A session without graphs. -/
def start : Session := ⟨Workspace.empty, []⟩

/-- What can be asked for. -/
inductive Request where
  | build (backend : String) (outputs : List String) (ops : List OperationSpec) (sorted : Bool)
  | read (nodes : List Node) (outputs : Value)
  | copy (id : GraphId)
  /-- Adds an operation, which may be one of another graph. -/
  | addShared (id : GraphId) (op : Operation)
  | transform (id : GraphId) (step : PassStep)

/-- The session after a step that gives a graph or fails. -/
def holding (s : Session) (x : Workspace × Except Fault GraphId) : Session :=
  match x with
  | (w, .ok id) => ⟨w, id :: s.held⟩
  | (w, .error _) => ⟨w, s.held⟩

/-- Whether a request is about graphs that are held. An operation that is added can only read
tensors of graphs that exist. -/
def Accepts (s : Session) : Request → Prop
  | .build .. | .read .. => True
  | .copy id => id ∈ s.held
  | .addShared id op => id ∈ s.held ∧ ∀ t ∈ op.inputs, t.owner < s.workspace.nextGraph
  | .transform id _ => id ∈ s.held

instance (s : Session) : (r : Request) → Decidable (s.Accepts r)
  | .build .. | .read .. => isTrue trivial
  | .copy id => inferInstanceAs (Decidable (id ∈ s.held))
  | .addShared id op => inferInstanceAs (Decidable
      (id ∈ s.held ∧ ∀ t ∈ op.inputs, t.owner < s.workspace.nextGraph))
  | .transform id _ => inferInstanceAs (Decidable (id ∈ s.held))

/-- The session after what was asked for, whether it fails or not. -/
def perform [Importer] (quantizer : Quantizer) (s : Session) : Request → Session
  | .build backend outputs ops sorted => s.holding (s.workspace.build backend outputs ops sorted)
  | .read nodes outputs => s.holding (s.workspace.ofNodes nodes outputs)
  | .copy id => s.holding (s.workspace.copy id)
  | .addShared id op => ⟨(s.workspace.addShared id op).1, s.held⟩
  | .transform id step => s.holding (s.workspace.runStep quantizer id step)

/-- The session after a request. -/
def step [Importer] (quantizer : Quantizer) (s : Session) (r : Request) : Session :=
  if s.Accepts r then s.perform quantizer r else s

/-- The session after a history of requests. -/
def run [Importer] (quantizer : Quantizer) (requests : List Request) : Session :=
  requests.foldl (step quantizer) start

/-- A request leaves something in a graph that belongs to another one: an operation is added that
does not belong to the graph, or the graph has lost dropout scopes that were read from and was not
pruned. -/
inductive Spoils [Importer] (quantizer : Quantizer) (s : Session) : Request → GraphId → Prop
  | shared {id : GraphId} {op : Operation} : s.Accepts (.addShared id op) →
      (s.workspace.graph id).has op.name = false → ¬op.BelongsTo id →
      Spoils quantizer s (.addShared id op) id
  | bypassed {id id' : GraphId} {step : PassStep} {w : Workspace} :
      s.Accepts (.transform id step) →
      s.workspace.runStep quantizer id step = (w, .ok id') → step.pass = .dropout →
      step.prune.truth? = some false → (s.workspace.graph id).ReadsDropout →
      Spoils quantizer s (.transform id step) id'

/-- The graphs that are held exist, and so do all that own their inputs. -/
structure Valid (s : Session) : Prop where
  closed : s.workspace.Closed
  inside : ∀ id ∈ s.held, id < s.workspace.nextGraph

/-- What a request makes of a valid session: the session stays valid and loses no graph, every graph
that comes to be held is a new one, and a held graph owns all it holds exactly if it did before, in
case it was there, and the request does not spoil it. -/
structure Performs [Importer] (quantizer : Quantizer) (s : Session) (r : Request)
    (s' : Session) : Prop where
  valid : s'.Valid
  grows : s.workspace.nextGraph ≤ s'.workspace.nextGraph
  held : ∀ id ∈ s'.held, id ∈ s.held ∨ s.workspace.nextGraph ≤ id
  spoiled : ∀ id, s.Spoils quantizer r id → id < s'.workspace.nextGraph
  owns : ∀ id ∈ s'.held, s'.workspace.Owns id ↔
    (id ∈ s.held → s.workspace.Owns id) ∧ ¬s.Spoils quantizer r id

section Steps

variable {s : Session} {quantizer : Quantizer} {r : Request}

theorem performs_refused [Importer] (valid : s.Valid) (refused : ¬s.Accepts r) :
    s.Performs quantizer r s := by
  have clean : ∀ id, ¬s.Spoils quantizer r id := by
    intro id spoiled
    cases spoiled with
    | shared accepts _ _ => exact refused accepts
    | bypassed accepts _ _ _ _ => exact refused accepts
  refine ⟨valid, Nat.le_refl _, fun _ => .inl, fun id spoiled => absurd spoiled (clean id), ?_⟩
  intro id member
  simp [member, clean id]

/-- A step that gives a graph performs a request if only that graph can be spoiled, and if it owns
all it holds otherwise. -/
theorem performs_holding [Importer] (valid : s.Valid) {x : Workspace × Except Fault GraphId}
    (extends_ : s.workspace.Extends x.1)
    (result : ∀ id, x.2 = .ok id → id ∈ s.held ∨ s.workspace.nextGraph ≤ id ∧
      id < x.1.nextGraph ∧ (x.1.Owns id ↔ ¬s.Spoils quantizer r id))
    (only : ∀ id, s.Spoils quantizer r id → s.workspace.nextGraph ≤ id ∧ id < x.1.nextGraph) :
    s.Performs quantizer r (s.holding x) := by
  have space : (s.holding x).workspace = x.1 := by
    unfold holding
    split
    · rfl
    · rfl
  have members : ∀ id ∈ (s.holding x).held, id ∈ s.held ∨ s.workspace.nextGraph ≤ id ∧
      id < x.1.nextGraph ∧ (x.1.Owns id ↔ ¬s.Spoils quantizer r id) := by
    intro id member
    unfold holding at member
    split at member
    · rcases List.mem_cons.mp member with rfl | before
      · exact result id rfl
      · exact .inl before
    · exact .inl member
  refine ⟨⟨?_, fun id member => ?_⟩, ?_, fun id member => ?_, fun id spoiled => ?_,
    fun id member => ?_⟩
  · rw [space]
    exact extends_.closed
  · rw [space]
    rcases members id member with before | ⟨_, inside, _⟩
    · exact Nat.lt_of_lt_of_le (valid.inside id before) extends_.nextGraph
    · exact inside
  · rw [space]
    exact extends_.nextGraph
  · exact (members id member).imp_right And.left
  · rw [space]
    exact (only id spoiled).2
  · rw [space]
    rcases members id member with before | ⟨new, _, own⟩
    · have inside := valid.inside id before
      have clean : ¬s.Spoils quantizer r id := fun spoiled =>
        Nat.not_le_of_lt inside (only id spoiled).1
      rw [extends_.owns_iff inside]
      simp [before, clean]
    · have fresh : id ∉ s.held := fun before => Nat.not_le_of_lt (valid.inside id before) new
      rw [own]
      simp [fresh]

/-- A step that brings a graph of its own performs a request that spoils nothing. -/
theorem performs_brought [Importer] (valid : s.Valid) {x : Workspace × Except Fault GraphId}
    (brings : s.workspace.Brings x) (clean : ∀ id, ¬s.Spoils quantizer r id) :
    s.Performs quantizer r (s.holding x) := by
  refine performs_holding valid brings.step (fun id made => ?_)
    fun id spoiled => absurd spoiled (clean id)
  obtain ⟨new, inside, own⟩ := brings.result id made
  exact .inr ⟨new, inside, fun _ => clean id, fun _ => own⟩

theorem performs_addShared [Importer] (valid : s.Valid) {id : GraphId} {op : Operation}
    (accepts : s.Accepts (.addShared id op)) :
    s.Performs quantizer (.addShared id op) ⟨(s.workspace.addShared id op).1, s.held⟩ := by
  obtain ⟨closed, grows⟩ := Workspace.closed_addShared valid.closed id accepts.2
  refine ⟨⟨closed, fun other held => Nat.lt_of_lt_of_le (valid.inside other held) grows⟩, grows,
    fun _ => .inl, fun other spoiled => ?_, fun other held => ?_⟩
  · cases spoiled with
    | shared _ _ _ => exact Nat.lt_of_lt_of_le (valid.inside id accepts.1) grows
  · have held' : other ∈ s.held := held
    refine (Workspace.owns_of_addShared_iff valid.closed id accepts.2
      (valid.inside other held)).trans ?_
    simp only [held', true_implies]
    refine and_congr_right fun _ => ⟨?_, ?_⟩
    · rintro belongs spoiled
      cases spoiled with
      | shared _ fresh foreign => exact foreign (belongs rfl fresh)
    · rintro clean rfl fresh
      by_contra foreign
      exact clean (.shared accepts fresh foreign)

theorem performs_transform [Importer] (valid : s.Valid) {id : GraphId} {step : PassStep}
    (accepts : s.Accepts (.transform id step)) :
    s.Performs quantizer (.transform id step)
      (s.holding (s.workspace.runStep quantizer id step)) := by
  have closed := valid.closed
  refine performs_holding valid (Workspace.extends_runStep quantizer closed id step)
    (fun id' made => ?_) fun id' spoiled => ?_
  · have run : s.workspace.runStep quantizer id step = (_, .ok id') := Prod.ext rfl made
    rcases Workspace.result_of_runStep closed run with ⟨_, same⟩ | ⟨new, inside, own⟩
    · exact .inl (same ▸ accepts)
    · refine .inr ⟨new, inside, own.trans (not_congr ⟨?_, ?_⟩)⟩
      · rintro ⟨isDropout, keep, reads⟩
        exact .bypassed accepts run isDropout keep reads
      · intro spoiled
        cases spoiled with
        | bypassed _ _ isDropout keep reads => exact ⟨isDropout, keep, reads⟩
  · cases spoiled with
    | bypassed _ run isDropout _ _ =>
      rcases Workspace.result_of_runStep closed run with ⟨isInline, _⟩ | ⟨new, inside, _⟩
      · rw [isDropout] at isInline
        cases isInline
      · rw [run]
        exact ⟨new, inside⟩

theorem performs_step [Importer] (valid : s.Valid) (quantizer : Quantizer) (r : Request) :
    s.Performs quantizer r (s.step quantizer r) := by
  unfold Session.step
  split
  · rename_i accepts
    have closed := valid.closed
    cases r with
    | build backend outputs ops sorted =>
      exact performs_brought valid (Workspace.brings_build closed backend outputs ops sorted)
        fun id spoiled => by cases spoiled
    | read nodes outputs =>
      exact performs_brought valid (Workspace.brings_ofNodes closed nodes outputs)
        fun id spoiled => by cases spoiled
    | copy id =>
      exact performs_brought valid (Workspace.brings_copy closed id)
        fun id spoiled => by cases spoiled
    | addShared id op => exact performs_addShared valid accepts
    | transform id step => exact performs_transform valid accepts
  · rename_i refused
    exact performs_refused valid refused

end Steps

/-! ## Histories -/

section Histories

variable (quantizer : Quantizer)

theorem run_snoc [Importer] (requests : List Request) (r : Request) :
    run quantizer (requests ++ [r]) = (run quantizer requests).step quantizer r := by
  unfold run
  rw [List.foldl_append]
  rfl

theorem valid_run [Importer] (requests : List Request) : (run quantizer requests).Valid := by
  induction requests using List.reverseRecOn with
  | nil =>
    refine ⟨fun id op member => ?_, fun id held => ?_⟩
    · have none : op ∈ Graph.empty.ops := member
      cases none
    · cases held
  | append_singleton requests r ih =>
    rw [run_snoc]
    exact (performs_step ih quantizer r).valid

theorem grows_run [Importer] (before after : List Request) :
    (run quantizer before).workspace.nextGraph ≤
      (run quantizer (before ++ after)).workspace.nextGraph := by
  induction after using List.reverseRecOn with
  | nil => exact Nat.le_of_eq (by rw [List.append_nil])
  | append_singleton after r ih =>
    rw [← List.append_assoc, run_snoc]
    exact Nat.le_trans ih (performs_step (valid_run quantizer _) quantizer r).grows

/-- The graphs of a history that a request of it has spoiled existed by then. -/
theorem inside_of_spoils [Importer] {before : List Request} {r : Request} {id : GraphId}
    (spoiled : (run quantizer before).Spoils quantizer r id) (after : List Request) :
    id < (run quantizer (before ++ r :: after)).workspace.nextGraph := by
  have inside := (performs_step (valid_run quantizer before) quantizer r).spoiled id spoiled
  rw [← run_snoc] at inside
  have grows := grows_run quantizer (before ++ [r]) after
  rw [List.append_assoc, List.singleton_append] at grows
  exact Nat.lt_of_lt_of_le inside grows

end Histories

/-- A split of a longer list is a split of the list, or it is at the new end. -/
theorem forall_splits_snoc {P : List Request → Request → Prop} {requests : List Request}
    {r : Request} :
    (∀ before r' after, requests ++ [r] = before ++ r' :: after → P before r') ↔
      (∀ before r' after, requests = before ++ r' :: after → P before r') ∧ P requests r := by
  constructor
  · intro all
    refine ⟨fun before r' after parts => all before r' (after ++ [r]) ?_, all requests r [] rfl⟩
    rw [parts, List.append_assoc, List.cons_append]
  · rintro ⟨early, last⟩ before r' after parts
    rcases List.eq_nil_or_concat after with rfl | ⟨after, r'', rfl⟩
    · obtain ⟨rfl, same⟩ := List.append_inj' parts rfl
      cases same
      exact last
    · rw [List.concat_eq_append, ← List.cons_append, ← List.append_assoc] at parts
      obtain ⟨rfl, _⟩ := List.append_inj' parts rfl
      exact early before r' after rfl

/-- After any history of requests, failed ones included, a held graph owns all it holds exactly if
no request has spoiled it, and whatever its operations and tensors look up is then found in the
graph itself. -/
theorem owns_iff_not_spoiled [Importer] (quantizer : Quantizer) (requests : List Request)
    (id : GraphId) (held : id ∈ (run quantizer requests).held) :
    ((run quantizer requests).workspace.Owns id ↔
      ∀ before r after, requests = before ++ r :: after →
        ¬(run quantizer before).Spoils quantizer r id) ∧
    ((run quantizer requests).workspace.Owns id →
      (run quantizer requests).workspace.Resolves id) := by
  refine ⟨?_, Workspace.Owns.resolves⟩
  induction requests using List.reverseRecOn with
  | nil => cases held
  | append_singleton requests r ih =>
    have step := performs_step (valid_run quantizer requests) quantizer r
    rw [forall_splits_snoc]
    rw [run_snoc] at held ⊢
    rw [step.owns id held]
    refine and_congr_left fun _ => ?_
    constructor
    · intro own before r' after parts spoiled
      have inside := inside_of_spoils quantizer spoiled after
      rw [← parts] at inside
      -- A graph that was spoiled is none that has just come to be held.
      rcases step.held id held with before' | new
      · exact (ih before').mp (own before') before r' after parts spoiled
      · exact Nat.not_le_of_lt inside new
    · intro clean held'
      exact (ih held').mpr clean

/-- A graph whose output reads from a dropout scope. -/
def maskedRequest : Request :=
  .build tensorBackend ["y"]
    [Workspace.addition "x" [], Workspace.addition "dropout/mul" [("x:0", "x")],
      Workspace.addition "y" [("dropout/mul:0", "dropout/mul")]] true

/-- A history in which dropout is removed from this graph, once without pruning and once with it. -/
def dropoutHistory : List Request :=
  [maskedRequest, .transform 0 ⟨.dropout, .bool false⟩, .transform 0 ⟨.dropout, .bool true⟩]

attribute [local instance] Importer.strict

theorem owns_iff_not_spoiled_dropout :
    (run (fun h => .ok h.nodes) dropoutHistory).held = [3, 1, 0] ∧
    ¬(run (fun h => .ok h.nodes) dropoutHistory).workspace.Owns 1 := by
  have held : (run (fun h => .ok h.nodes) dropoutHistory).held = [3, 1, 0] := rfl
  have reads : ((run (fun h => .ok h.nodes) [maskedRequest]).workspace.graph 0).ReadsDropout :=
    ⟨"y", by decide, by decide, _, rfl, _, List.mem_cons_self, "dropout/mul", "dropout", rfl, rfl⟩
  have removed : (run (fun h => .ok h.nodes) [maskedRequest]).workspace.runStep
      (fun h => .ok h.nodes) 0 ⟨.dropout, .bool false⟩ = (_, .ok 1) := Prod.ext rfl rfl
  refine ⟨held, fun own => ?_⟩
  refine (owns_iff_not_spoiled _ _ 1 (by rw [held]; decide)).1.mp own [maskedRequest] _ _ rfl ?_
  exact .bypassed (by decide) removed rfl rfl reads

/-- Whether the inputs of each operation of a graph are the graph's own. -/
def ownInputs (s : Session) (id : GraphId) : List (List Bool) :=
  (s.workspace.view id).map fun v => v.inputs.map TensorView.own

/-- Without pruning the output reads a tensor of the graph that still has dropout. An operation that
is added from another graph goes on belonging there. -/
theorem foreign_input_and_operation :
    (run (fun h => .ok h.nodes) dropoutHistory).ownInputs 1 = [[], [false]] ∧
    (run (fun h => .ok h.nodes) dropoutHistory).ownInputs 3 = [[], [true]] ∧
    (Workspace.foreignWorkspace.view 1).map OperationView.own = [true, false] :=
  ⟨rfl, rfl, rfl⟩

end Session

end TensorEmit
