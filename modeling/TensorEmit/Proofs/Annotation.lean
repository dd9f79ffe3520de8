import TensorEmit.Proofs.FaithfulCopies
import TensorEmit.Proofs.Importing

/-!
# Counting only annotates

Counting references works on a copy and leaves two notes on every operation of the order.
`Graph.noted` is the graph with these notes, and a step that counts gives this graph with other
numbers and owners (`Workspace.runStep_refCount`): the copy is faithful, sorting the graph with the
notes gives the order that it has already, and the step never prunes, whatever options it is given.

Notes depend on names, types, tensors and outputs, none of which they change, so counting again
leaves the same notes (`Graph.noted_noted`).
-/

namespace TensorEmit

/-! ## Notes -/

/-- Setting what is there already changes nothing. -/
theorem Entries.set_of_get? {κ α : Type} [DecidableEq κ] {es : Entries κ α} {k : κ} {v : α}
    (found : es.get? k = some v) : es.set k v = es := by
  induction es with
  | nil => cases found
  | cons e rest ih =>
    obtain ⟨k', v'⟩ := e
    rw [Entries.get?] at found
    rw [Entries.set]
    split at found
    case isTrue here =>
      cases found
      rw [if_pos here, here]
    case isFalse elsewhere => rw [if_neg elsewhere, ih found]

namespace Operation

/-- The attributes of an operation apart from the notes of reference counts. -/
def otherAttrs (op : Operation) : Entries String Value :=
  op.attrs.filter fun e => e.1 ≠ evaluateKey && e.1 ≠ countsKey

/-- An operation with the notes of reference counts, which differs in nothing else. `atOnce` is
whether it has to be evaluated at once, and `counts` is how often its outputs are read. -/
structure Annotated (op op' : Operation) (atOnce : Bool) (counts : List Nat) : Prop where
  name : op'.name = op.name
  type : op'.type = op.type
  inputs : op'.inputs.map Tensor.content = op.inputs.map Tensor.content
  outputs : op'.outputs.map Tensor.content = op.outputs.map Tensor.content
  others : op'.otherAttrs = op.otherAttrs
  atOnce : op'.attrs.get? evaluateKey = some (.bool atOnce)
  counts : op'.attrs.get? countsKey = some (.list (counts.map fun n : Nat => Value.int n))

theorem Annotated.of_content {op op₁ op' : Operation} {atOnce : Bool} {counts : List Nat}
    (annotated : op.Annotated op₁ atOnce counts) (same : op'.content = op₁.content) :
    op.Annotated op' atOnce counts where
  name := (name_of_content same).trans annotated.name
  type := (type_of_content same).trans annotated.type
  inputs := (views_of_forall₂ (inputs_of_content same)).trans annotated.inputs
  outputs := (views_of_forall₂ (outputs_of_content same)).trans annotated.outputs
  others := by
    unfold otherAttrs
    rw [attrs_of_content same]
    exact annotated.others
  atOnce := by
    rw [attrs_of_content same]
    exact annotated.atOnce
  counts := by
    rw [attrs_of_content same]
    exact annotated.counts

end Operation

namespace Graph

variable {g g' : Graph}

theorem get?_annotate_evaluateKey (g : Graph) (op : Operation) :
    (g.annotate op).attrs.get? evaluateKey = some (.bool (g.evaluatesAtOnce op)) := by
  unfold annotate
  rw [Entries.get?_set_of_ne _ _ (by decide), Entries.get?_set_self]

theorem get?_annotate_countsKey (g : Graph) (op : Operation) :
    (g.annotate op).attrs.get? countsKey =
      some (.list (op.outputs.map fun t => .int (g.uses t.name))) := by
  unfold annotate
  rw [Entries.get?_set_self]

theorem annotated_annotate (g : Graph) (op : Operation) :
    op.Annotated (g.annotate op) (g.evaluatesAtOnce op)
      (op.outputs.map fun t => g.uses t.name) where
  name := rfl
  type := rfl
  inputs := rfl
  outputs := rfl
  others := by
    unfold Operation.otherAttrs annotate
    dsimp only
    rw [Entries.filter_set fun key => key ≠ evaluateKey && key ≠ countsKey, if_neg (by decide),
      Entries.filter_set fun key => key ≠ evaluateKey && key ≠ countsKey, if_neg (by decide)]
  atOnce := g.get?_annotate_evaluateKey op
  counts := by
    rw [g.get?_annotate_countsKey op, List.map_map]
    rfl

/-- Outputs of the graph, constants and inputs of the graph are not evaluated at once. -/
theorem evaluatesAtOnce_eq_false_iff (g : Graph) (op : Operation) :
    g.evaluatesAtOnce op = false ↔
      op.name ∈ g.outputs ∨ op.type = "Const" ∨ op.type = "Placeholder" := by
  unfold evaluatesAtOnce
  simp only [Bool.not_eq_false', Bool.or_eq_true, decide_eq_true_eq, or_assoc]

/-- An operation with its notes, if the order lists it. -/
def noteOn (g : Graph) (op : Operation) : Operation :=
  if op.name ∈ g.order then g.annotate op else op

/-- The graph with notes on the operations of its order. -/
def noted (g : Graph) : Graph := g.mapOps g.noteOn

theorem noteOn_of_mem {op : Operation} (listed : op.name ∈ g.order) :
    g.noteOn op = g.annotate op := if_pos listed

theorem noteOn_of_notMem {op : Operation} (spare : op.name ∉ g.order) : g.noteOn op = op :=
  if_neg spare

theorem wires_noted (g : Graph) : g.noted.wires = g.wires := by
  refine wires_mapOps fun op => ?_
  unfold noteOn
  split
  · exact ⟨rfl, rfl⟩
  · exact ⟨rfl, rfl⟩

theorem sorted_noted (g : Graph) : g.noted.sorted = g.sorted :=
  sorted_of_wires g.wires_noted rfl

/-- Notes are the same when they are left again. -/
theorem annotate_annotate (wires : g'.wires = g.wires) (outputs : g'.outputs = g.outputs)
    (op : Operation) : g'.annotate (g.annotate op) = g.annotate op := by
  have evaluates : g'.evaluatesAtOnce (g.annotate op) = g.evaluatesAtOnce op := by
    unfold evaluatesAtOnce
    rw [outputs]
    rfl
  have counts : ((g.annotate op).outputs.map fun t => Value.int (g'.uses t.name)) =
      op.outputs.map fun t => Value.int (g.uses t.name) := by
    simp only [uses_congr wires]
    rfl
  have first := Entries.set_of_get? (g.get?_annotate_evaluateKey op)
  have second := Entries.set_of_get? (g.get?_annotate_countsKey op)
  rw [annotate, evaluates, counts, first, second]

theorem noted_noted (g : Graph) : g.noted.noted = g.noted := by
  have again : ∀ op ∈ g.ops, (g.noted.noteOn ∘ g.noteOn) op = g.noteOn op := by
    intro op _
    rw [Function.comp]
    by_cases listed : op.name ∈ g.order
    · have listed' : (g.annotate op).name ∈ g.noted.order := listed
      rw [noteOn_of_mem listed, noteOn_of_mem listed', annotate_annotate g.wires_noted rfl]
    · have spare : op.name ∉ g.noted.order := listed
      rw [noteOn_of_notMem listed, noteOn_of_notMem spare]
  change { g with ops := (g.ops.map g.noteOn).map g.noted.noteOn } = g.noted
  rw [List.map_map, List.map_congr_left again]
  rfl

/-- The operations of the order of a graph that was sorted are found. -/
theorem exists_found (sorted : g.sorted = .ok g.order) {names : List String}
    (part : names ⊆ g.order) : ∃ ops, names.mapM g.find = .ok ops := by
  refine exists_mapM_iff.mpr fun name member => ?_
  obtain ⟨op, found⟩ := (ordered_of_sorted sorted).found (part member)
  exact ⟨op, find_eq_ok_iff.mpr found⟩

/-- Counting in a graph that was sorted leaves the notes. -/
theorem counted_of_sorted (sorted : g.sorted = .ok g.order) : g.counted = .ok g.noted := by
  obtain ⟨ops, found⟩ := exists_found sorted (List.reverse_subset.mpr (List.Subset.refl g.order))
  unfold counted
  rw [found]
  rfl

theorem Renumbered.noted {k k' : Nat} (same : g.Renumbered k k' g') :
    g.noted.Renumbered k k' g'.noted := by
  refine same.mapOps fun op op' both => ?_
  have name := Operation.name_of_content both.content
  by_cases listed : op.name ∈ g.order
  · have listed' : op'.name ∈ g'.order := by rwa [name, same.order]
    rw [noteOn_of_mem listed, noteOn_of_mem listed']
    exact same.annotate both
  · have spare : op'.name ∉ g'.order := by rwa [name, same.order]
    rw [noteOn_of_notMem listed, noteOn_of_notMem spare]
    exact both

/-- Counting in what counting gave changes nothing. -/
theorem sameContent_noted {k k' : Nat} (same : g.noted.Renumbered k k' g') :
    g'.SameContent g'.noted := by
  have again := same.noted
  rw [g.noted_noted] at again
  exact same.sameContent.symm.trans again.sameContent

/-! ## Graphs with notes -/

/-- What counting makes of an operation of a graph. One that the order does not list stays as it is.
One that the order lists gets a count for each of its outputs and the note whether it has to be
evaluated at once, which outputs of the graph, constants and inputs of the graph do not. -/
structure CountedAs (g : Graph) (op op' : Operation) : Prop where
  spare : op.name ∉ g.order → op'.content = op.content
  listed : op.name ∈ g.order → ∃ atOnce counts, op.Annotated op' atOnce counts ∧
    (atOnce = false ↔ op.name ∈ g.outputs ∨ op.type = "Const" ∨ op.type = "Placeholder") ∧
    counts.length = op.outputs.length

/-- What counting makes of a graph. -/
structure Annotates (g g' : Graph) : Prop where
  ops : List.Forall₂ g.CountedAs g.ops g'.ops
  order : g'.order = g.order
  outputs : g'.outputs = g.outputs
  backend : g'.backend = g.backend

theorem countedAs_of_noteOn {op op' : Operation} (same : op'.content = (g.noteOn op).content) :
    g.CountedAs op op' where
  spare spare := by rwa [noteOn_of_notMem spare] at same
  listed listed := by
    rw [noteOn_of_mem listed] at same
    exact ⟨_, _, (g.annotated_annotate op).of_content same, g.evaluatesAtOnce_eq_false_iff op,
      List.length_map _⟩

theorem annotates_of_noted {k k' : Nat} (same : g.noted.Renumbered k k' g') : g.Annotates g' := by
  have ops : List.Forall₂ (Operation.Renumbered k k') (g.ops.map g.noteOn) g'.ops := same.ops
  rw [List.forall₂_map_left_iff] at ops
  exact ⟨ops.imp fun _ _ both => countedAs_of_noteOn both.content, same.order, same.outputs,
    same.backend⟩

theorem CountedAs.name_eq {op op' : Operation} (counted : g.CountedAs op op') :
    op'.name = op.name := by
  by_cases listed : op.name ∈ g.order
  · obtain ⟨_, _, annotated, _⟩ := counted.listed listed
    exact annotated.name
  · exact Operation.name_of_content (counted.spare listed)

/-- The operations have the same names in the same arrangement. -/
theorem Annotates.names (annotates : g.Annotates g') :
    g'.ops.map Operation.name = g.ops.map Operation.name :=
  views_of_forall₂ (annotates.ops.imp fun _ _ counted => counted.name_eq)

end Graph

/-! ## Counting in a workspace -/

/-- Counting never prunes, whatever options are given. -/
theorem Pass.configure_refCount {given : Entries String Value} {s : PassStep}
    (configured : Pass.refCount.configure given = .ok s) : s = ⟨.refCount, .bool false⟩ := by
  unfold Pass.configure at configured
  dsimp only at configured
  split at configured
  · cases configured
  · cases configured
    rfl

namespace Workspace

variable {quantizer : Quantizer} {w w' : Workspace} {id id' : GraphId}

/-- Counting in a graph that is in order and can be copied adds the graph with its notes, under new
numbers. -/
theorem runStep_refCount [Importer] (quantizer : Quantizer) (accepted : (w.graph id).Accepted)
    (sorted : (w.graph id).sorted = .ok (w.graph id).order) :
    ∃ g', w.runStep quantizer id ⟨.refCount, .bool false⟩ =
        ((w.add g').reserve w.next, .ok w.nextGraph) ∧
      (w.graph id).noted.Renumbered w.next 0 g' := by
  obtain ⟨c, copied, same⟩ := accepted.exists_copy w.next w.nextGraph
  have inOrder : c.sorted = .ok c.order := by
    rw [Graph.sorted_congr same.outputs fun name _ => same.sameAt name, sorted, same.order]
  have made : ((w.add c.noted).reserve w.next).graph w.nextGraph = c.noted := by
    rw [graph_reserve, graph_add]
  have settled : ((w.add c.noted).reserve w.next).sort w.nextGraph =
      ((w.add c.noted).reserve w.next, .ok ()) := by
    refine sort_in_order ?_
    rw [made, c.sorted_noted]
    exact inOrder
  refine ⟨c.noted, ?_, same.noted⟩
  simp only [runStep, apply, countReferences, copied, ok_bind, Graph.counted_of_sorted inOrder,
    settled]
  rfl

/-- Counting references only annotates. In a graph that is in the order that sorting gives, and
whose attributes and sizes are as operations and tensors are made with, it succeeds whatever options
it is given. The result has the operations of the graph in the same arrangement, with the same
types, tensors, order and outputs; an operation that the order does not list is the same, and one
that the order lists differs in its two notes only. No other graph changes, and counting in the
result changes nothing. -/
theorem refCount_only_annotates [Importer] {given : Entries String Value} {s : PassStep}
    (configured : Pass.refCount.configure given = .ok s)
    (sorted : (w.graph id).sorted = .ok (w.graph id).order) (stored : (w.graph id).Stored)
    (shaped : (w.graph id).Shaped) :
    ∃ w' id', w.runStep quantizer id s = (w', .ok id') ∧
      (w'.graph id').ops.map Operation.name = (w.graph id).ops.map Operation.name ∧
      (w.graph id).Annotates (w'.graph id') ∧
      (∀ other, other ≠ id' → w'.graph other = w.graph other) ∧
      ∃ w'' id'', w'.runStep quantizer id' s = (w'', .ok id'') ∧
        (w'.graph id').SameContent (w''.graph id'') := by
  obtain rfl := Pass.configure_refCount configured
  have accepted : (w.graph id).Accepted := Graph.accepted_iff.mpr ⟨stored, shaped⟩
  obtain ⟨g', run, same⟩ := runStep_refCount quantizer accepted sorted
  have here : ((w.add g').reserve w.next).graph w.nextGraph = g' := by
    rw [graph_reserve, graph_add]
  have accepted' : g'.Accepted :=
    same.sameContent.accepted (accepted.counted (Graph.counted_of_sorted sorted))
  have sorted' : g'.sorted = .ok g'.order := by
    rw [Graph.sorted_congr same.outputs fun name _ => same.sameAt name, Graph.sorted_noted, sorted,
      same.order]
    rfl
  have annotates := Graph.annotates_of_noted same
  -- The second run meets the same conditions, and leaves notes that are there already.
  obtain ⟨g'', again, same'⟩ := runStep_refCount (w := (w.add g').reserve w.next) quantizer
    (here.symm ▸ accepted') (here.symm ▸ sorted')
  refine ⟨_, _, run, ?_⟩
  rw [here] at same' ⊢
  refine ⟨annotates.names, annotates, fun other apart => ?_, _, _, again, ?_⟩
  · rw [graph_reserve, graph_add_eq, if_neg apart]
  · rw [graph_reserve, graph_add]
    exact (Graph.sameContent_noted same).trans same'.sameContent

attribute [local instance] Importer.strict

/-- Among operations of which two are spare, the tensor that is read twice is counted twice. Asking
for pruning changes nothing. -/
theorem refCount_only_annotates_spare : ∃ w₁ w' w'' : Workspace,
    spareWorkspace.sort 0 = (w₁, .ok ()) ∧ (w₁.graph 0).Stored ∧ (w₁.graph 0).Shaped ∧
    w₁.runStep (fun h => .ok h.nodes) 0 ⟨.refCount, .bool false⟩ = (w', .ok 1) ∧
    (w₁.graph 0).Annotates (w'.graph 1) ∧
    (w'.graph 1).ops.map (fun op => (op.name, op.attrs)) =
      [("loop", []), ("y", [(evaluateKey, .bool false), (countsKey, .list [.int 0])]),
        ("lost", []), ("x", [(evaluateKey, .bool true), (countsKey, .list [.int 2])])] ∧
    w'.runStep (fun h => .ok h.nodes) 1 ⟨.refCount, .bool false⟩ = (w'', .ok 2) ∧
    (w'.graph 1).SameContent (w''.graph 2) := by
  have built : Workspace.empty.build tensorBackend ["y"] spareOperations false =
      (spareWorkspace, .ok 0) := Prod.ext rfl rfl
  have sorts : spareWorkspace.sort 0 = ((spareWorkspace.sort 0).1, .ok ()) := Prod.ext rfl rfl
  have configured : Pass.refCount.configure [("_utensor_refcnt__prune_graph", .bool true)] =
      .ok ⟨.refCount, .bool false⟩ := rfl
  have run : (spareWorkspace.sort 0).1.runStep (fun h => .ok h.nodes) 0 ⟨.refCount, .bool false⟩ =
      (_, .ok 1) := Prod.ext rfl rfl
  obtain ⟨stored, shaped⟩ := intact_of_build built
  have stored' : ((spareWorkspace.sort 0).1.graph 0).Stored := stored
  have shaped' : ((spareWorkspace.sort 0).1.graph 0).Shaped := shaped
  obtain ⟨w', id', ran, _, annotates, _, w'', id'', again, same⟩ :=
    refCount_only_annotates configured (Graph.sorted_of_sort (graph_of_sort sorts)) stored' shaped'
  cases run.symm.trans ran
  have second : id'' = 2 := by
    have number := congrArg Prod.snd again
    exact (Except.ok.inj number).symm
  subst second
  exact ⟨_, _, w'', sorts, stored', shaped', run, annotates, rfl, again, same⟩

end Workspace

end TensorEmit
