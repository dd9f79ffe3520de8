import TensorEmit.Graph.View
import TensorEmit.Proofs.Importing
import TensorEmit.Proofs.SortedPruning

/-!
# The two ends of an edge

A tensor names its producer twice: in a field of its own, by which operations find their neighbours,
and at the front of its name, by which graphs are sorted, pruned and rid of dropout.
`Graph.NamesProducers` says that the two agree. Passes keep the agreement, and in a graph that is in
order it makes all edges whole: no operation misses a producer, and an operation is among the
producers of another one exactly if that one is among its consumers (`Workspace.WholeEdges`).

An operation looks for its neighbours in the graph that owns it. Passes that make a new graph make
it the owner of all its operations. Inlining constants changes a graph in place, so unless the graph
is pruned, an operation that was taken over from another graph goes on looking there.
-/

namespace TensorEmit

/-! ## Names of producers -/

/-- A tensor names its producer as its own name does. -/
def Tensor.NamesProducer (t : Tensor) : Prop := TensorName.producer t.name = .ok t.producer

instance (t : Tensor) : Decidable t.NamesProducer :=
  inferInstanceAs (Decidable (TensorName.producer t.name = .ok t.producer))

theorem Tensor.namesProducer_of_content {t t' : Tensor} (same : t'.content = t.content)
    (named : t.NamesProducer) : t'.NamesProducer := by
  have producers : t'.producer = t.producer := by
    have producers := congrArg Tensor.producer same
    exact producers
  unfold NamesProducer
  rw [name_of_content same, producers]
  exact named

/-- All tensors of an operation name their producers. -/
def Operation.NamesProducers (op : Operation) : Prop := ∀ t ∈ op.tensors, t.NamesProducer

instance (op : Operation) : Decidable op.NamesProducers :=
  inferInstanceAs (Decidable (∀ t ∈ op.tensors, t.NamesProducer))

theorem Operation.NamesProducers.of_alike {op op' : Operation} (named : op.NamesProducers)
    (alike : op.Alike op') : op'.NamesProducers :=
  alike.forall_tensors Tensor.namesProducer_of_content named

theorem Operation.mem_producers_iff {op : Operation} {p : String} :
    p ∈ op.producers ↔ ∃ t ∈ op.inputs, t.producer = p := by
  unfold Operation.producers
  rw [List.mem_eraseDups, List.mem_map]

/-- What is left after erasing repetitions does not repeat. -/
theorem nodup_eraseDups (xs : List String) : xs.eraseDups.Nodup := by
  induction h : xs.length using Nat.strongRecOn generalizing xs with
  | _ n ih =>
    cases xs with
    | nil => exact List.nodup_nil
    | cons x xs =>
      rw [List.eraseDups_cons, List.nodup_cons, List.mem_eraseDups, List.mem_filter]
      have shorter : (xs.filter fun y => !y == x).length < n := by
        have bound := List.length_filter_le (fun y => !y == x) xs
        rw [← h, List.length_cons]
        omega
      exact ⟨by simp, ih _ shorter _ rfl⟩

namespace Graph

/-- All tensors in a graph name their producers. -/
def NamesProducers (g : Graph) : Prop := ∀ op ∈ g.ops, op.NamesProducers

instance (g : Graph) : Decidable g.NamesProducers :=
  inferInstanceAs (Decidable (∀ op ∈ g.ops, op.NamesProducers))

theorem namesProducers_of_applied [Importer] {quantizer : Quantizer} {pass : Pass} {g g' : Graph}
    (applied : g.Applied quantizer pass g')
    (known : pass = .dropout ∨ pass = .inline ∨ pass = .refCount) (named : g.NamesProducers) :
    g'.NamesProducers := by
  intro op' member
  cases applied with
  | refCount copied counted =>
    rw [eq_of_counted counted] at member
    obtain ⟨c, inside, rfl⟩ := List.mem_map.mp member
    obtain ⟨op, inside', alike⟩ := exists_left_of_forall₂ copied.ops inside
    have kept := (named op inside').of_alike alike
    split
    · exact kept
    · exact kept
  | dropout removed =>
    exact forall_tensors_of_dropoutRemoved Tensor.namesProducer_of_content named removed op' member
  | quantize _ _ _ => simp at known
  | inline retyped =>
    obtain ⟨type, _, rfl⟩ := retyped
    obtain ⟨op, inside, rfl⟩ := List.mem_map.mp member
    exact named op inside

/-! ## Edges of a graph in order -/

section Ordered

variable {g : Graph}

theorem producer_listed (ordered : g.Ordered g.order) (named : g.NamesProducers) {op : Operation}
    (member : op ∈ g.orderedOps) {p : String} (reads : p ∈ op.producers) : p ∈ g.order := by
  obtain ⟨listed, found⟩ := mem_orderedOps.mp member
  obtain ⟨t, input, rfl⟩ := Operation.mem_producers_iff.mp reads
  have agrees := named op (mem_of_find? found) t (List.mem_append_left _ input)
  exact ordered.needs listed ⟨op, found, t, input, agrees⟩

theorem isDangling_of_ordered (ordered : g.Ordered g.order) (named : g.NamesProducers)
    {op : Operation} (member : op ∈ g.orderedOps) : g.isDangling op = false := by
  unfold isDangling
  rw [List.any_eq_false]
  intro p reads
  obtain ⟨producer, found⟩ := ordered.found (producer_listed ordered named member reads)
  simp [has, found]

/-- Every producer is found under its name. -/
theorem inputNodes_of_ordered (ordered : g.Ordered g.order) (named : g.NamesProducers)
    {op : Operation} (member : op ∈ g.orderedOps) :
    (g.inputNodes op).map (fun found => found.map Operation.name) = op.producers.map some := by
  unfold inputNodes
  rw [List.map_map]
  refine List.map_congr_left fun p reads => ?_
  obtain ⟨producer, found⟩ := ordered.found (producer_listed ordered named member reads)
  rw [Function.comp_apply, found, Option.map_some, find?_name found]

/-- The operations of the order that read a tensor of the named one. -/
def readers (g : Graph) (name : String) : List Operation :=
  g.orderedOps.filter fun op => op.inputs.any fun t => t.producer = name

theorem mem_readers_iff {name : String} {op : Operation} :
    op ∈ g.readers name ↔ op ∈ g.orderedOps ∧ name ∈ op.producers := by
  unfold readers
  rw [List.mem_filter, List.any_eq_true, Operation.mem_producers_iff]
  simp

theorem inOrder_of_ordered {names : List String} (ordered : g.Ordered names) :
    names.mapM g.find = .ok (names.filterMap g.find?) := by
  rw [mapM_eq_ok_iff]
  induction ordered with
  | nil => exact .nil
  | snoc _ _ found _ ih =>
    rw [List.filterMap_append, List.filterMap_cons_some found, List.filterMap_nil]
    exact List.rel_append ih (.cons (find_eq_ok_iff.mpr found) .nil)

theorem consumers_of_ordered (ordered : g.Ordered g.order) (name : String) :
    g.consumers name = .ok ((g.readers name).map Operation.name).eraseDups := by
  unfold consumers inOrder
  rw [inOrder_of_ordered ordered]
  rfl

/-- Operations of the order that have the same name are the same. -/
theorem eq_of_name {op op' : Operation} (member : op ∈ g.orderedOps) (member' : op' ∈ g.orderedOps)
    (same : op'.name = op.name) : op' = op := by
  have found := (mem_orderedOps.mp member).2
  have found' := (mem_orderedOps.mp member').2
  rw [same, found] at found'
  exact (Option.some.inj found').symm

theorem mem_consumers_iff {name : String} {op : Operation} (member : op ∈ g.orderedOps) :
    op.name ∈ ((g.readers name).map Operation.name).eraseDups ↔ name ∈ op.producers := by
  rw [List.mem_eraseDups, List.mem_map]
  constructor
  · rintro ⟨reader, reads, same⟩
    obtain ⟨member', producer⟩ := mem_readers_iff.mp reads
    cases eq_of_name member member' same
    exact producer
  · intro producer
    exact ⟨op, mem_readers_iff.mpr ⟨member, producer⟩, rfl⟩

/-- The consumers are found under their names. -/
theorem find_consumers (names : List String) (inside : ∀ n ∈ names, ∃ op, g.find? n = some op) :
    (names.mapM fun n => (g.find n).map Operation.name) = .ok names := by
  rw [mapM_eq_ok_iff, List.forall₂_same]
  intro n listed
  obtain ⟨op, found⟩ := inside n listed
  rw [find_eq_ok_iff.mpr found, ← find?_name found]
  rfl

end Ordered

end Graph

/-! ## Edges in a workspace -/

/-- What the operations of a graph's order see of each other is whole: each belongs to the graph and
finds all producers of its inputs, nothing is listed twice, and one operation lists another one as a
producer exactly if that one lists it as a consumer. -/
structure Workspace.WholeEdges (w : Workspace) (id : GraphId) : Prop where
  own : ∀ op ∈ (w.graph id).orderedOps, (w.viewOperation id op).own = true
  found : ∀ op ∈ (w.graph id).orderedOps, (w.viewOperation id op).dangling = false
  inputs : ∀ op ∈ (w.graph id).orderedOps, (w.viewOperation id op).inputNodes.Nodup
  outputs : ∀ a ∈ (w.graph id).orderedOps, ∃ names,
    (w.viewOperation id a).outputNodes = .ok names ∧ names.Nodup ∧
    ∀ b ∈ (w.graph id).orderedOps,
      some a.name ∈ (w.viewOperation id b).inputNodes ↔ b.name ∈ names

namespace Workspace

variable {w w' : Workspace} {id id' : GraphId}

/-- The edges of a graph in order are whole if its operations are its own. -/
theorem wholeEdges_of_ordered (ordered : (w.graph id).Ordered (w.graph id).order)
    (named : (w.graph id).NamesProducers)
    (owned : ∀ op ∈ (w.graph id).orderedOps, op.owner = id) : w.WholeEdges id := by
  have inputs : ∀ op ∈ (w.graph id).orderedOps,
      (w.viewOperation id op).inputNodes = op.producers.map some := by
    intro op member
    unfold viewOperation
    rw [owned op member]
    exact Graph.inputNodes_of_ordered ordered named member
  refine ⟨?_, ?_, ?_, ?_⟩
  · intro op member
    unfold viewOperation
    exact decide_eq_true (owned op member)
  · intro op member
    unfold viewOperation isDangling
    rw [owned op member]
    exact Graph.isDangling_of_ordered ordered named member
  · intro op member
    rw [inputs op member]
    exact (nodup_eraseDups _).map fun _ _ same => Option.some.inj same
  · intro a member
    refine ⟨(((w.graph id).readers a.name).map Operation.name).eraseDups, ?_, nodup_eraseDups _, ?_⟩
    · unfold viewOperation
      dsimp only
      rw [owned a member, Graph.consumers_of_ordered ordered, ok_bind]
      refine Graph.find_consumers _ fun n listed => ?_
      obtain ⟨op, reads, rfl⟩ := List.mem_map.mp (List.mem_eraseDups.mp listed)
      exact ⟨op, (Graph.mem_orderedOps.mp (Graph.mem_readers_iff.mp reads).1).2⟩
    · intro b member'
      rw [inputs b member', Graph.mem_consumers_iff member']
      simp

end Workspace

/-! ## Owners -/

namespace Graph

variable {g g' : Graph} {base : Nat} {owner : GraphId}

theorem owner_of_copy (run : g.copy base owner = .ok g') : ∀ op ∈ g'.ops, op.owner = owner := by
  intro op' member
  obtain ⟨op, _, copied⟩ := exists_of_mem_copy run member
  exact copied.owner

theorem owner_of_counted (run : g.counted = .ok g') (owned : ∀ op ∈ g.ops, op.owner = owner) :
    ∀ op ∈ g'.ops, op.owner = owner := by
  intro op' member
  rw [eq_of_counted run] at member
  obtain ⟨op, inside, rfl⟩ := List.mem_map.mp member
  split
  · exact owned op inside
  · exact owned op inside

theorem owner_of_dropoutRemoved (run : g.dropoutRemoved base owner = .ok g') :
    ∀ op ∈ g'.ops, op.owner = owner := by
  intro op' member
  obtain ⟨_, op, remade⟩ := exists_remade run member
  exact remade.owner

end Graph

namespace Workspace

variable {w w' : Workspace} {id id' : GraphId} {quantizer : Quantizer}

/-- A pass that makes a new graph makes it the owner of all its operations. -/
theorem owner_of_apply [Importer] {pass : Pass} (run : w.apply quantizer id pass = (w', .ok id'))
    (fresh : pass = .dropout ∨ pass = .refCount) : ∀ op ∈ (w'.graph id').ops, op.owner = id' := by
  rcases fresh with rfl | rfl
  · obtain ⟨rfl, _, removed⟩ := graph_adding run
    exact Graph.owner_of_dropoutRemoved removed
  · obtain ⟨rfl, _, made⟩ := graph_adding run
    obtain ⟨c, copied, counts⟩ := bind_eq_ok_iff.mp made
    exact Graph.owner_of_counted counts (Graph.owner_of_copy copied)

/-- Inlining constants changes the types of operations of the graph itself. -/
theorem retyped_of_inline [Importer] (run : w.apply quantizer id .inline = (w', .ok id')) :
    id' = id ∧ (w.graph id).Retyped (w'.graph id') := by
  have retyped := w.retyped_of_inlineAll id (w.graph id).order id
  simp only [apply, inlineConstants] at run
  cases ran : w.inlineAll id (w.graph id).order with
  | mk w₁ r =>
    rw [ran] at run retyped
    simp only [Prod.mk.injEq, map_eq_ok_iff] at run
    obtain ⟨rfl, _, _, rfl⟩ := run
    exact ⟨rfl, retyped⟩

/-- Before a step prunes, the needed operations of its graph are the graph's own, unless the step
has changed a graph in place that held operations of others. -/
theorem owner_of_sorted [Importer] {pass : Pass}
    (applied : w.apply quantizer id pass = (w', .ok id'))
    (known : pass = .dropout ∨ pass = .inline ∨ pass = .refCount)
    (owned : pass = .inline →
      ∀ op ∈ (w.graph id).ops, (w.graph id).Reachable op.name → op.owner = id) :
    ∀ op ∈ (w'.graph id').ops, (w'.graph id').Reachable op.name → op.owner = id' := by
  rcases known with isDropout | rfl | isCount
  · exact fun op member _ => owner_of_apply applied (.inl isDropout) op member
  · obtain ⟨rfl, retyped⟩ := retyped_of_inline applied
    have reachable := Graph.reachable_congr retyped.wires retyped.outputs
    obtain ⟨type, _, same⟩ := retyped
    intro op' member reached
    rw [same] at member
    obtain ⟨op, inside, rfl⟩ := List.mem_map.mp member
    exact owned rfl op inside ((reachable op.name).mp reached)
  · exact fun op member _ => owner_of_apply applied (.inr isCount) op member

theorem owner_of_runStep [Importer] {s : PassStep} (run : w.runStep quantizer id s = (w', .ok id'))
    (pass : s.pass = .dropout ∨ s.pass = .inline ∨ s.pass = .refCount)
    (owned : s.pass = .inline → s.prune.truth? = some false →
      ∀ op ∈ (w.graph id).ops, (w.graph id).Reachable op.name → op.owner = id) :
    ∀ op ∈ (w'.graph id').orderedOps, op.owner = id' := by
  intro op member
  obtain ⟨listed, found⟩ := Graph.mem_orderedOps.mp member
  have inside := Graph.mem_of_find? found
  cases outcome_of_runStep run with
  | sorted applied sorts keep =>
    obtain ⟨names, order, made⟩ := Graph.sort_eq_ok_iff.mp (graph_of_sort sorts)
    rw [← made] at inside listed
    exact owner_of_sorted applied pass (fun isInline => owned isInline keep) op inside
      ((Graph.mem_sorted_iff order op.name).mp listed)
  | pruned _ _ _ made =>
    obtain ⟨c, copied, pruned⟩ := copied_of_prune made
    have kept := ((Graph.mem_pruned_iff pruned op).mp inside).1
    exact Graph.owner_of_copy copied op kept

/-- A step keeps the agreement of names. -/
theorem namesProducers_of_runStep [Importer] {s : PassStep}
    (run : w.runStep quantizer id s = (w', .ok id'))
    (pass : s.pass = .dropout ∨ s.pass = .inline ∨ s.pass = .refCount)
    (named : (w.graph id).NamesProducers) : (w'.graph id').NamesProducers := by
  obtain ⟨g, applied, settled⟩ := step_of_runStep run
  have kept : g.NamesProducers := Graph.namesProducers_of_applied applied pass named
  intro op' member
  obtain ⟨op, inside, alike⟩ := settled.exists_alike member
  exact (kept op inside).of_alike alike

/-- Removing dropout, inlining constants and counting references, with and without pruning, keep the
names of producers in agreement and leave whole edges. Inlining without pruning does so if the
operations that are needed are the graph's own. -/
theorem wholeEdges_of_runStep [Importer] {s : PassStep}
    (run : w.runStep quantizer id s = (w', .ok id'))
    (pass : s.pass = .dropout ∨ s.pass = .inline ∨ s.pass = .refCount)
    (named : (w.graph id).NamesProducers)
    (owned : s.pass = .inline → s.prune.truth? = some false →
      ∀ op ∈ (w.graph id).ops, (w.graph id).Reachable op.name → op.owner = id) :
    (w'.graph id').NamesProducers ∧ w'.WholeEdges id' := by
  obtain ⟨g, _, settled⟩ := step_of_runStep run
  have named' := namesProducers_of_runStep run pass named
  exact ⟨named', wholeEdges_of_ordered settled.ordered named' (owner_of_runStep run pass owned)⟩

attribute [local instance] Importer.strict

theorem wholeEdges_of_runStep_maskedSum : ∃ w' w'' : Workspace,
    (maskedSumWorkspace.graph 0).NamesProducers ∧
    maskedSumWorkspace.runStep (fun h => .ok h.nodes) 0 ⟨.dropout, .bool false⟩ = (w', .ok 1) ∧
    (w'.graph 1).NamesProducers ∧ w'.WholeEdges 1 ∧ (w'.graph 1).order = ["x", "y"] ∧
    (w'.view 1).map OperationView.inputNodes = [[], [], [some "x"]] ∧
    maskedSumWorkspace.runStep (fun h => .ok h.nodes) 0 ⟨.inline, .bool false⟩ = (w'', .ok 0) ∧
    (w''.graph 0).NamesProducers ∧ w''.WholeEdges 0 := by
  have named : (maskedSumWorkspace.graph 0).NamesProducers := by decide
  have removed : maskedSumWorkspace.runStep (fun h => .ok h.nodes) 0 ⟨.dropout, .bool false⟩ =
      ((maskedSumWorkspace.runStep (fun h => .ok h.nodes) 0 ⟨.dropout, .bool false⟩).1, .ok 1) :=
    Prod.ext rfl rfl
  have inlined : maskedSumWorkspace.runStep (fun h => .ok h.nodes) 0 ⟨.inline, .bool false⟩ =
      ((maskedSumWorkspace.runStep (fun h => .ok h.nodes) 0 ⟨.inline, .bool false⟩).1, .ok 0) :=
    Prod.ext rfl rfl
  have notInline : Pass.dropout = .inline → False := by decide
  have owners : ∀ op ∈ (maskedSumWorkspace.graph 0).ops, op.owner = 0 := by decide
  obtain ⟨named', whole'⟩ :=
    wholeEdges_of_runStep removed (.inl rfl) named fun isInline => (notInline isInline).elim
  obtain ⟨named'', whole''⟩ :=
    wholeEdges_of_runStep inlined (.inr (.inl rfl)) named fun _ _ op member _ => owners op member
  exact ⟨_, _, named, removed, named', whole', rfl, rfl, inlined, named'', whole''⟩

/-- A workspace with a graph that has taken `y` over from another one, where the producer of `y` was
then dropped. -/
def foreignWorkspace : Workspace :=
  let first := (Workspace.empty.build tensorBackend ["y"]
    [addition "x" [], addition "y" [("x:0", "x")]] true).1
  let second := (first.build tensorBackend ["y"] [addition "x" []] false).1
  let shared := ((first.graph 0).find? "y").elim second fun op => (second.addShared 1 op).1
  (shared.dropOperation 0 "x").1

theorem inlined_foreign_is_dangling : ∃ (w' : Workspace) (y : Operation),
    foreignWorkspace.runStep (fun h => .ok h.nodes) 1 ⟨.inline, .bool false⟩ = (w', .ok 1) ∧
    (foreignWorkspace.graph 1).NamesProducers ∧
    (w'.graph 1).order = ["x", "y"] ∧ (w'.graph 1).find? "y" = some y ∧
    (w'.viewOperation 1 y).inputNodes = [none] ∧ (w'.viewOperation 1 y).dangling = true :=
  ⟨_, _, Prod.ext rfl rfl, by decide, rfl, rfl, rfl, rfl⟩

end Workspace

end TensorEmit
