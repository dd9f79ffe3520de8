import TensorEmit.Proofs.Histories
import TensorEmit.Proofs.Meaning
import TensorEmit.Proofs.Renumbering

/-!
# Pruning a sorted graph

A graph that was just sorted is pruned to the operations of its order: `Graph.Searched` states the
search of pruning without a bound on its rounds, `Graph.exists_needed_of_sorted` says that the
search comes to an end and meets the names of the order, and `Graph.Trims` says what is left of the
graph. Sorting what is left, or pruning it again, changes nothing.

Pruning works on a copy, and a copy stores all attributes and checks the sizes of all tensors again.
What is made passes these checks (`Workspace.intact_of_build`), so it has a copy.
-/

namespace TensorEmit

/-! ## Copies of operations as they were made -/

/-- All sizes in a graph are still such that the tensors could be made. -/
def Graph.Shaped (g : Graph) : Prop := ∀ op ∈ g.ops, op.Shaped

instance (g : Graph) : Decidable g.Shaped :=
  inferInstanceAs (Decidable (∀ op ∈ g.ops, op.Shaped))

theorem Operation.shaped_of_content {op op' : Operation} (same : op'.content = op.content)
    (shaped : op.Shaped) : op'.Shaped := by
  have tensors : List.Forall₂ Tensor.SameContent op.tensors op'.tensors :=
    List.rel_append (inputs_of_content same) (outputs_of_content same)
  intro t' member
  obtain ⟨t, inside, both⟩ := exists_left_of_forall₂ tensors member
  exact Tensor.shaped_of_content both (shaped t inside)

theorem Tensor.exists_copy_iff {base : Nat} {owner : GraphId} {t : Tensor} :
    (∃ t', t.copy base owner = .ok t') ↔ checkShape t.shape = .ok () := by
  simp only [Tensor.copy_eq_ok_iff]
  constructor
  · rintro ⟨t', checked, _⟩
    exact checked
  · intro checked
    exact ⟨_, checked, rfl⟩

/-- An operation whose attributes are in stored form has a copy if its tensors have. -/
theorem Operation.exists_copy_iff {base : Nat} {owner : GraphId} {op : Operation}
    (stored : storedAttrs op.attrs = .ok op.attrs) :
    (∃ op', op.copy base owner = .ok op') ↔ op.Shaped := by
  unfold Operation.copy Shaped Operation.tensors
  simp only [bind_eq_ok_iff, pure_eq_ok_iff]
  constructor
  · rintro ⟨op', inputs, ins, outputs, outs, _⟩ t member
    rcases List.mem_append.mp member with input | output
    · exact Tensor.exists_copy_iff.mp (exists_mapM_iff.mp ⟨inputs, ins⟩ t input)
    · exact Tensor.exists_copy_iff.mp (exists_mapM_iff.mp ⟨outputs, outs⟩ t output)
  · intro shaped
    obtain ⟨inputs, ins⟩ := exists_mapM_iff.mpr fun t input =>
      (@Tensor.exists_copy_iff base owner t).mpr (shaped t (List.mem_append_left _ input))
    obtain ⟨outputs, outs⟩ := exists_mapM_iff.mpr fun t output =>
      (@Tensor.exists_copy_iff base owner t).mpr (shaped t (List.mem_append_right _ output))
    exact ⟨_, inputs, ins, outputs, outs, op.attrs, stored, rfl⟩

theorem Operation.renumbered_of_copy {base : Nat} {owner : GraphId} {op op' : Operation}
    (stored : storedAttrs op.attrs = .ok op.attrs) (run : op.copy base owner = .ok op') :
    op.Renumbered base 0 op' := by
  have copied := copiedInto_of_copy run
  have alike := copied.alike
  refine ⟨?_, content_of_parts alike.name alike.type (forall₂_of_views alike.inputs)
    (forall₂_of_views alike.outputs) (alike.attrs_eq stored)⟩
  rw [copied.id]
  exact Nat.add_comm op.id base

namespace Graph

variable {g g' : Graph}

theorem exists_copy_iff {base : Nat} {id : GraphId} (stored : g.Stored) :
    (∃ c, g.copy base id = .ok c) ↔ g.Shaped := by
  unfold Shaped
  simp only [copy_eq_ok_iff]
  constructor
  · rintro ⟨c, ops, copies, _⟩ op member
    exact (Operation.exists_copy_iff (stored op member)).mp
      (exists_mapM_iff.mp ⟨ops, copies⟩ op member)
  · intro shaped
    obtain ⟨ops, copies⟩ := exists_mapM_iff.mpr fun op member =>
      (@Operation.exists_copy_iff base id op (stored op member)).mpr (shaped op member)
    exact ⟨_, ops, copies, rfl⟩

theorem renumbered_of_copy {base : Nat} {id : GraphId} (stored : g.Stored)
    (run : g.copy base id = .ok g') : g.Renumbered base 0 g' := by
  obtain ⟨ops, copies, rfl⟩ := copy_eq_ok_iff.mp run
  obtain ⟨ops', copies', related⟩ := exists_mapM_related (R := Operation.Renumbered base 0)
    fun op member => by
      obtain ⟨op', _, made⟩ := exists_result_of_mem copies member
      exact ⟨op', made, Operation.renumbered_of_copy (stored op member) made⟩
  cases copies.symm.trans copies'
  exact ⟨related, rfl, rfl, rfl⟩

/-! ## The search -/

/-- What the search of pruning meets, without a bound on its rounds. -/
inductive Searched (g : Graph) : (waiting met result : List String) → Prop
  | done (met : List String) : Searched g [] met met
  | round {name : String} {waiting met names result : List String} {op : Operation}
      (found : g.find? name = some op) (producers : op.inputNames = .ok names)
      (later : Searched g (waiting ++ names.filter fun n => n ∉ met)
        (met ++ names.filter fun n => n ∉ met) result) :
      Searched g (name :: waiting) met result

/-- A search among names that all have operations comes to an end. Every round takes a name off the
waiting list, and puts one on it for each input only that is then no longer unmet. -/
theorem exists_searched {P : String → Prop}
    (closed : ∀ n, P n → ∃ op names, g.find? n = some op ∧ op.inputNames = .ok names ∧
      ∀ m ∈ names, P m)
    {fuel : Nat} {waiting met : List String} (enough : waiting.length + g.unmet met ≤ fuel)
    (holds : ∀ n ∈ waiting, P n) :
    ∃ result, g.meet fuel waiting met = .ok result ∧ g.Searched waiting met result := by
  induction fuel generalizing waiting met with
  | zero =>
    cases waiting with
    | nil => exact ⟨met, rfl, .done met⟩
    | cons _ _ => simp at enough
  | succ fuel ih =>
    cases waiting with
    | nil => exact ⟨met, rfl, .done met⟩
    | cons name waiting =>
      obtain ⟨op, names, found, producers, inside⟩ := closed name (holds name (by simp))
      have shrinks := unmet_append met (mem_of_find? found) producers
      have enough' : (waiting ++ names.filter fun n => n ∉ met).length +
          g.unmet (met ++ names.filter fun n => n ∉ met) ≤ fuel := by
        simp only [List.length_append, List.length_cons] at enough ⊢
        omega
      have holds' : ∀ n ∈ waiting ++ names.filter fun n => n ∉ met, P n := by
        intro n waits
        rcases List.mem_append.mp waits with before | listed
        · exact holds n (by simp [before])
        · exact inside n (List.mem_of_mem_filter listed)
      obtain ⟨result, run, later⟩ := ih enough' holds'
      refine ⟨result, ?_, .round found producers later⟩
      rw [meet, find_eq_ok_iff.mpr found, ok_bind, producers, ok_bind]
      exact run

/-- The search in a graph that was just sorted comes to an end and meets the names of the order. -/
theorem exists_needed_of_sorted {order : List String} (sorted : g.sorted = .ok order) :
    ∃ met, g.needed = .ok (g.outputs ++ met) ∧ g.Searched g.outputs [] met ∧
      ∀ n, n ∈ g.outputs ++ met ↔ n ∈ order := by
  have ordered := ordered_of_sorted sorted
  have closed : ∀ n, n ∈ order → ∃ op names, g.find? n = some op ∧ op.inputNames = .ok names ∧
      ∀ m ∈ names, m ∈ order := by
    intro n listed
    obtain ⟨op, found⟩ := ordered.found listed
    obtain ⟨names, producers⟩ : ∃ names, op.inputNames = .ok names :=
      exists_mapM_iff.mpr fun t read => ordered.producer listed found read
    refine ⟨op, names, found, producers, fun m member => ?_⟩
    exact ordered.needs listed ⟨op, found, (mem_inputNames_iff producers m).mp member⟩
  have outputs : ∀ n ∈ g.outputs, n ∈ order := fun n output =>
    (mem_sorted_iff sorted n).mpr (.output output)
  have search : ∃ met, g.meet g.meetBound g.outputs [] = .ok met ∧ g.Searched g.outputs [] met :=
    exists_searched closed g.unmet_le_meetBound outputs
  obtain ⟨met, run, searched⟩ := search
  have needed : g.needed = .ok (g.outputs ++ met) := by
    unfold Graph.needed
    rw [run]
    rfl
  refine ⟨met, needed, searched, fun n => ?_⟩
  rw [mem_needed_iff needed, mem_sorted_iff sorted]

/-! ## What is left -/

/-- A graph that has the operations of the order of another one, with other numbers, and nothing
else. -/
structure Trims (g g' : Graph) : Prop where
  ops : g'.ops.map Operation.content =
    (g.ops.filter fun op => op.name ∈ g.order).map Operation.content
  order : g'.order = g.order
  outputs : g'.outputs = g.outputs
  backend : g'.backend = g.backend

theorem sorted_of_sort (run : g.sort = .ok g') : g'.sorted = .ok g'.order := by
  obtain ⟨names, sorted, rfl⟩ := sort_eq_ok_iff.mp run
  rw [← sorted]
  exact sorted_congr rfl fun _ _ => rfl

/-- What was just sorted is pruned to the operations of its order, and has the same order then. -/
theorem exists_pruned_of_sorted (sorted : g.sorted = .ok g.order) :
    ∃ h, g.pruned = .ok h ∧ h = { g with ops := g.ops.filter fun op => op.name ∈ g.order } ∧
      h.sorted = .ok g.order := by
  obtain ⟨met, needed, _, listed⟩ := exists_needed_of_sorted sorted
  have kept : (g.ops.filter fun op => op.name ∈ g.outputs ++ met) =
      g.ops.filter fun op => op.name ∈ g.order := by
    refine List.filter_congr fun op _ => ?_
    rw [decide_eq_decide]
    exact listed op.name
  have run : g.pruned = .ok { g with ops := g.ops.filter fun op => op.name ∈ g.order } :=
    pruned_eq_ok_iff.mpr ⟨_, needed, by rw [kept]⟩
  refine ⟨_, run, rfl, ?_⟩
  rw [← sorted]
  refine sorted_congr rfl fun name reached => ?_
  unfold SameAt
  rw [find?_pruned run reached]

/-- A copy of what was just sorted is pruned to the operations of the order. -/
theorem trims_of_copy {base : Nat} {id : GraphId} {c : Graph} (sorted : g.sorted = .ok g.order)
    (stored : g.Stored) (copy : g.copy base id = .ok c) :
    ∃ g', c.pruned = .ok g' ∧ g.Trims g' ∧ g'.sorted = .ok g'.order := by
  have renumbered := renumbered_of_copy stored copy
  obtain ⟨h, run, rfl, sorted'⟩ := exists_pruned_of_sorted sorted
  have both := renumbered.pruned
  rw [run] at both
  generalize c.pruned = pruned at both
  cases both with
  | ok same =>
    refine ⟨_, rfl, ⟨?_, same.order, same.outputs, same.backend⟩, ?_⟩
    · exact views_of_forall₂ (same.ops.imp fun _ _ each => each.content)
    · rw [sorted_congr same.outputs fun name _ => same.sameAt name, sorted', same.order]

namespace Trims

theorem names (trims : g.Trims g') :
    g'.ops.map Operation.name = (g.ops.filter fun op => op.name ∈ g.order).map Operation.name := by
  have names := congrArg (List.map Operation.name) trims.ops
  rw [List.map_map, List.map_map] at names
  exact names

/-- The names of what is left are those of the order. -/
theorem mem_names_iff (trims : g.Trims g') (ordered : g.Ordered g.order) (n : String) :
    n ∈ g'.ops.map Operation.name ↔ n ∈ g.order := by
  rw [trims.names, List.mem_map]
  constructor
  · rintro ⟨op, kept, rfl⟩
    simpa using (List.mem_filter.mp kept).2
  · intro listed
    obtain ⟨op, found⟩ := ordered.found listed
    have name := find?_name found
    refine ⟨op, List.mem_filter.mpr ⟨mem_of_find? found, ?_⟩, name⟩
    rw [name]
    exact decide_eq_true listed

theorem exists_content (trims : g.Trims g') {op' : Operation} (member : op' ∈ g'.ops) :
    ∃ op ∈ g.ops, op'.content = op.content := by
  obtain ⟨op, kept, same⟩ := exists_left_of_forall₂ (forall₂_of_views trims.ops) member
  exact ⟨op, List.mem_of_mem_filter kept, same⟩

theorem shaped (trims : g.Trims g') (shaped : g.Shaped) : g'.Shaped := by
  intro op' member
  obtain ⟨op, inside, same⟩ := trims.exists_content member
  exact Operation.shaped_of_content same (shaped op inside)

theorem stored (trims : g.Trims g') (stored : g.Stored) : g'.Stored := by
  intro op' member
  obtain ⟨op, inside, same⟩ := trims.exists_content member
  rw [Operation.attrs_of_content same]
  exact stored op inside

/-- What is left of what was left is all of it. -/
theorem again {g'' : Graph} (first : g.Trims g') (second : g'.Trims g'')
    (ordered : g.Ordered g.order) :
    g''.ops.map Operation.content = g'.ops.map Operation.content := by
  have all : ∀ op ∈ g'.ops, decide (op.name ∈ g'.order) = true := by
    intro op member
    rw [first.order]
    exact decide_eq_true ((first.mem_names_iff ordered op.name).mp (List.mem_map_of_mem member))
  rw [second.ops, List.filter_eq_self.mpr all]

end Trims

end Graph

/-! ## Pruning in a workspace -/

namespace Workspace

theorem set_graph (w : Workspace) (id : GraphId) : w.set id (w.graph id) = w := by
  unfold Workspace.set Workspace.graph
  rw [List.getD_eq_getElem?_getD]
  cases found : w.graphs[id]? with
  | none =>
    rw [List.set_eq_of_length_le (List.getElem?_eq_none_iff.mp found)]
  | some g =>
    obtain ⟨inside, here⟩ := List.getElem?_eq_some_iff.mp found
    subst here
    rw [Option.getD_some, List.set_getElem_self]

/-- Sorting a graph that is in the order that sorting gives changes nothing. -/
theorem sort_in_order {w : Workspace} {id : GraphId}
    (sorted : (w.graph id).sorted = .ok (w.graph id).order) : w.sort id = (w, .ok ()) := by
  have same : (w.graph id).sort = .ok (w.graph id) := Graph.sort_eq_ok_iff.mpr ⟨_, sorted, rfl⟩
  rw [(sort_of_sorted same).1, set_graph]

theorem exists_prune {w : Workspace} {id : GraphId} {c g : Graph}
    (copied : (w.graph id).copy w.next w.nextGraph = .ok c) (pruned : c.pruned = .ok g) :
    ∃ w' id', w.prune id = (w', .ok id') ∧ w'.graph id' = g := by
  unfold Workspace.prune
  rw [copied, ok_bind, pruned]
  refine ⟨_, _, rfl, ?_⟩
  rw [graph_reserve, graph_add]

theorem copied_of_prune {w w' : Workspace} {id id' : GraphId}
    (run : w.prune id = (w', .ok id')) :
    ∃ c, (w.graph id).copy w.next id' = .ok c ∧ c.pruned = .ok (w'.graph id') := by
  obtain ⟨rfl, _, made⟩ := graph_adding run
  exact bind_eq_ok_iff.mp made

/-- Pruning agrees with sorting. In a graph that was just sorted, and whose attributes and sizes are
as operations and tensors are made with, the search of pruning comes to an end and meets the names
of the order. Pruning succeeds and leaves the operations of the order, in their old arrangement and
with all that they had; sorting what is left changes nothing, and pruning it again takes nothing
away. -/
theorem prune_agrees_with_sort {w w₁ : Workspace} {id : GraphId} {u : Unit}
    (sorted : w.sort id = (w₁, .ok u)) (stored : (w₁.graph id).Stored)
    (shaped : (w₁.graph id).Shaped) :
    (∃ met, (w₁.graph id).Searched (w₁.graph id).outputs [] met ∧
      ∀ n, n ∈ (w₁.graph id).outputs ++ met ↔ n ∈ (w₁.graph id).order) ∧
    ∃ w₂ id₂, w₁.prune id = (w₂, .ok id₂) ∧
      (w₁.graph id).Trims (w₂.graph id₂) ∧
      (∀ n, n ∈ (w₂.graph id₂).ops.map Operation.name ↔ n ∈ (w₁.graph id).order) ∧
      w₂.sort id₂ = (w₂, .ok ()) ∧
      ∃ w₃ id₃, w₂.prune id₂ = (w₃, .ok id₃) ∧ (w₂.graph id₂).Trims (w₃.graph id₃) ∧
        (w₃.graph id₃).ops.map Operation.content = (w₂.graph id₂).ops.map Operation.content := by
  have order := Graph.sorted_of_sort (graph_of_sort sorted)
  have ordered := Graph.ordered_of_sorted order
  constructor
  · obtain ⟨met, _, searched, listed⟩ := Graph.exists_needed_of_sorted order
    exact ⟨met, searched, listed⟩
  · obtain ⟨c, copied⟩ := (Graph.exists_copy_iff stored).mpr shaped
    obtain ⟨g', pruned, trims, order'⟩ := Graph.trims_of_copy order stored copied
    obtain ⟨w₂, id₂, run, rfl⟩ := exists_prune copied pruned
    refine ⟨w₂, id₂, run, trims, trims.mem_names_iff ordered, sort_in_order order', ?_⟩
    have stored' := trims.stored stored
    obtain ⟨c', copied'⟩ := (Graph.exists_copy_iff stored').mpr (trims.shaped shaped)
    obtain ⟨g'', pruned', trims', _⟩ := Graph.trims_of_copy order' stored' copied'
    obtain ⟨w₃, id₃, run', rfl⟩ := exists_prune copied' pruned'
    exact ⟨w₃, id₃, run', trims', trims.again trims' ordered⟩

/-! ### Graphs that were built -/

/-- The fields of a tensor are checked when it is made. -/
theorem checkShape_of_make {s : TensorSpec} {number : Nat} {owner : Option GraphId} {t : Tensor}
    (run : s.make number owner = .ok t) : Tensor.checkShape t.shape = .ok () := by
  unfold TensorSpec.make at run
  simp only [bind_eq_ok_iff] at run
  obtain ⟨_, _, _, _, _, _, shape, _, _, checked, made⟩ := run
  cases owner with
  | none => cases made
  | some id =>
    cases made
    exact checked

theorem intact_of_makeOperation {base : Nat} {id : GraphId} {s : OperationSpec} {op : Operation}
    (run : makeOperation base id s = .ok op) :
    storedAttrs op.attrs = .ok op.attrs ∧ op.Shaped := by
  unfold makeOperation at run
  simp only [bind_eq_ok_iff, pure_eq_ok_iff] at run
  obtain ⟨inputs, ins, outputs, outs, _, _, attrs, stored, rfl⟩ := run
  refine ⟨storedAttrs_idempotent stored, fun t member => ?_⟩
  rcases List.mem_append.mp member with input | output
  · obtain ⟨_, _, made⟩ := exists_of_mem_mapM ins input
    exact checkShape_of_make made
  · obtain ⟨_, _, made⟩ := exists_of_mem_mapM outs output
    exact checkShape_of_make made

theorem intact_of_addAllNew {w w' : Workspace} {id : GraphId} {specs : List OperationSpec}
    {u : Unit} (start : ∀ op ∈ (w.graph id).ops, storedAttrs op.attrs = .ok op.attrs ∧ op.Shaped)
    (run : w.addAllNew id specs = (w', .ok u)) :
    ∀ op ∈ (w'.graph id).ops, storedAttrs op.attrs = .ok op.attrs ∧ op.Shaped := by
  refine addAllNew_invariant (P := fun w => ∀ op ∈ (w.graph id).ops,
    storedAttrs op.attrs = .ok op.attrs ∧ op.Shaped) ?_ start run
  intro w s op made intact
  rw [graph_reserve]
  rcases w.graph_set_cases id ((w.graph id).put op) id with new | old
  · rw [new]
    intro op' member
    rcases Graph.mem_put member with rfl | before
    · exact intact_of_makeOperation made
    · exact intact op' before
  · rw [old]
    exact intact

/-- The attributes and sizes of a graph that was built are as pruning wants them. -/
theorem intact_of_build {w w' : Workspace} {backend : String} {outputs : List String}
    {specs : List OperationSpec} {id : GraphId}
    (run : w.build backend outputs specs false = (w', .ok id)) :
    (w'.graph id).Stored ∧ (w'.graph id).Shaped := by
  unfold Workspace.build at run
  dsimp only at run
  split at run
  · cases run
  · rename_i w₁ u added
    cases run
    have all := intact_of_addAllNew (fun op member => ?_) added
    · exact ⟨fun op member => (all op member).1, fun op member => (all op member).2⟩
    · rw [graph_add] at member
      cases member

/-- An addition whose tensors have one element each; an input is given with its producer. -/
def addition (name : String) (inputs : List (String × String)) : OperationSpec :=
  let tensor (name producer : String) : TensorSpec :=
    ⟨.text name, .text producer, .type .float32, .list [.int 1]⟩
  ⟨name, "Add", inputs.map fun e => tensor e.1 e.2, [tensor (name ++ ":0") name], [],
    .text tensorBackend⟩

/-- Operations that double `x`, one that reads itself and one that reads what nothing makes. -/
def spareOperations : List OperationSpec :=
  [addition "loop" [("loop:0", "loop")], addition "y" [("x:0", "x"), ("x:0", "x")],
    addition "lost" [("gone:0", "gone")], addition "x" []]

def spareWorkspace : Workspace :=
  (Workspace.empty.build tensorBackend ["y"] spareOperations false).1

theorem prune_agrees_with_sort_spare : ∃ w₁ w₂ : Workspace,
    spareWorkspace.sort 0 = (w₁, .ok ()) ∧ (w₁.graph 0).Stored ∧ (w₁.graph 0).Shaped ∧
    w₁.prune 0 = (w₂, .ok 1) ∧ (w₁.graph 0).Trims (w₂.graph 1) ∧
    (w₁.graph 0).order = ["x", "y"] ∧ (w₂.graph 1).ops.map Operation.name = ["y", "x"] ∧
    w₂.sort 1 = (w₂, .ok ()) := by
  have built : Workspace.empty.build tensorBackend ["y"] spareOperations false =
      (spareWorkspace, .ok 0) := Prod.ext rfl rfl
  have sorted : spareWorkspace.sort 0 = ((spareWorkspace.sort 0).1, .ok ()) := Prod.ext rfl rfl
  have pruned : (spareWorkspace.sort 0).1.prune 0 =
      (((spareWorkspace.sort 0).1.prune 0).1, .ok 1) := Prod.ext rfl rfl
  -- Sorting keeps the operations, and so all that was checked when they were made.
  obtain ⟨stored, shaped⟩ := intact_of_build built
  obtain ⟨_, w₂, id₂, run, trims, _, same, _⟩ := prune_agrees_with_sort sorted stored shaped
  cases pruned.symm.trans run
  exact ⟨_, _, sorted, stored, shaped, pruned, trims, rfl, rfl, same⟩

end Workspace

end TensorEmit
