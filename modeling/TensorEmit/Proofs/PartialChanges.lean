import TensorEmit.Proofs.Importing
import TensorEmit.Proofs.InPlace

/-!
# Changes that fail halfway

To take an operation out of a graph is to change its operations and then its order; to add one is to
change its operations and then to sort it. The second part can fail when the first is done.
`Workspace.DropOutcome` and `Workspace.AddOutcome` say all that the two changes can come to, and
each of them has one case in which a failed change leaves something behind:

* an operation that the order does not list is lost to the graph although the drop fails
  (`Workspace.drop_error`);
* an operation stays in the graph although the graph with it cannot be sorted
  (`Workspace.add_error`).

The second case needs a graph that could not be sorted before either: an operation of a new name is
not needed by the outputs of a sortable graph. `Workspace.Untorn` says how workspaces come about in
which all graphs are sortable, namely if no drop takes out what the outputs of a graph need.
-/

namespace TensorEmit

namespace Graph

/-! ## One graph -/

/-- A graph without the operation of a name; all else is as it was. -/
structure Loses (g : Graph) (name : String) (g' : Graph) : Prop where
  ops : g'.ops = g.ops.filter fun op => op.name ≠ name
  order : g'.order = g.order.filter fun n => n ≠ name
  outputs : g'.outputs = g.outputs
  backend : g'.backend = g.backend

theorem loses_dropped {g : Graph} (nodup : g.order.Nodup) (name : String) :
    g.Loses name (g.dropped name) :=
  ⟨rfl, order_dropped nodup name, rfl, rfl⟩

theorem Loses.has {g g' : Graph} {name : String} (loses : g.Loses name g') :
    g'.has name = false := by
  rw [Bool.eq_false_iff]
  intro known
  rw [has_iff_mem_names, loses.ops] at known
  obtain ⟨op, kept, same⟩ := List.mem_map.mp known
  have other := (List.mem_filter.mp kept).2
  simp [same] at other

theorem Loses.order_of_unlisted {g g' : Graph} {name : String} (loses : g.Loses name g')
    (unlisted : name ∉ g.order) : g'.order = g.order := by
  rw [loses.order, List.filter_eq_self]
  intro n listed
  have other : n ≠ name := fun same => unlisted (same ▸ listed)
  simpa using other

/-- A graph with one more operation behind the others. Its order is left open. -/
structure Gains (g : Graph) (op : Operation) (g' : Graph) : Prop where
  ops : g'.ops = g.ops ++ [op]
  outputs : g'.outputs = g.outputs
  backend : g'.backend = g.backend

theorem put_of_fresh {g : Graph} {op : Operation} (fresh : g.has op.name = false) :
    g.put op = { g with ops := g.ops ++ [op] } := by
  unfold put
  rw [if_neg (by simp [fresh])]

theorem Gains.has {g g' : Graph} {op : Operation} (gains : g.Gains op g') :
    g'.has op.name = true := by
  rw [has_iff_mem_names, gains.ops]
  simp

/-- The order lists the names that the outputs need, each once and behind its producers. -/
structure Arranged (g : Graph) : Prop where
  nodup : g.order.Nodup
  listed : ∀ name, name ∈ g.order ↔ g.Reachable name
  behind : ∀ name ∈ g.order, ∀ need, g.Needs name need → g.order.idxOf need < g.order.idxOf name

theorem arranged_of_sorted {g : Graph} (sorted : g.sorted = .ok g.order) : g.Arranged := by
  have ordered := ordered_of_sorted sorted
  refine ⟨ordered.nodup, mem_sorted_iff sorted, fun name listed need needs => ?_⟩
  exact ordered.idxOf_lt listed needs

/-- A graph that has the same operations under all names that the outputs need stays sortable. -/
theorem Sortable.congr {g g' : Graph} (sortable : g.Sortable) (outputs : g'.outputs = g.outputs)
    (same : ∀ name, g.Reachable name → g'.find? name = g.find? name) : g'.Sortable := by
  have sorted : g'.sorted = g.sorted := by
    refine sorted_congr outputs fun name reached => ?_
    unfold SameAt
    rw [same name reached]
  rw [← sorted_ok_iff, sorted, sorted_ok_iff]
  exact sortable

/-- What the outputs of a sortable graph need is there, so an operation of a new name is not among
it. -/
theorem Sortable.put {g : Graph} (sortable : g.Sortable) {op : Operation}
    (fresh : g.has op.name = false) : (g.put op).Sortable := by
  refine sortable.congr (by rw [put_of_fresh fresh]) fun name reached => ?_
  apply find?_put_of_ne fresh
  intro same
  obtain ⟨known, found⟩ := sortable.found name reached
  rw [same] at found
  simp [has, found] at fresh

theorem Sortable.dropped {g : Graph} (sortable : g.Sortable) {gone : String}
    (spare : ¬g.Reachable gone) : (g.dropped gone).Sortable := by
  refine sortable.congr rfl fun name reached => ?_
  apply find?_forget_of_ne
  intro same
  exact spare (same ▸ reached)

theorem sortable_of_sort {g g' : Graph} (run : g.sort = .ok g') : g'.Sortable :=
  sortable_of_sorted (sorted_of_sort run)

end Graph

namespace Workspace

variable {w w' : Workspace} {id : GraphId} {name : String} {op : Operation}

theorem inside_of_has (known : (w.graph id).has name = true) : id < w.nextGraph := by
  by_contra outside
  have empty : w.graph id = Graph.empty := by
    unfold Workspace.graph
    rw [List.getD, List.getElem?_eq_none (Nat.le_of_not_lt outside), Option.getD_none]
  rw [empty] at known
  cases known

/-! ## Taking an operation out -/

/-- What taking an operation out can come to. -/
inductive DropOutcome (w : Workspace) (id : GraphId) (name : String) :
    Workspace × Except Fault Unit → Prop
  | unknown : (w.graph id).has name = false →
      DropOutcome w id name (w, .error (.operationNotFound name))
  | unlisted : (w.graph id).has name = true → name ∉ (w.graph id).order →
      DropOutcome w id name (w.set id ((w.graph id).dropped name), .error .notListed)
  | listed : (w.graph id).has name = true → name ∈ (w.graph id).order →
      DropOutcome w id name (w.set id ((w.graph id).dropped name), .ok ())

theorem outcome_of_drop {x : Workspace × Except Fault Unit} (run : w.dropOperation id name = x) :
    w.DropOutcome id name x := by
  subst run
  unfold dropOperation
  dsimp only
  by_cases known : (w.graph id).has name = true
  · rw [if_pos known]
    by_cases listed : name ∈ (w.graph id).order
    · rw [if_pos listed]
      exact .listed known listed
    · rw [if_neg listed]
      exact .unlisted known listed
  · rw [if_neg known]
    exact .unknown (by simpa using known)

theorem drop_ok_iff : (w.dropOperation id name).2 = .ok () ↔
    (w.graph id).has name = true ∧ name ∈ (w.graph id).order := by
  generalize run : w.dropOperation id name = x
  cases outcome_of_drop run with
  | unknown absent => simp [absent]
  | unlisted _ unlisted => simp [unlisted]
  | listed known listed => simp [known, listed]

/-- A drop touches one graph. -/
theorem graph_drop_of_ne {other : GraphId} (apart : other ≠ id) (name : String) :
    (w.dropOperation id name).1.graph other = w.graph other := by
  generalize run : w.dropOperation id name = x
  cases outcome_of_drop run with
  | unknown _ => rfl
  | unlisted _ _ => exact graph_set_of_ne apart _
  | listed _ _ => exact graph_set_of_ne apart _

theorem drop_ok (nodup : (w.graph id).order.Nodup) {u : Unit}
    (run : w.dropOperation id name = (w', .ok u)) : (w.graph id).Loses name (w'.graph id) := by
  cases outcome_of_drop run with
  | listed known _ =>
    rw [graph_set_self (inside_of_has known)]
    exact Graph.loses_dropped nodup name

/-- What a drop leaves behind when it fails. -/
theorem drop_error (nodup : (w.graph id).order.Nodup) {f : Fault}
    (run : w.dropOperation id name = (w', .error f)) :
    ((w.graph id).has name = false ∧ w' = w ∧ f = .operationNotFound name) ∨
      ((w.graph id).has name = true ∧ name ∉ (w.graph id).order ∧ f = .notListed ∧
        (w.graph id).Loses name (w'.graph id)) := by
  cases outcome_of_drop run with
  | unknown absent => exact .inl ⟨absent, rfl, rfl⟩
  | unlisted known unlisted =>
    refine .inr ⟨known, unlisted, rfl, ?_⟩
    rw [graph_set_self (inside_of_has known)]
    exact Graph.loses_dropped nodup name

theorem ne_of_loses (known : (w.graph id).has name = true)
    (loses : (w.graph id).Loses name (w'.graph id)) : w' ≠ w := by
  intro same
  subst same
  rw [loses.has] at known
  cases known

/-- The drops that fail and yet change something are those of operations outside of the order. -/
theorem drop_fails_changed_iff (nodup : (w.graph id).order.Nodup) :
    (∃ w' f, w.dropOperation id name = (w', .error f) ∧ w' ≠ w) ↔
      (w.graph id).has name = true ∧ name ∉ (w.graph id).order := by
  constructor
  · intro h
    obtain ⟨w', f, run, changed⟩ := h
    rcases drop_error nodup run with ⟨_, same, _⟩ | ⟨known, unlisted, _⟩
    · exact absurd same changed
    · exact ⟨known, unlisted⟩
  · intro h
    obtain ⟨known, unlisted⟩ := h
    cases run : w.dropOperation id name with
    | mk w' r =>
      cases r with
      | ok u =>
        have listed := (drop_ok_iff.mp (by rw [run])).2
        exact absurd listed unlisted
      | error f =>
        rcases drop_error nodup run with ⟨absent, _⟩ | ⟨_, _, _, loses⟩
        · rw [absent] at known
          cases known
        · exact ⟨w', f, rfl, ne_of_loses known loses⟩

/-- An operation is taken out exactly if the graph has it and the order lists it; then nothing else
changes. A drop of an unknown name fails and changes nothing. In between lies the operation that the
graph has and the order does not list: the drop fails, but the operation is gone, so that the next
drop does not find it. In a graph that is in the order that sorting gives, these are the operations
that the outputs do not need. -/
theorem drop_fails_after_loss_iff (nodup : (w.graph id).order.Nodup) (name : String) :
    ((w.dropOperation id name).2 = .ok () ↔
      (w.graph id).has name = true ∧ name ∈ (w.graph id).order) ∧
    (∀ w', w.dropOperation id name = (w', .ok ()) → (w.graph id).Loses name (w'.graph id)) ∧
    (∀ w' f, w.dropOperation id name = (w', .error f) →
      (w' = w ↔ (w.graph id).has name = false) ∧
      ((w.graph id).has name = true → (w.graph id).Loses name (w'.graph id) ∧
        (w'.graph id).order = (w.graph id).order ∧
        w'.dropOperation id name = (w', .error (.operationNotFound name)))) ∧
    (∀ other ≠ id, (w.dropOperation id name).1.graph other = w.graph other) ∧
    ((w.graph id).sorted = .ok (w.graph id).order →
      ((∃ w' f, w.dropOperation id name = (w', .error f) ∧ w' ≠ w) ↔
        (w.graph id).has name = true ∧ ¬(w.graph id).Reachable name)) := by
  refine ⟨drop_ok_iff, fun w' run => drop_ok nodup run, fun w' f run => ?_, fun other apart => ?_,
    fun sorted => ?_⟩
  · rcases drop_error nodup run with ⟨absent, rfl, _⟩ | ⟨known, unlisted, _, loses⟩
    · exact ⟨by simp [absent], by simp [absent]⟩
    · have gone : w' ≠ w := ne_of_loses known loses
      refine ⟨by simp [gone, known], fun _ => ⟨loses, loses.order_of_unlisted unlisted, ?_⟩⟩
      unfold dropOperation
      dsimp only
      rw [if_neg (by simp [loses.has])]
  · exact graph_drop_of_ne apart name
  · rw [← Graph.mem_sorted_iff sorted]
    exact drop_fails_changed_iff nodup

/-- A graph with an operation that reads `x` and that the output does not need. -/
def spareReader : Workspace :=
  (Workspace.empty.build tensorBackend ["x"] [addition "x" [], addition "spare" [("x:0", "x")]]
    true).1

theorem drop_fails_after_loss_spareReader : ∃ w' : Workspace,
    (spareReader.graph 0).order.Nodup ∧
    spareReader.dropOperation 0 "spare" = (w', .error .notListed) ∧ w' ≠ spareReader ∧
    (spareReader.graph 0).Loses "spare" (w'.graph 0) ∧
    w'.dropOperation 0 "spare" = (w', .error (.operationNotFound "spare")) := by
  have nodup : (spareReader.graph 0).order.Nodup := by decide
  obtain ⟨_, _, failed, _, _⟩ := drop_fails_after_loss_iff nodup "spare"
  have run : spareReader.dropOperation 0 "spare" = (_, .error .notListed) := Prod.ext rfl rfl
  obtain ⟨same, loses⟩ := failed _ _ run
  obtain ⟨lost, _, again⟩ := loses rfl
  exact ⟨_, nodup, run, fun unchanged => Bool.noConfusion (same.mp unchanged), lost, again⟩

/-- The drop of an operation that the output does not need fails, and yet the operation is gone. -/
theorem failed_drop_loses_spare : ∃ w' : Workspace,
    spareReader.dropOperation 0 "spare" = (w', .error .notListed) ∧
    (spareReader.graph 0).ops.map Operation.name = ["x", "spare"] ∧
    (w'.graph 0).ops.map Operation.name = ["x"] :=
  ⟨_, Prod.ext rfl rfl, rfl, rfl⟩

/-! ## Adding an operation -/

/-- What adding an operation can come to. -/
inductive AddOutcome (w : Workspace) (id : GraphId) (op : Operation) :
    Workspace × Except Fault Unit → Prop
  | duplicate : (w.graph id).has op.name = true →
      AddOutcome w id op (w, .error (.duplicateOperation op.name))
  | unsorted {f : Fault} : (w.graph id).has op.name = false →
      ((w.graph id).put op).sorted = .error f →
      AddOutcome w id op (w.set id ((w.graph id).put op), .error f)
  | sorted {names : List String} : (w.graph id).has op.name = false →
      ((w.graph id).put op).sorted = .ok names →
      AddOutcome w id op (w.set id { (w.graph id).put op with order := names }, .ok ())

theorem outcome_of_add (held : id < w.nextGraph) {x : Workspace × Except Fault Unit}
    (run : w.addShared id op = x) : w.AddOutcome id op x := by
  subst run
  unfold addShared
  by_cases known : (w.graph id).has op.name = true
  · rw [if_pos known]
    exact .duplicate known
  · rw [if_neg known]
    have fresh : (w.graph id).has op.name = false := by simpa using known
    have here : (w.set id ((w.graph id).put op)).graph id = (w.graph id).put op :=
      graph_set_self held _
    cases sorted : ((w.graph id).put op).sorted with
    | error f =>
      have failed : ((w.set id ((w.graph id).put op)).graph id).sort = .error f := by
        rw [here]
        unfold Graph.sort
        rw [sorted]
        rfl
      rw [sort_of_failed failed]
      exact .unsorted fresh sorted
    | ok names =>
      have sorts : ((w.set id ((w.graph id).put op)).graph id).sort =
          .ok { (w.graph id).put op with order := names } := by
        rw [here]
        exact Graph.sort_eq_ok_iff.mpr ⟨names, sorted, rfl⟩
      rw [(sort_of_sorted sorts).1]
      have twice : (w.set id ((w.graph id).put op)).set id
          { (w.graph id).put op with order := names } =
          w.set id { (w.graph id).put op with order := names } := by
        unfold Workspace.set
        dsimp only
        rw [List.set_set]
      rw [twice]
      exact .sorted fresh sorted

theorem add_ok_iff (held : id < w.nextGraph) : (w.addShared id op).2 = .ok () ↔
    (w.graph id).has op.name = false ∧ ((w.graph id).put op).Sortable := by
  rw [← Graph.sorted_ok_iff]
  generalize run : w.addShared id op = x
  cases outcome_of_add held run with
  | duplicate known => simp [known]
  | unsorted fresh failed => simp [fresh, failed]
  | sorted fresh sorted => simp [fresh, sorted]

/-- An addition touches one graph. -/
theorem graph_add_of_ne (held : id < w.nextGraph) {other : GraphId} (apart : other ≠ id)
    (op : Operation) : (w.addShared id op).1.graph other = w.graph other := by
  generalize run : w.addShared id op = x
  cases outcome_of_add held run with
  | duplicate _ => rfl
  | unsorted _ _ => exact graph_set_of_ne apart _
  | sorted _ _ => exact graph_set_of_ne apart _

/-- An operation that was added stands behind the others, and the order is that of sorting. -/
theorem add_ok (held : id < w.nextGraph) {u : Unit} (run : w.addShared id op = (w', .ok u)) :
    (w.graph id).Gains op (w'.graph id) ∧ (w'.graph id).sorted = .ok (w'.graph id).order := by
  cases outcome_of_add held run with
  | sorted fresh sorted =>
    rw [graph_set_self held]
    refine ⟨?_, ?_⟩
    · rw [Graph.put_of_fresh fresh]
      exact ⟨rfl, rfl, rfl⟩
    · exact Graph.sorted_of_sort (Graph.sort_eq_ok_iff.mpr ⟨_, sorted, rfl⟩)

/-- What an addition leaves behind when it fails. -/
theorem add_error (held : id < w.nextGraph) {f : Fault}
    (run : w.addShared id op = (w', .error f)) :
    ((w.graph id).has op.name = true ∧ w' = w ∧ f = .duplicateOperation op.name) ∨
      ((w.graph id).has op.name = false ∧ ¬((w.graph id).put op).Sortable ∧
        (w.graph id).Gains op (w'.graph id) ∧ (w'.graph id).order = (w.graph id).order) := by
  cases outcome_of_add held run with
  | duplicate known => exact .inl ⟨known, rfl, rfl⟩
  | unsorted fresh failed =>
    have unsortable : ¬((w.graph id).put op).Sortable := by
      rw [← Graph.sorted_ok_iff, failed]
      simp
    rw [graph_set_self held]
    refine .inr ⟨fresh, unsortable, ?_, ?_⟩
    · rw [Graph.put_of_fresh fresh]
      exact ⟨rfl, rfl, rfl⟩
    · rw [Graph.put_of_fresh fresh]

/-! ### Graphs that stay sortable -/

/-- Workspaces that come about by building and reading graphs, by adding operations, whether that
fails or not, and by drops of what the outputs of the graph do not need. -/
inductive Untorn [Importer] : Workspace → Prop
  | empty : Untorn Workspace.empty
  | build {w : Workspace} (backend : String) (outputs : List String)
      (specs : List OperationSpec) : Untorn w → Untorn (w.build backend outputs specs true).1
  | read {w : Workspace} (nodes : List Node) (outputs : Value) : Untorn w →
      Untorn (w.ofNodes nodes outputs).1
  | add {w : Workspace} {id : GraphId} (op : Operation) : id < w.nextGraph → Untorn w →
      Untorn (w.addShared id op).1
  | drop {w : Workspace} {id : GraphId} {name : String} : ¬(w.graph id).Reachable name →
      Untorn w → Untorn (w.dropOperation id name).1

/-- A graph that is built is sorted, and no other graph changes. -/
theorem sortable_build (sortable : ∀ id, (w.graph id).Sortable) (backend : String)
    (outputs : List String) (specs : List OperationSpec) (id : GraphId) :
    ((w.build backend outputs specs true).1.graph id).Sortable := by
  unfold Workspace.build
  dsimp only
  split
  · exact sortable id
  · rename_i w₁ u added
    rw [if_pos rfl]
    split
    · exact sortable id
    · rename_i w₂ u' sorts
      by_cases new : id = w.nextGraph
      · subst new
        exact Graph.sortable_of_sort (graph_of_sort sorts)
      · obtain ⟨names, _, rfl⟩ := sort_eq_ok_iff.mp sorts
        rw [graph_set_of_ne new, graph_addAllNew_of_ne added new, graph_add_eq, if_neg new]
        exact sortable id

theorem sortable_read [Importer] (sortable : ∀ id, (w.graph id).Sortable) (nodes : List Node)
    (outputs : Value) (id : GraphId) : ((w.ofNodes nodes outputs).1.graph id).Sortable := by
  unfold Workspace.ofNodes
  split
  · exact sortable id
  · rename_i g read
    rw [graph_reserve, graph_add_eq]
    split
    · obtain ⟨_, _, _, _, _, sort⟩ := Graph.ofNodes_ok read
      exact Graph.sortable_of_sort sort
    · exact sortable id

theorem sortable_add (sortable : ∀ id, (w.graph id).Sortable) (held : id < w.nextGraph)
    (op : Operation) (other : GraphId) : ((w.addShared id op).1.graph other).Sortable := by
  by_cases same : other = id
  · subst same
    cases run : w.addShared other op with
    | mk w' r =>
      cases r with
      | ok u => exact Graph.sortable_of_sorted (add_ok held run).2
      | error f =>
        rcases add_error held run with ⟨_, rfl, _⟩ | ⟨fresh, unsortable, _⟩
        · exact sortable other
        · exact absurd ((sortable other).put fresh) unsortable
  · rw [graph_add_of_ne held same]
    exact sortable other

theorem sortable_drop (sortable : ∀ id, (w.graph id).Sortable)
    (spare : ¬(w.graph id).Reachable name) (other : GraphId) :
    ((w.dropOperation id name).1.graph other).Sortable := by
  by_cases same : other = id
  · subst same
    have dropped := (sortable other).dropped spare
    generalize run : w.dropOperation other name = x
    cases outcome_of_drop run with
    | unknown _ => exact sortable other
    | unlisted known _ =>
      rw [graph_set_self (inside_of_has known)]
      exact dropped
    | listed known _ =>
      rw [graph_set_self (inside_of_has known)]
      exact dropped
  · rw [graph_drop_of_ne same]
    exact sortable other

theorem Untorn.sortable [Importer] (untorn : w.Untorn) : ∀ id, (w.graph id).Sortable := by
  induction untorn with
  | empty =>
    intro id
    have sorted : (Workspace.empty.graph id).sorted = .ok [] := rfl
    exact Graph.sortable_of_sorted sorted
  | build backend outputs specs _ ih => exact sortable_build ih backend outputs specs
  | read nodes outputs _ ih => exact sortable_read ih nodes outputs
  | add op held _ ih => exact sortable_add ih held op
  | drop spare _ ih => exact sortable_drop ih spare

/-- An operation is added exactly if its name is new and the graph with it can be sorted; then it
stands behind the others, and the order lists what the outputs need, producers first. An addition of
a known name fails and changes nothing. In between lies the operation of a new name with which the
graph cannot be sorted: the addition fails, but the operation stays, so that the next addition finds
a duplicate. None of this happens to a graph that can be sorted, nor to any graph as long as no drop
has taken out what the outputs of a graph need. -/
theorem add_fails_after_gain_iff [Importer] (held : id < w.nextGraph) (op : Operation) :
    ((w.addShared id op).2 = .ok () ↔
      (w.graph id).has op.name = false ∧ ((w.graph id).put op).Sortable) ∧
    (∀ w', w.addShared id op = (w', .ok ()) →
      (w.graph id).Gains op (w'.graph id) ∧ (w'.graph id).Arranged) ∧
    (∀ w' f, w.addShared id op = (w', .error f) →
      (w' = w ↔ (w.graph id).has op.name = true) ∧
      ((w.graph id).has op.name = false → (w.graph id).Gains op (w'.graph id) ∧
        (w'.graph id).order = (w.graph id).order ∧
        w'.addShared id op = (w', .error (.duplicateOperation op.name)))) ∧
    (∀ other ≠ id, (w.addShared id op).1.graph other = w.graph other) ∧
    ((w.graph id).Sortable → ∀ w' f, w.addShared id op = (w', .error f) → w' = w) ∧
    (w.Untorn → (w.graph id).Sortable) := by
  refine ⟨add_ok_iff held, fun w' run => ?_, fun w' f run => ?_, fun other apart => ?_,
    fun sortable w' f run => ?_, fun untorn => untorn.sortable id⟩
  · obtain ⟨gains, sorted⟩ := add_ok held run
    exact ⟨gains, Graph.arranged_of_sorted sorted⟩
  · rcases add_error held run with ⟨known, rfl, _⟩ | ⟨fresh, _, gains, order⟩
    · exact ⟨by simp [known], by simp [known]⟩
    · have changed : w' ≠ w := by
        intro same
        subst same
        rw [gains.has] at fresh
        cases fresh
      refine ⟨by simp [changed, fresh], fun _ => ⟨gains, order, ?_⟩⟩
      unfold addShared
      rw [if_pos gains.has]
  · exact graph_add_of_ne held apart op
  · rcases add_error held run with ⟨_, same, _⟩ | ⟨fresh, unsortable, _⟩
    · exact same
    · exact absurd (sortable.put fresh) unsortable

/-- A graph whose output needs `x`, which was taken out. -/
def tornGraph : Workspace :=
  ((Workspace.empty.build tensorBackend ["y"] [addition "x" [], addition "y" [("x:0", "x")]]
    true).1.dropOperation 0 "x").1

/-- An operation of another graph that reads nothing. -/
def sourceOperation (name : String) : Operation :=
  ⟨9, name, "Add", [], [⟨8, name ++ ":0", name, .float32, some [.int 1], 1⟩], [], 1⟩

attribute [local instance] Importer.strict

theorem add_fails_after_gain_tornGraph : ∃ w' w'' : Workspace,
    0 < tornGraph.nextGraph ∧
    tornGraph.addShared 0 (sourceOperation "z") = (w', .error (.missing "x")) ∧ w' ≠ tornGraph ∧
    (tornGraph.graph 0).Gains (sourceOperation "z") (w'.graph 0) ∧
    w'.addShared 0 (sourceOperation "z") = (w', .error (.duplicateOperation "z")) ∧
    tornGraph.addShared 0 (sourceOperation "x") = (w'', .ok ()) ∧
    (tornGraph.graph 0).Gains (sourceOperation "x") (w''.graph 0) ∧ (w''.graph 0).Arranged := by
  have held : 0 < tornGraph.nextGraph := by decide
  obtain ⟨_, _, failed, _⟩ := add_fails_after_gain_iff held (sourceOperation "z")
  obtain ⟨_, added, _⟩ := add_fails_after_gain_iff held (sourceOperation "x")
  have run : tornGraph.addShared 0 (sourceOperation "z") = (_, .error (.missing "x")) :=
    Prod.ext rfl rfl
  have run' : tornGraph.addShared 0 (sourceOperation "x") = (_, .ok ()) := Prod.ext rfl rfl
  obtain ⟨same, gains⟩ := failed _ _ run
  obtain ⟨gained, _, again⟩ := gains rfl
  obtain ⟨gained', arranged⟩ := added _ run'
  exact ⟨_, _, held, run, fun unchanged => Bool.noConfusion (same.mp unchanged), gained, again,
    run', gained', arranged⟩

/-- The addition to a graph that misses an operation fails, and yet the new operation is there. -/
theorem failed_add_keeps_operation : ∃ w' : Workspace,
    tornGraph.addShared 0 (sourceOperation "z") = (w', .error (.missing "x")) ∧
    (tornGraph.graph 0).ops.map Operation.name = ["y"] ∧
    (w'.graph 0).ops.map Operation.name = ["y", "z"] :=
  ⟨_, Prod.ext rfl rfl, rfl, rfl⟩

end Workspace

end TensorEmit
