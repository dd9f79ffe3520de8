import TensorEmit.Proofs.Importing
import TensorEmit.Proofs.SortedPruning
import TensorEmit.Proofs.Sorting

/-!
# What a pipeline leaves of the graph it is given

Removing dropout, counting references and pruning make new graphs, whose operations have numbers
that no operation had before. Inlining constants changes its graph in place: it marks operations by
their numbers, and so marks them in every graph that holds them, and it leaves the graph sorted
anew.

`Workspace.Leaves` says that a step leaves the first graphs of a workspace as they were and gives a
graph that has nothing in common with them; from then on nothing can touch these graphs
(`Workspace.leaves_run`). What a pipeline does to the graphs at hand is therefore what the inlining
at its front does, until a step makes a new graph.
-/

namespace TensorEmit

/-! ## Marks -/

/-- The operation as a part of the program text if its number is among the given ones. -/
def Operation.marked (numbers : List Nat) (op : Operation) : Operation :=
  if op.id ∈ numbers then { op with type := "Inline" } else op

namespace Operation

@[simp] theorem marked_id (numbers : List Nat) (op : Operation) :
    (op.marked numbers).id = op.id := by
  unfold marked
  split
  · rfl
  · rfl

@[simp] theorem marked_name (numbers : List Nat) (op : Operation) :
    (op.marked numbers).name = op.name := by
  unfold marked
  split
  · rfl
  · rfl

@[simp] theorem marked_inputs (numbers : List Nat) (op : Operation) :
    (op.marked numbers).inputs = op.inputs := by
  unfold marked
  split
  · rfl
  · rfl

theorem marked_of_mem {numbers : List Nat} {op : Operation} (member : op.id ∈ numbers) :
    op.marked numbers = { op with type := "Inline" } :=
  if_pos member

theorem marked_of_notMem {numbers : List Nat} {op : Operation} (other : op.id ∉ numbers) :
    op.marked numbers = op :=
  if_neg other

theorem marked_marked (numbers numbers' : List Nat) (op : Operation) :
    (op.marked numbers).marked numbers' = op.marked (numbers ++ numbers') := by
  by_cases first : op.id ∈ numbers
  · have both : op.id ∈ numbers ++ numbers' := List.mem_append_left _ first
    rw [marked_of_mem first, marked_of_mem both]
    unfold marked
    split
    · rfl
    · rfl
  · rw [marked_of_notMem first]
    unfold marked
    simp [first]

theorem marked_congr {numbers numbers' : List Nat} (same : ∀ n, n ∈ numbers ↔ n ∈ numbers') :
    marked numbers = marked numbers' := by
  funext op
  unfold marked
  simp only [same]

/-- A constant cannot be marked and be the same. -/
theorem notMem_of_marked_eq {numbers : List Nat} {op : Operation} (isConst : op.type = "Const")
    (same : op.marked numbers = op) : op.id ∉ numbers := by
  intro member
  rw [marked_of_mem member] at same
  have types : "Inline" = op.type := congrArg Operation.type same
  rw [isConst] at types
  exact absurd types (by decide)

end Operation

namespace Graph

/-- The graph with the operations of some numbers marked. -/
def marked (numbers : List Nat) (g : Graph) : Graph := g.mapOps (Operation.marked numbers)

/-- The numbers of the named constants, up to the first name that is not there. -/
def constants (g : Graph) : List String → List Nat
  | [] => []
  | name :: rest =>
    match g.find? name with
    | none => []
    | some op => if op.type = "Const" then op.id :: g.constants rest else g.constants rest

section Marked

variable (g : Graph)

theorem marked_marked (numbers numbers' : List Nat) :
    (g.marked numbers).marked numbers' = g.marked (numbers ++ numbers') := by
  unfold marked mapOps
  simp [Operation.marked_marked]

theorem marked_of_notMem {numbers : List Nat} (others : ∀ op ∈ g.ops, op.id ∉ numbers) :
    g.marked numbers = g := by
  unfold marked mapOps
  have same : g.ops.map (Operation.marked numbers) = g.ops.map id :=
    List.map_congr_left fun op member => Operation.marked_of_notMem (others op member)
  rw [same, List.map_id]

@[simp] theorem marked_nil : g.marked [] = g := marked_of_notMem g (by simp)

theorem wires_marked (numbers : List Nat) : (g.marked numbers).wires = g.wires :=
  wires_mapOps fun op => ⟨op.marked_name numbers, op.marked_inputs numbers⟩

theorem find?_mapOps {f : Operation → Operation} (names : ∀ op, (f op).name = op.name)
    (name : String) : (g.mapOps f).find? name = (g.find? name).map f := by
  unfold mapOps find?
  rw [List.find?_map]
  refine congrArg (fun p => (g.ops.find? p).map _) (funext fun op => ?_)
  rw [Function.comp_apply, names]

theorem find?_marked (numbers : List Nat) (name : String) :
    (g.marked numbers).find? name = (g.find? name).map (Operation.marked numbers) :=
  g.find?_mapOps (Operation.marked_name numbers) name

/-- Marks do not change which names are there. -/
theorem findAll_marked (numbers : List Nat) (names : List String) :
    ((names.mapM (g.marked numbers).find).map fun _ => ()) =
      (names.mapM g.find).map fun _ => () := by
  induction names with
  | nil => rfl
  | cons name rest ih =>
    rw [List.mapM_cons, List.mapM_cons]
    unfold Graph.find
    rw [find?_marked]
    cases g.find? name with
    | none => rfl
    | some op =>
      simp only [Option.map_some, ok_bind]
      revert ih
      unfold Graph.find
      generalize rest.mapM (m := Except Fault) _ = x, rest.mapM (m := Except Fault) _ = y
      intro ih
      cases x with
      | error f => cases y with
        | error f' => exact ih
        | ok ops => cases ih
      | ok ops => cases y with
        | error f' => cases ih
        | ok ops' => rfl

variable {g}

theorem exists_constant {names : List String} {n : Nat} (member : n ∈ g.constants names) :
    ∃ op ∈ g.ops, op.type = "Const" ∧ op.id = n := by
  induction names with
  | nil => cases member
  | cons name rest ih =>
    rw [constants] at member
    cases found : g.find? name with
    | none =>
      rw [found] at member
      cases member
    | some op =>
      rw [found] at member
      dsimp only at member
      split at member
      · rename_i isConst
        rcases List.mem_cons.mp member with rfl | later
        · exact ⟨op, mem_of_find? found, isConst, rfl⟩
        · exact ih later
      · exact ih member

/-- What is marked already is no constant any more. -/
theorem mem_constants_marked {names : List String} {m n : Nat} :
    m ∈ (g.marked [n]).constants names ↔ m ∈ g.constants names ∧ m ≠ n := by
  induction names with
  | nil => simp [constants]
  | cons name rest ih =>
    rw [constants, constants, find?_marked]
    cases g.find? name with
    | none => simp
    | some op =>
      simp only [Option.map_some, Operation.marked_id]
      by_cases here : op.id = n
      · rw [Operation.marked_of_mem (by simp [here])]
        by_cases isConst : op.type = "Const"
        · rw [if_neg (by simp), if_pos isConst, ih, List.mem_cons, here]
          constructor
          · rintro ⟨inside, other⟩
            exact ⟨.inr inside, other⟩
          · rintro ⟨same | inside, other⟩
            · exact absurd same other
            · exact ⟨inside, other⟩
        · rw [if_neg (by simp), if_neg isConst, ih]
      · rw [Operation.marked_of_notMem (by simp [here])]
        by_cases isConst : op.type = "Const"
        · rw [if_pos isConst, if_pos isConst, List.mem_cons, List.mem_cons, ih]
          constructor
          · rintro (rfl | ⟨inside, other⟩)
            · exact ⟨.inl rfl, here⟩
            · exact ⟨.inr inside, other⟩
          · rintro ⟨same | inside, other⟩
            · exact .inl same
            · exact .inr ⟨inside, other⟩
        · rw [if_neg isConst, if_neg isConst, ih]

end Marked

end Graph

namespace Workspace

/-- The workspace with the operations of some numbers marked in all graphs. -/
def marked (numbers : List Nat) (w : Workspace) : Workspace :=
  { w with graphs := w.graphs.map (Graph.marked numbers) }

section Marked

variable (w : Workspace) (id : GraphId)

@[simp] theorem marked_nil : w.marked [] = w := by
  have same : Graph.marked [] = fun g => g := funext Graph.marked_nil
  unfold marked
  rw [same, List.map_id']

theorem graph_marked (numbers : List Nat) :
    (w.marked numbers).graph id = (w.graph id).marked numbers := by
  unfold Workspace.graph marked
  simp only [List.getD, List.getElem?_map]
  cases w.graphs[id]? with
  | none => rfl
  | some g => rfl

@[simp] theorem nextGraph_marked (numbers : List Nat) :
    (w.marked numbers).nextGraph = w.nextGraph := List.length_map _

theorem marked_congr {numbers numbers' : List Nat} (same : ∀ n, n ∈ numbers ↔ n ∈ numbers') :
    w.marked numbers = w.marked numbers' := by
  unfold marked Graph.marked
  rw [Operation.marked_congr same]

theorem marked_marked (numbers numbers' : List Nat) :
    (w.marked numbers).marked numbers' = w.marked (numbers ++ numbers') := by
  unfold marked
  simp [Graph.marked_marked]

theorem updateOperation_eq_marked (n : Nat) :
    (w.updateOperation n fun op => { op with type := "Inline" }) = w.marked [n] := by
  unfold updateOperation marked Graph.marked Operation.marked
  simp only [List.mem_singleton]

/-- Inlining marks the constants that it finds; it fails if one of the names is not there. -/
theorem inlineAll_eq (names : List String) :
    w.inlineAll id names =
      (w.marked ((w.graph id).constants names),
        (names.mapM (w.graph id).find).map fun _ => ()) := by
  induction names generalizing w with
  | nil =>
    rw [inlineAll, Graph.constants, marked_nil]
    rfl
  | cons name rest ih =>
    rw [inlineAll, Graph.constants, List.mapM_cons]
    unfold Graph.find
    cases (w.graph id).find? name with
    | none =>
      rw [marked_nil]
      rfl
    | some op =>
      dsimp only
      have fault : ∀ x : Except Fault (List Operation),
          ((Except.ok op >>= fun op => x >>= fun ops => pure (op :: ops)).map fun _ => ()) =
            x.map fun _ => () := by
        intro x
        cases x with
        | error f => rfl
        | ok ops => rfl
      rw [fault]
      by_cases isConst : op.type = "Const"
      · rw [if_pos isConst, if_pos isConst, updateOperation_eq_marked, ih, graph_marked,
          marked_marked, Graph.findAll_marked]
        refine congrArg (·, _) (marked_congr w fun n => ?_)
        rw [List.singleton_append, List.mem_cons, List.mem_cons, Graph.mem_constants_marked]
        constructor
        · rintro (same | ⟨inside, _⟩)
          · exact .inl same
          · exact .inr inside
        · rintro (same | inside)
          · exact .inl same
          · by_cases same : n = op.id
            · exact .inl same
            · exact .inr ⟨inside, same⟩
      · rw [if_neg isConst, if_neg isConst, ih]
        rfl

theorem inlineConstants_eq :
    w.inlineConstants id =
      (w.marked ((w.graph id).constants (w.graph id).order),
        ((w.graph id).order.mapM (w.graph id).find).map fun _ => id) := by
  unfold inlineConstants
  rw [inlineAll_eq]
  cases (w.graph id).order.mapM (w.graph id).find with
  | error f => rfl
  | ok ops => rfl

end Marked

end Workspace

/-! ## Numbers of new operations -/

namespace Graph

variable {g g' : Graph} {base : Nat} {owner : GraphId}

/-- The operations of a copy have numbers from the given one on. -/
theorem le_id_of_copy (run : g.copy base owner = .ok g') : ∀ op ∈ g'.ops, base ≤ op.id := by
  intro op' member
  obtain ⟨op, _, copied⟩ := exists_of_mem_copy run member
  rw [copied.id]
  exact Nat.le_add_right base op.id

theorem le_id_of_counted (run : g.counted = .ok g') (above : ∀ op ∈ g.ops, base ≤ op.id) :
    ∀ op ∈ g'.ops, base ≤ op.id := by
  intro op' member
  rw [eq_of_counted run] at member
  obtain ⟨op, inside, rfl⟩ := List.mem_map.mp member
  split
  · exact above op inside
  · exact above op inside

theorem le_id_of_pruned (run : g.pruned = .ok g') (above : ∀ op ∈ g.ops, base ≤ op.id) :
    ∀ op ∈ g'.ops, base ≤ op.id := by
  obtain ⟨names, _, rfl⟩ := pruned_eq_ok_iff.mp run
  exact fun op member => above op (List.mem_of_mem_filter member)

theorem le_id_of_dropoutRemoved (run : g.dropoutRemoved base owner = .ok g') :
    ∀ op ∈ g'.ops, base ≤ op.id := by
  intro op' member
  obtain ⟨_, op, remade⟩ := exists_remade run member
  exact remade.id

end Graph

/-! ## Steps that leave graphs as they were -/

namespace Workspace

variable {w w' : Workspace} {id : GraphId} {m n : Nat} {quantizer : Quantizer}

theorem graph_set_of_ne {other : GraphId} (apart : other ≠ id) (g : Graph) :
    (w.set id g).graph other = w.graph other := by
  unfold Workspace.graph Workspace.set
  rw [List.getD, List.getD, List.getElem?_set_ne (Ne.symm apart)]

theorem graph_set_self (inside : id < w.nextGraph) (g : Graph) : (w.set id g).graph id = g := by
  unfold Workspace.graph Workspace.set
  rw [List.getD, List.getElem?_set_self inside, Option.getD_some]

theorem graph_addAllNew_of_ne {specs : List OperationSpec} {u : Unit}
    (run : w.addAllNew id specs = (w', .ok u)) {other : GraphId} (apart : other ≠ id) :
    w'.graph other = w.graph other := by
  refine addAllNew_invariant (P := fun w' => w'.graph other = w.graph other) ?_ rfl run
  intro w₁ s op _ same
  rw [graph_reserve, graph_set_of_ne apart]
  exact same

/-- The operations of the first `m` graphs have numbers below `n`, and new ones get others. -/
structure Holds (w : Workspace) (m n : Nat) : Prop where
  below : ∀ id < m, ∀ op ∈ (w.graph id).ops, op.id < n
  next : n ≤ w.next
  nextGraph : m ≤ w.nextGraph

/-- A graph that is none of the first `m`, all of whose operations have numbers from `n` on. -/
structure Apart (w : Workspace) (m n : Nat) (id : GraphId) : Prop where
  beyond : m ≤ id
  above : ∀ op ∈ (w.graph id).ops, n ≤ op.id

/-- A step leaves the first `m` graphs as they were, and the graph that it gives is apart from
them. -/
structure Leaves (w : Workspace) (m n : Nat) (x : Workspace × Except Fault GraphId) : Prop where
  kept : ∀ id < m, x.1.graph id = w.graph id
  holds : x.1.Holds m n
  apart : ∀ id, x.2 = .ok id → x.1.Apart m n id

theorem Holds.of_kept (holds : w.Holds m n) (kept : ∀ id < m, w'.graph id = w.graph id)
    (next : w.next ≤ w'.next) (nextGraph : w.nextGraph ≤ w'.nextGraph) : w'.Holds m n := by
  refine ⟨fun id first op member => ?_, Nat.le_trans holds.next next,
    Nat.le_trans holds.nextGraph nextGraph⟩
  rw [kept id first] at member
  exact holds.below id first op member

theorem Leaves.failed (holds : w.Holds m n) (f : Fault) : w.Leaves m n (w, .error f) :=
  ⟨fun _ _ => rfl, holds, fun _ made => by cases made⟩

theorem Leaves.trans {x : Workspace × Except Fault GraphId}
    (kept : ∀ id < m, w'.graph id = w.graph id) (later : w'.Leaves m n x) : w.Leaves m n x :=
  ⟨fun id first => (later.kept id first).trans (kept id first), later.holds, later.apart⟩

/-- A step that makes a graph of new operations leaves the graphs at hand. -/
theorem leaves_adding (holds : w.Holds m n) {r : Except Fault Graph}
    (above : ∀ g, r = .ok g → ∀ op ∈ g.ops, w.next ≤ op.id) (k : Nat) :
    w.Leaves m n (w.adding k r) := by
  cases r with
  | error f => exact .failed holds f
  | ok g =>
    have kept : ∀ id < m, ((w.add g).reserve k).graph id = w.graph id := by
      intro id first
      have old : id ≠ w.nextGraph := Nat.ne_of_lt (Nat.lt_of_lt_of_le first holds.nextGraph)
      rw [graph_reserve, graph_add_eq, if_neg old]
    have longer : w.nextGraph ≤ ((w.add g).reserve k).nextGraph := by
      unfold nextGraph reserve Workspace.add
      simp
    refine ⟨kept, holds.of_kept kept (Nat.le_add_right w.next k) longer, ?_⟩
    intro id made
    cases made
    refine ⟨holds.nextGraph, fun op member => ?_⟩
    unfold adding at member
    rw [graph_reserve, graph_add] at member
    exact Nat.le_trans holds.next (above g rfl op member)

theorem leaves_prune (holds : w.Holds m n) (id : GraphId) : w.Leaves m n (w.prune id) := by
  refine leaves_adding holds (fun g made => ?_) w.next
  obtain ⟨c, copied, pruned⟩ := bind_eq_ok_iff.mp made
  exact Graph.le_id_of_pruned pruned (Graph.le_id_of_copy copied)

/-- Passes that make a new graph leave the graphs at hand. -/
theorem leaves_apply [Importer] (holds : w.Holds m n) (id : GraphId) {pass : Pass}
    (new : pass = .dropout ∨ pass = .refCount) : w.Leaves m n (w.apply quantizer id pass) := by
  rcases new with rfl | rfl
  · exact leaves_adding holds (fun g made => Graph.le_id_of_dropoutRemoved made)
      (w.graph id).numbers
  · refine leaves_adding holds (fun g made => ?_) w.next
    obtain ⟨c, copied, counted⟩ := bind_eq_ok_iff.mp made
    exact Graph.le_id_of_counted counted (Graph.le_id_of_copy copied)

/-- Inlining marks no operation of a graph that the inlined one has nothing in common with. -/
theorem leaves_inline [Importer] (holds : w.Holds m n) (apart : w.Apart m n id) :
    w.Leaves m n (w.apply quantizer id .inline) := by
  unfold apply
  rw [inlineConstants_eq]
  have kept : ∀ old < m, (w.marked ((w.graph id).constants (w.graph id).order)).graph old =
      w.graph old := by
    intro old first
    rw [graph_marked]
    refine Graph.marked_of_notMem _ fun op member marked => ?_
    obtain ⟨constant, inside, _, same⟩ := Graph.exists_constant marked
    have below := holds.below old first op member
    have above := apart.above constant inside
    omega
  refine ⟨kept, holds.of_kept kept (Nat.le_refl _) (by simp), ?_⟩
  intro id' made
  obtain ⟨_, _, rfl⟩ := map_eq_ok_iff.mp made
  refine ⟨apart.beyond, fun op' member => ?_⟩
  rw [graph_marked] at member
  obtain ⟨op, inside, rfl⟩ := List.mem_map.mp member
  rw [Operation.marked_id]
  exact apart.above op inside

/-- Sorting a graph that is apart leaves the others. -/
theorem leaves_sort {u : Unit} (holds : w.Holds m n) (apart : w.Apart m n id)
    (run : w.sort id = (w', .ok u)) : w.Leaves m n (w', .ok id) := by
  obtain ⟨names, _, rfl⟩ := sort_eq_ok_iff.mp run
  have kept : ∀ old < m, (w.set id { w.graph id with order := names }).graph old = w.graph old := by
    intro old first
    exact graph_set_of_ne (Nat.ne_of_lt (Nat.lt_of_lt_of_le first apart.beyond)) _
  refine ⟨kept, holds.of_kept kept (Nat.le_refl _) (by simp [nextGraph, Workspace.set]), ?_⟩
  intro id' made
  cases made
  refine ⟨apart.beyond, fun op member => ?_⟩
  rcases w.graph_set_cases id { w.graph id with order := names } id with new | old
  · rw [new] at member
    exact apart.above op member
  · rw [old] at member
    exact apart.above op member

/-- What follows a pass leaves the graphs that the pass has left. -/
theorem Leaves.runStep [Importer] {s : PassStep}
    (applied : w.Leaves m n (w.apply quantizer id s.pass)) :
    w.Leaves m n (w.runStep quantizer id s) := by
  have sorted : ∀ {w₁ w₂ : Workspace} {id₁ : GraphId},
      w.apply quantizer id s.pass = (w₁, .ok id₁) → w₁.sort id₁ = (w₂, .ok ()) →
        w.Leaves m n (w₂, .ok id₁) := by
    intro w₁ w₂ id₁ ran sorts
    rw [ran] at applied
    exact .trans applied.kept (leaves_sort applied.holds (applied.apart id₁ rfl) sorts)
  generalize run : w.runStep quantizer id s = x
  cases outcome_of_runStep run with
  | failed ran => exact ran ▸ applied
  | unsorted ran sorts =>
    rw [ran] at applied
    rw [eq_of_sort_failed sorts]
    exact .trans applied.kept (.failed applied.holds _)
  | undecided ran sorts _ =>
    exact .trans (sorted ran sorts).kept (.failed (sorted ran sorts).holds _)
  | sorted ran sorts _ => exact sorted ran sorts
  | pruned ran sorts _ made =>
    rw [← made]
    exact .trans (sorted ran sorts).kept (leaves_prune (sorted ran sorts).holds _)

theorem Leaves.run_cons [Importer] {w₀ : Workspace} {s : PassStep} {rest : Pipeline}
    (step : w₀.Leaves m n (w.runStep quantizer id s))
    (later : ∀ (w' : Workspace) id', w'.Holds m n → w'.Apart m n id' →
      w'.Leaves m n (w'.run quantizer id' rest)) :
    w₀.Leaves m n (w.run quantizer id (s :: rest)) := by
  unfold Workspace.run
  cases ran : w.runStep quantizer id s with
  | mk w₁ r =>
    rw [ran] at step
    cases r with
    | error f => exact step
    | ok id₁ => exact .trans step.kept (later w₁ id₁ step.holds (step.apart id₁ rfl))

/-- In a pipeline that works on a graph apart, every step leaves the first graphs. -/
theorem leaves_run [Importer] {steps : Pipeline} (holds : w.Holds m n) (apart : w.Apart m n id)
    (known : ∀ s ∈ steps, s.pass = .dropout ∨ s.pass = .inline ∨ s.pass = .refCount) :
    w.Leaves m n (w.run quantizer id steps) := by
  induction steps generalizing w id with
  | nil =>
    refine ⟨fun _ _ => rfl, holds, fun id' made => ?_⟩
    cases made
    exact apart
  | cons s rest ih =>
    have applied : w.Leaves m n (w.apply quantizer id s.pass) := by
      rcases known s (by simp) with dropout | inline | refCount
      · exact leaves_apply holds id (.inl dropout)
      · rw [inline]
        exact leaves_inline holds apart
      · exact leaves_apply holds id (.inr refCount)
    exact applied.runStep.run_cons fun w' id' holds' apart' =>
      ih holds' apart' fun s member => known s (by simp [member])

/-- Once a step has left the graphs at hand, the rest of the pipeline leaves them too. -/
theorem Leaves.run [Importer] {w₀ : Workspace} {s : PassStep} {rest : Pipeline}
    (step : w₀.Leaves m n (w.runStep quantizer id s))
    (known : ∀ s ∈ rest, s.pass = .dropout ∨ s.pass = .inline ∨ s.pass = .refCount) :
    w₀.Leaves m n (w.run quantizer id (s :: rest)) :=
  step.run_cons fun _ _ holds apart => leaves_run holds apart known

/-! ## Inlining in place -/

/-- `next` is larger than the number of any operation. -/
def Numbered (w : Workspace) : Prop := ∀ g ∈ w.graphs, ∀ op ∈ g.ops, op.id < w.next

instance (w : Workspace) : Decidable w.Numbered :=
  inferInstanceAs (Decidable (∀ g ∈ w.graphs, ∀ op ∈ g.ops, op.id < w.next))

theorem Numbered.holds (numbered : w.Numbered) : w.Holds w.nextGraph w.next := by
  refine ⟨fun id stored => numbered (w.graph id) ?_, Nat.le_refl _, Nat.le_refl _⟩
  unfold Workspace.graph
  rw [List.getD, List.getElem?_eq_getElem stored]
  exact List.getElem_mem stored

/-- What inlining can do to a graph and to others that share operations with it: the operations of
some numbers are marked, all of them numbers of constants of the graph, and the graph has its old
order or the one that sorting gives. -/
structure Retouched (w : Workspace) (id : GraphId) (numbers : List Nat) (order : List String)
    (w' : Workspace) : Prop where
  constants : ∀ n ∈ numbers, ∃ op ∈ (w.graph id).ops, op.type = "Const" ∧ op.id = n
  arranged : order = (w.graph id).order ∨ (w.graph id).sorted = .ok order
  own : w'.graph id = { (w.graph id).marked numbers with order }
  others : ∀ other < w.nextGraph, other ≠ id → w'.graph other = (w.graph other).marked numbers

theorem Retouched.refl (w : Workspace) (id : GraphId) :
    w.Retouched id [] (w.graph id).order w := by
  refine ⟨by simp, .inl rfl, ?_, fun other _ _ => ?_⟩
  · rw [Graph.marked_nil]
  · rw [Graph.marked_nil]

section Retouched

variable {numbers numbers' : List Nat} {order order' : List String} {w'' : Workspace}

theorem Retouched.of_kept (touched : w.Retouched id numbers order w') (inside : id < w.nextGraph)
    (kept : ∀ id < w.nextGraph, w''.graph id = w'.graph id) :
    w.Retouched id numbers order w'' := by
  refine ⟨touched.constants, touched.arranged, ?_, fun other stored apart => ?_⟩
  · rw [kept id inside]
    exact touched.own
  · rw [kept other stored]
    exact touched.others other stored apart

theorem Retouched.sorted (touched : w.Retouched id numbers order w') :
    (w'.graph id).sorted = (w.graph id).sorted := by
  rw [touched.own]
  exact Graph.sorted_of_wires (Graph.wires_marked _ numbers) rfl

theorem Retouched.trans (first : w.Retouched id numbers order w')
    (second : w'.Retouched id numbers' order' w'') (stored : w.nextGraph ≤ w'.nextGraph) :
    w.Retouched id (numbers ++ numbers') order' w'' := by
  refine ⟨fun n member => ?_, ?_, ?_, fun other inside apart => ?_⟩
  · rcases List.mem_append.mp member with early | late
    · exact first.constants n early
    · obtain ⟨op', listed, isConst, rfl⟩ := second.constants n late
      rw [first.own] at listed
      obtain ⟨op, inside, rfl⟩ := List.mem_map.mp listed
      -- A mark would have made it something else than a constant.
      by_cases marked : op.id ∈ numbers
      · rw [Operation.marked_of_mem marked] at isConst
        exact absurd isConst (by simp)
      · rw [Operation.marked_of_notMem marked] at isConst ⊢
        exact ⟨op, inside, isConst, rfl⟩
  · rcases second.arranged with same | sorted
    · rw [same, first.own]
      exact first.arranged
    · exact .inr (first.sorted.symm.trans sorted)
  · rw [second.own, first.own, ← Graph.marked_marked]
    rfl
  · rw [second.others other (Nat.lt_of_lt_of_le inside stored) apart,
      first.others other inside apart, Graph.marked_marked]

end Retouched

/-- The workspace after the marks of inlining and the sorting behind it. -/
def inlined (w : Workspace) (id : GraphId) : Workspace :=
  let marks := w.marked ((w.graph id).constants (w.graph id).order)
  match (w.graph id).order.mapM (w.graph id).find with
  | .error _ => marks
  | .ok _ => (marks.sort id).1

/-- A step that inlines does nothing else in place; behind that it can fail, give the graph itself
or prune it. -/
theorem runStep_inline [Importer] (quantizer : Quantizer) (w : Workspace) (id : GraphId)
    {s : PassStep} (isInline : s.pass = .inline) :
    (∃ f, w.runStep quantizer id s = (w.inlined id, .error f)) ∨
      w.runStep quantizer id s = (w.inlined id, .ok id) ∨
      w.runStep quantizer id s = (w.inlined id).prune id := by
  unfold Workspace.runStep inlined
  rw [isInline]
  unfold Workspace.apply
  rw [inlineConstants_eq]
  cases (w.graph id).order.mapM (w.graph id).find with
  | error f => exact .inl ⟨f, rfl⟩
  | ok ops =>
    simp only [Except.map]
    cases sorts : (w.marked ((w.graph id).constants (w.graph id).order)).sort id with
    | mk w₁ r =>
      cases r with
      | error f => exact .inl ⟨f, rfl⟩
      | ok u =>
        dsimp only
        cases s.prune.truth? with
        | none => exact .inl ⟨_, rfl⟩
        | some prune =>
          cases prune with
          | false => exact .inr (.inl rfl)
          | true => exact .inr (.inr rfl)

@[simp] theorem next_inlined (w : Workspace) (id : GraphId) : (w.inlined id).next = w.next := by
  unfold inlined
  dsimp only
  split
  · rfl
  · unfold Workspace.sort
    split
    · rfl
    · rfl

@[simp] theorem nextGraph_inlined (w : Workspace) (id : GraphId) :
    (w.inlined id).nextGraph = w.nextGraph := by
  unfold inlined
  dsimp only
  split
  · exact nextGraph_marked w _
  · unfold Workspace.sort
    split
    · exact nextGraph_marked w _
    · unfold nextGraph Workspace.set
      rw [List.length_set]
      exact nextGraph_marked w _

/-- What inlining does in place. Once all names of the order are found and the graph can be sorted,
it has the order that sorting gives. -/
theorem retouched_inlined (inside : id < w.nextGraph) :
    ∃ order, w.Retouched id ((w.graph id).constants (w.graph id).order) order (w.inlined id) ∧
      ∀ ops names, (w.graph id).order.mapM (w.graph id).find = .ok ops →
        (w.graph id).sorted = .ok names → order = names := by
  have constants : ∀ n ∈ (w.graph id).constants (w.graph id).order,
      ∃ op ∈ (w.graph id).ops, op.type = "Const" ∧ op.id = n :=
    fun n member => Graph.exists_constant member
  unfold inlined
  generalize (w.graph id).constants (w.graph id).order = numbers at constants ⊢
  have marks : w.Retouched id numbers (w.graph id).order (w.marked numbers) :=
    ⟨constants, .inl rfl, graph_marked w id numbers, fun other _ _ => graph_marked w other numbers⟩
  cases (w.graph id).order.mapM (w.graph id).find with
  | error f =>
    refine ⟨_, marks, fun ops names found => ?_⟩
    cases found
  | ok ops =>
    dsimp only
    cases sorts : (w.marked numbers).sort id with
    | mk w₁ r =>
      cases r with
      | error f =>
        refine ⟨_, eq_of_sort_failed sorts ▸ marks, fun _ names _ sorted => ?_⟩
        have run := (sort_eq_ok_iff (u := ())).mpr ⟨names, marks.sorted.trans sorted, rfl⟩
        rw [sorts] at run
        cases run
      | ok u =>
        obtain ⟨order, sorted, rfl⟩ := sort_eq_ok_iff.mp sorts
        have sorted' := marks.sorted.symm.trans sorted
        refine ⟨order, ⟨constants, .inr sorted', ?_, fun other _ apart => ?_⟩, ?_⟩
        · rw [graph_set_self (by simpa using inside), graph_marked]
        · rw [graph_set_of_ne apart, graph_marked]
        · intro _ names _ again
          exact Except.ok.inj (sorted'.symm.trans again)

theorem Holds.inlined (holds : w.Holds w.nextGraph n) (inside : id < w.nextGraph) :
    (w.inlined id).Holds (w.inlined id).nextGraph n := by
  obtain ⟨order, touched, _⟩ := retouched_inlined inside
  rw [nextGraph_inlined]
  refine ⟨fun other stored op' member => ?_, by simpa using holds.next, by simp⟩
  have marked : ∃ numbers, op' ∈ ((w.graph other).marked numbers).ops := by
    by_cases same : other = id
    · subst same
      rw [touched.own] at member
      exact ⟨_, member⟩
    · rw [touched.others other stored same] at member
      exact ⟨_, member⟩
  obtain ⟨numbers, member⟩ := marked
  obtain ⟨op, inside, rfl⟩ := List.mem_map.mp member
  rw [Operation.marked_id]
  exact holds.below other stored op inside

/-- A pipeline that starts with inlining retouches what the inlining leaves, if the rest of it
retouches what it is given. -/
theorem retouched_cons [Importer] (quantizer : Quantizer) {s : PassStep} {rest : Pipeline}
    (holds : w.Holds w.nextGraph n) (inside : id < w.nextGraph) (isInline : s.pass = .inline)
    (known : ∀ s ∈ rest, s.pass = .dropout ∨ s.pass = .inline ∨ s.pass = .refCount)
    (later : ∀ w' : Workspace, w'.Holds w'.nextGraph n → id < w'.nextGraph →
      ∃ numbers order, w'.Retouched id numbers order (w'.run quantizer id rest).1) :
    ∃ numbers order,
      (w.inlined id).Retouched id numbers order (w.run quantizer id (s :: rest)).1 := by
  have holds' := holds.inlined inside
  have inside' : id < (w.inlined id).nextGraph := by simpa using inside
  rcases runStep_inline quantizer w id isInline with ⟨f, run⟩ | run | run
  · rw [Workspace.run, run]
    exact ⟨_, _, .refl _ id⟩
  · rw [Workspace.run, run]
    exact later _ holds' inside'
  · -- Pruning makes a copy, so from here on the rest leaves what is there.
    have step := leaves_prune holds' id
    rw [← run] at step
    exact ⟨_, _, (Retouched.refl _ id).of_kept inside' (step.run known).kept⟩

/-- All that a pipeline does to the graphs at hand is to retouch them. -/
theorem retouched_run [Importer] {steps : Pipeline} (holds : w.Holds w.nextGraph n)
    (inside : id < w.nextGraph)
    (known : ∀ s ∈ steps, s.pass = .dropout ∨ s.pass = .inline ∨ s.pass = .refCount) :
    ∃ numbers order, w.Retouched id numbers order (w.run quantizer id steps).1 := by
  induction steps generalizing w with
  | nil => exact ⟨_, _, .refl w id⟩
  | cons s rest ih =>
    have known' : ∀ s ∈ rest, s.pass = .dropout ∨ s.pass = .inline ∨ s.pass = .refCount :=
      fun s member => known s (by simp [member])
    have new : s.pass = .dropout ∨ s.pass = .refCount →
        ∃ numbers order, w.Retouched id numbers order (w.run quantizer id (s :: rest)).1 := by
      intro new
      have step : w.Leaves _ n (w.runStep quantizer id s) := (leaves_apply holds id new).runStep
      exact ⟨_, _, (Retouched.refl w id).of_kept inside (step.run known').kept⟩
    rcases known s (by simp) with dropout | inline | refCount
    · exact new (.inl dropout)
    · obtain ⟨_, _, second⟩ := retouched_cons quantizer holds inside inline known'
        fun w' holds' inside' => ih holds' inside' known'
      obtain ⟨_, first, _⟩ := retouched_inlined inside
      exact ⟨_, _, first.trans second (by simp)⟩
    · exact new (.inr refCount)

/-! ## When nothing changes -/

end Workspace

/-- Inlining finds nothing to do: no constant is in the order, and the order is the one that sorting
gives, unless inlining fails before. -/
structure Graph.Inert (g : Graph) : Prop where
  constants : g.constants g.order = []
  sorted : ∀ ops names, g.order.mapM g.find = .ok ops → g.sorted = .ok names → names = g.order

namespace Workspace

variable {w w' : Workspace} {id : GraphId} {quantizer : Quantizer} {n : Nat}

theorem inlined_of_inert (inert : (w.graph id).Inert) : w.inlined id = w := by
  unfold inlined
  rw [inert.constants, marked_nil]
  cases found : (w.graph id).order.mapM (w.graph id).find with
  | error f => rfl
  | ok ops =>
    dsimp only
    cases sorts : w.sort id with
    | mk w₁ r =>
      cases r with
      | error f => exact eq_of_sort_failed sorts
      | ok u =>
        obtain ⟨names, sorted, rfl⟩ := sort_eq_ok_iff.mp sorts
        rw [inert.sorted ops names found sorted]
        exact set_graph w id

theorem kept_of_inert [Importer] {steps : Pipeline} (holds : w.Holds w.nextGraph n)
    (inert : (w.graph id).Inert)
    (known : ∀ s ∈ steps, s.pass = .dropout ∨ s.pass = .inline ∨ s.pass = .refCount) :
    ∀ old < w.nextGraph, (w.run quantizer id steps).1.graph old = w.graph old := by
  induction steps with
  | nil => exact fun _ _ => rfl
  | cons s rest ih =>
    have known' : ∀ s ∈ rest, s.pass = .dropout ∨ s.pass = .inline ∨ s.pass = .refCount :=
      fun s member => known s (by simp [member])
    rcases known s (by simp) with dropout | inline | refCount
    · exact ((leaves_apply holds id (.inl dropout)).runStep.run known').kept
    · have step := runStep_inline quantizer w id inline
      rw [inlined_of_inert inert] at step
      rcases step with ⟨f, run⟩ | run | run
      · rw [Workspace.run, run]
        exact fun _ _ => rfl
      · rw [Workspace.run, run]
        exact ih known'
      · have pruned := leaves_prune holds id
        rw [← run] at pruned
        exact (pruned.run known').kept
    · exact ((leaves_apply holds id (.inr refCount)).runStep.run known').kept

/-- Marks are never taken back and an order that was set stays, so a graph that comes out of an
inlining as it went in had nothing to be inlined. -/
theorem inert_of_kept [Importer] {s : PassStep} {rest : Pipeline} (holds : w.Holds w.nextGraph n)
    (inside : id < w.nextGraph) (isInline : s.pass = .inline)
    (known : ∀ s ∈ rest, s.pass = .dropout ∨ s.pass = .inline ∨ s.pass = .refCount)
    (kept : (w.run quantizer id (s :: rest)).1.graph id = w.graph id) : (w.graph id).Inert := by
  obtain ⟨order, first, sorts⟩ := retouched_inlined inside
  obtain ⟨numbers, order', second⟩ := retouched_cons quantizer holds inside isInline known
    fun w' holds' inside' => retouched_run holds' inside' known
  have final := (first.trans second (by simp)).own
  rw [kept] at final
  refine ⟨List.eq_nil_iff_forall_not_mem.mpr fun k member => ?_, fun ops names found sorted => ?_⟩
  · obtain ⟨op, listed, isConst, rfl⟩ := Graph.exists_constant member
    have ops : (w.graph id).ops.map (Operation.marked _) = (w.graph id).ops.map fun op => op :=
      (congrArg Graph.ops final).symm.trans (List.map_id' _).symm
    have same := List.map_eq_map_iff.mp ops op listed
    exact Operation.notMem_of_marked_eq isConst same (List.mem_append_left _ member)
  · have here : order' = names := by
      rcases second.arranged with same | again
      · rw [same, first.own]
        exact sorts ops names found sorted
      · rw [first.sorted, sorted] at again
        exact (Except.ok.inj again).symm
    have orders : (w.graph id).order = order' := congrArg Graph.order final
    rw [orders, here]

/-- A pipeline changes the graph it is given exactly if inlining stands at its front and finds
something to do. If it does not change that graph, it changes no graph at hand. In any case all it
does to them, whether it succeeds or fails, is to retouch them. A later pipeline on a graph that was
not changed cannot tell it from a copy that was made before. -/
theorem run_keeps_graph_iff [Importer] {w : Workspace} {id : GraphId} (numbered : w.Numbered)
    (inside : id < w.nextGraph) (quantizer : Quantizer) {steps : Pipeline}
    (known : ∀ s ∈ steps, s.pass = .dropout ∨ s.pass = .inline ∨ s.pass = .refCount) :
    ((w.run quantizer id steps).1.graph id = w.graph id ↔
      (∀ s ∈ steps.head?, s.pass ≠ .inline) ∨ (w.graph id).Inert) ∧
    ((w.run quantizer id steps).1.graph id = w.graph id →
      ∀ old < w.nextGraph, (w.run quantizer id steps).1.graph old = w.graph old) ∧
    (∃ numbers order, w.Retouched id numbers order (w.run quantizer id steps).1) ∧
    ((w.run quantizer id steps).1.graph id = w.graph id → (w.graph id).Stored →
      ∀ w₁ c, w.copy id = (w₁, .ok c) → ∀ later,
        Linked ((w.run quantizer id steps).1.run quantizer id later)
          (w₁.run quantizer c later)) := by
  have holds := numbered.holds
  have keeps : (∀ s ∈ steps.head?, s.pass ≠ .inline) ∨ (w.graph id).Inert →
      ∀ old < w.nextGraph, (w.run quantizer id steps).1.graph old = w.graph old := by
    rintro (new | inert)
    · cases steps with
      | nil => exact fun _ _ => rfl
      | cons s rest =>
        have makes : s.pass = .dropout ∨ s.pass = .refCount := by
          rcases known s (by simp) with dropout | inline | refCount
          · exact .inl dropout
          · exact absurd inline (new s rfl)
          · exact .inr refCount
        refine ((leaves_apply holds id makes).runStep.run fun s member => ?_).kept
        exact known s (by simp [member])
    · exact kept_of_inert holds inert known
  have only : (w.run quantizer id steps).1.graph id = w.graph id →
      (∀ s ∈ steps.head?, s.pass ≠ .inline) ∨ (w.graph id).Inert := by
    intro kept
    cases steps with
    | nil => exact .inl fun s first => by cases first
    | cons s rest =>
      by_cases isInline : s.pass = .inline
      · exact .inr (inert_of_kept holds inside isInline
          (fun s member => known s (by simp [member])) kept)
      · refine .inl fun s' first => ?_
        cases first
        exact isInline
  refine ⟨⟨only, fun front => keeps front id inside⟩, fun kept => keeps (only kept),
    retouched_run holds inside known, ?_⟩
  intro kept stored w₁ c copied later
  unfold Workspace.copy at copied
  split at copied
  · cases copied
  · rename_i g made
    cases copied
    have same := Graph.renumbered_of_copy stored made
    have here : ((w.add g).reserve w.next).graph w.nextGraph = g := graph_add w g
    rw [← kept, ← here] at same
    exact linked_run quantizer same later

/-- A workspace with a graph that adds a constant to itself. -/
def constantSum : Workspace :=
  (Workspace.empty.build tensorBackend ["sum"]
    [{ addition "one" [] with type := "Const" },
      addition "sum" [("one:0", "one"), ("one:0", "one")]] true).1

attribute [local instance] Importer.strict

theorem run_keeps_graph_constantSum : constantSum.Numbered ∧
    (constantSum.run (fun h => .ok h.nodes) 0 [Pass.refCount.plain, Pass.inline.plain]).1.graph 0 =
      constantSum.graph 0 := by
  have numbered : constantSum.Numbered := by decide
  refine ⟨numbered, (run_keeps_graph_iff numbered (by decide) (fun h => .ok h.nodes) ?_).1.mpr ?_⟩
  · simp [Pass.plain]
  · refine .inl fun s first => ?_
    cases first
    decide

/-- The note on the constant that it has to be evaluated at once, in the result of a run. -/
def noteOnConstant (x : Workspace × Except Fault GraphId) : Option Value :=
  match x.2 with
  | .error _ => none
  | .ok id => ((x.1.graph id).find? "one").bind fun op => op.attrs.get? evaluateKey

/-- Inlining leaves its mark on the graph it was given. References that are counted then are not
those that are counted in a copy from before. -/
theorem inlining_marks_constantSum :
    (constantSum.graph 0).ops.map Operation.type = ["Const", "Add"] ∧
    ((constantSum.run (fun h => .ok h.nodes) 0 [Pass.inline.plain]).1.graph 0).ops.map
      Operation.type = ["Inline", "Add"] ∧
    noteOnConstant ((constantSum.run (fun h => .ok h.nodes) 0 [Pass.inline.plain]).1.run
      (fun h => .ok h.nodes) 0 [Pass.refCount.plain]) = some (.bool true) ∧
    noteOnConstant ((constantSum.copy 0).1.run (fun h => .ok h.nodes) 1 [Pass.refCount.plain]) =
      some (.bool false) :=
  ⟨rfl, rfl, rfl, rfl⟩

end Workspace

end TensorEmit
