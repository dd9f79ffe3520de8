import TensorEmit.Proofs.Annotation
import TensorEmit.Proofs.Importing
import TensorEmit.Proofs.Rerouting

/-!
# Passes that are run again

A step that prunes leaves a graph in the order that sorting gives, with the operations of the order
and no others, all of which can be made anew (`Graph.Tidy`). On such a graph the second run of a
pass that removes dropout or inlines constants always succeeds.

Removing dropout left nothing inside of dropout scopes, since what the outputs need was found among
the operations outside. So the second run finds no scope; it only arranges the operations in the
order of evaluation. Inlining marks the constants that the order listed when it began. If sorting
brings in a constant that was not listed, it is marked by the second run only.
-/

namespace TensorEmit

namespace Graph

variable {g g' : Graph}

/-! ## Equal graphs up to arrangement -/

/-- Two graphs have the same order, outputs and backend, and the same operation under every name.
How the operations are arranged does not count. -/
structure Rearranged (g g' : Graph) : Prop where
  ops : ∀ name, g.SameAt g' name
  order : g'.order = g.order
  outputs : g'.outputs = g.outputs
  backend : g'.backend = g.backend

theorem SameContent.rearranged (same : g.SameContent g') : g.Rearranged g' := by
  refine ⟨fun name => ?_, same.order, same.outputs, same.backend⟩
  have found :=
    find?_related (fun _ _ => Operation.name_of_content) (forall₂_of_views same.ops) name
  unfold SameAt
  rcases cases_of_rel found with ⟨none, none'⟩ | ⟨op, op', here, here', both⟩
  · rw [find?, find?, none, none']
  · rw [find?, find?, here, here']
    exact congrArg some both

theorem Rearranged.trans {g'' : Graph} (first : g.Rearranged g') (second : g'.Rearranged g'') :
    g.Rearranged g'' :=
  ⟨fun name => (second.ops name).trans (first.ops name), second.order.trans first.order,
    second.outputs.trans first.outputs, second.backend.trans first.backend⟩

/-! ## Tidy graphs -/

/-- A graph as a step that prunes leaves it: in the order that sorting gives, with the operations of
the order only, which are all accepted. -/
structure Tidy (g : Graph) : Prop where
  sorted : g.sorted = .ok g.order
  listed : ∀ op ∈ g.ops, op.name ∈ g.order
  accepted : g.Accepted

theorem Tidy.ordered (tidy : g.Tidy) : g.Ordered g.order := ordered_of_sorted tidy.sorted

theorem Tidy.listed_of_find? (tidy : g.Tidy) {name : String} {op : Operation}
    (found : g.find? name = some op) : name ∈ g.order := by
  rw [← find?_name found]
  exact tidy.listed op (mem_of_find? found)

theorem Tidy.stored (tidy : g.Tidy) : g.Stored := (accepted_iff.mp tidy.accepted).1

theorem Tidy.shaped (tidy : g.Tidy) : g.Shaped := (accepted_iff.mp tidy.accepted).2

/-- Whatever a copy holds was converted and checked, also if the graph itself is not as operations
are made. -/
theorem accepted_of_copy {base : Nat} {id : GraphId} (run : g.copy base id = .ok g') :
    g'.Accepted := by
  intro op' member
  obtain ⟨op, _, copied⟩ := exists_of_mem_copy run member
  refine Operation.accepted_iff.mpr ⟨storedAttrs_idempotent copied.attrs, fun t' listed => ?_⟩
  obtain ⟨t, _, made⟩ := copied.exists_tensor listed
  obtain ⟨checked, rfl⟩ := Tensor.copy_eq_ok_iff.mp made
  exact checked

theorem tidy_of_pruned {base : Nat} {id : GraphId} {c : Graph} (sorted : g.sorted = .ok g.order)
    (copy : g.copy base id = .ok c) (pruned : c.pruned = .ok g') : g'.Tidy := by
  have copied := copied_of_copy copy
  have sorted' : c.sorted = .ok c.order := by
    rw [sorted_of_wires (wires_of_alike copied.ops) copied.outputs, sorted, copied.order]
  obtain ⟨_, run, rfl, again⟩ := exists_pruned_of_sorted sorted'
  cases pruned.symm.trans run
  refine ⟨again, fun op member => ?_, fun op member => ?_⟩
  · simpa using (List.mem_filter.mp member).2
  · exact accepted_of_copy copy op (List.mem_of_mem_filter member)

/-! ## Removing dropout again -/

section Removal

variable {base : Nat} {owner : GraphId}

/-- An operation that reads from no scope is kept as it is. -/
theorem content_of_bypassed {inputs : Entries String Tensor} {op op' : Operation}
    (bypassed : op.Bypassed inputs op') (stored : storedAttrs op.attrs = .ok op.attrs)
    (outside : ∀ t ∈ op.inputs, ∀ p, TensorName.producer t.name = .ok p → dropoutScope? p = none) :
    op'.content = op.content := by
  have attrs : op'.attrs = op.attrs := Except.ok.inj (bypassed.attrs.symm.trans stored)
  have reads : List.Forall₂ Tensor.SameContent op.inputs op'.inputs := by
    refine ((List.forall₂_and_left _ _).mpr ⟨fun t read => read, bypassed.inputs⟩).imp ?_
    rintro t t' ⟨read, p, made, ⟨_, same⟩ | ⟨scope, inside, _⟩⟩
    · exact same
    · rw [outside t read p made] at inside
      cases inside
  exact Operation.content_of_parts bypassed.name bypassed.type reads
    (forall₂_of_views bypassed.outputs) attrs

/-- In a tidy graph without dropout scopes the removal arranges the operations anew and does nothing
else. -/
theorem Tidy.dropoutRemoved (tidy : g.Tidy) (outside : ∀ name ∈ g.order, dropoutScope? name = none)
    (base : Nat) (owner : GraphId) :
    ∃ g', g.dropoutRemoved base owner = .ok g' ∧ g.Rearranged { g' with order := g.order } ∧
      g'.Accepted ∧ ∀ op ∈ g'.ops, op.name ∈ g.order := by
  have single : g.SingleInputs := by
    intro name listed scope inside
    rw [outside name listed] at inside
    cases inside
  obtain ⟨g', run⟩ := exists_dropoutRemoved tidy.ordered single tidy.stored tidy.shaped base owner
  obtain ⟨inputs, sources, outputs, _⟩ := dropoutRemoved_ok run
  have listed : ∀ op ∈ g'.ops, op.name ∈ g.order := fun op member =>
    (exists_of_dropoutRemoved sources run member).1
  have ops : ∀ name, g.SameAt g' name := by
    intro name
    unfold SameAt
    by_cases here : name ∈ g.order
    · obtain ⟨op, op', found, found', bypassed⟩ :=
        find?_of_dropoutRemoved tidy.ordered sources run here (outside name here)
      rw [found, found']
      refine congrArg some (content_of_bypassed bypassed (tidy.stored op (mem_of_find? found)) ?_)
      intro t read p made
      exact outside p (tidy.ordered.needs here ⟨op, found, t, read, made⟩)
    · have gone : g.find? name = none := by
        cases found : g.find? name with
        | none => rfl
        | some op => exact absurd (tidy.listed_of_find? found) here
      have gone' : g'.find? name = none := by
        cases found : g'.find? name with
        | none => rfl
        | some op =>
          have inside := listed op (mem_of_find? found)
          rw [find?_name found] at inside
          exact absurd inside here
      rw [gone, gone']
  have backend : g'.backend = g.backend := by
    obtain ⟨_, _, _, _, rfl⟩ := dropoutRemoved_eq_ok_iff.mp run
    rfl
  have accepted : g'.Accepted := accepted_iff.mpr
    ⟨stored_of_dropoutRemoved run, shaped_of_dropoutRemoved tidy.shaped run⟩
  exact ⟨g', run, ⟨ops, rfl, outputs, backend⟩, accepted, listed⟩

/-- The first removal leaves nothing inside of scopes: what the outputs need was found outside. -/
theorem outside_of_dropoutRemoved {names : List String}
    (run : g.dropoutRemoved base owner = .ok g') (sorted : g'.sorted = .ok names) :
    ∀ name ∈ names, dropoutScope? name = none := by
  intro name listed
  obtain ⟨op, found⟩ := (ordered_of_sorted sorted).found listed
  exact outside_of_find?_dropoutRemoved run found

end Removal

/-! ## Inlining again -/

/-- No operation is a constant that is still to be inlined. -/
def NoConstants (g : Graph) : Prop := ∀ name op, g.find? name = some op → op.type ≠ "Const"

/-- Every constant that the outputs need is in the order. -/
def ListsConstants (g : Graph) : Prop :=
  ∀ name, g.Reachable name → ∀ op, g.find? name = some op → op.type = "Const" → name ∈ g.order

theorem listsConstants_of_sorted (sorted : g.sorted = .ok g.order) : g.ListsConstants :=
  fun name reached _ _ _ => (mem_sorted_iff sorted name).mpr reached

theorem mem_constants {names : List String} {ops : List Operation}
    (run : names.mapM g.find = .ok ops) {name : String} (listed : name ∈ names) {op : Operation}
    (found : g.find? name = some op) (isConst : op.type = "Const") : op.id ∈ g.constants names := by
  induction names generalizing ops with
  | nil => cases listed
  | cons first rest ih =>
    rw [List.mapM_cons] at run
    simp only [bind_eq_ok_iff, find_eq_ok_iff] at run
    obtain ⟨op₁, found₁, ops', later, _⟩ := run
    rw [constants, found₁]
    rcases List.mem_cons.mp listed with rfl | behind
    · cases found.symm.trans found₁
      simp [isConst]
    · have inside := ih later behind
      dsimp only
      split
      · exact List.mem_cons_of_mem _ inside
      · exact inside

theorem NoConstants.constants (none : g.NoConstants) (names : List String) :
    g.constants names = [] := by
  induction names with
  | nil => rfl
  | cons name rest ih =>
    rw [Graph.constants]
    cases found : g.find? name with
    | none => rfl
    | some op =>
      dsimp only
      rw [if_neg (none name op found), ih]

theorem Accepted.marked (accepted : g.Accepted) (numbers : List Nat) :
    (g.marked numbers).Accepted := by
  intro op' member
  obtain ⟨op, inside, rfl⟩ := List.mem_map.mp member
  obtain ⟨stored, shaped⟩ := Operation.accepted_iff.mp (accepted op inside)
  refine Operation.accepted_iff.mpr ?_
  unfold Operation.marked
  split
  · exact ⟨stored, shaped⟩
  · exact ⟨stored, shaped⟩

/-- If the marks on the constants of the order change nothing, there are none. -/
theorem Tidy.noConstants (tidy : g.Tidy)
    (settled : (g.marked (g.constants g.order)).SameContent g') (same : g.Rearranged g') :
    g.NoConstants := by
  intro name op found isConst
  obtain ⟨ops, all⟩ := exists_found tidy.sorted (List.Subset.refl _)
  have constant := mem_constants all (tidy.listed_of_find? found) found isConst
  have before := same.ops name
  have after := settled.rearranged.ops name
  unfold SameAt at before after
  rw [before, find?_marked, found, Option.map_some, Option.map_some, Option.map_some,
    Operation.marked_of_mem constant] at after
  have type : op.type = "Inline" := congrArg Operation.type (Option.some.inj after)
  exact absurd (isConst.symm.trans type) (by decide)

end Graph

/-! ## Steps that are run again -/

namespace Workspace

variable {quantizer : Quantizer} {w w₁ w' : Workspace} {id id₁ id' : GraphId} {s : PassStep}

/-- What a step that prunes makes: the pass was applied, what it gave was sorted, and what is left
of that is tidy. -/
theorem tidy_of_runStep [Importer] (pruning : s.prune.truth? = some true)
    (run : w.runStep quantizer id s = (w', .ok id')) :
    ∃ w₁ id₁ names, w.apply quantizer id s.pass = (w₁, .ok id₁) ∧
      (w₁.graph id₁).sorted = .ok names ∧
      Graph.PrunedCopy { w₁.graph id₁ with order := names } (w'.graph id') ∧
      (w'.graph id').Tidy := by
  cases outcome_of_runStep run with
  | sorted _ _ off =>
    rw [pruning] at off
    cases off
  | @pruned w₁ w₂ id₁ _ applied sorts _ prunes =>
    have sort := graph_of_sort sorts
    obtain ⟨names, sorted, here⟩ := Graph.sort_eq_ok_iff.mp sort
    obtain ⟨c, copied, pruned⟩ := copied_of_prune prunes
    have tidy := Graph.tidy_of_pruned (Graph.sorted_of_sort sort) copied pruned
    rw [← here] at copied
    exact ⟨w₁, id₁, names, applied, sorted, Graph.prunedCopy_of_pruned copied pruned, tidy⟩

/-- A step succeeds if its pass gives accepted operations that are all needed, and leaves them as
the pass gave them. -/
theorem exists_runStep_of_applied [Importer] (pruning : s.prune.truth? = some true)
    (applied : w.apply quantizer id s.pass = (w₁, .ok id₁)) {names : List String}
    (sorted : (w₁.graph id₁).sorted = .ok names) (accepted : (w₁.graph id₁).Accepted)
    (listed : ∀ op ∈ (w₁.graph id₁).ops, op.name ∈ names) :
    ∃ w' id', w.runStep quantizer id s = (w', .ok id') ∧
      Graph.SameContent { w₁.graph id₁ with order := names } (w'.graph id') := by
  have sorts : (w₁.graph id₁).sort = .ok { w₁.graph id₁ with order := names } :=
    Graph.sort_eq_ok_iff.mpr ⟨names, sorted, rfl⟩
  obtain ⟨run, here⟩ := sort_of_sorted sorts
  generalize settled : { w₁.graph id₁ with order := names } = g at run here ⊢
  have accepted' : g.Accepted := by
    rw [← settled]
    exact accepted
  obtain ⟨c, copied, same⟩ := accepted'.exists_copy (w₁.set id₁ g).next (w₁.set id₁ g).nextGraph
  have inOrder : c.sorted = .ok c.order := by
    rw [Graph.sorted_congr same.outputs fun name _ => same.sameAt name, same.order,
      Graph.sorted_of_sort (settled ▸ sorts)]
  obtain ⟨_, pruned, rfl, _⟩ := Graph.exists_pruned_of_sorted inOrder
  have all : (c.ops.filter fun op => op.name ∈ c.order) = c.ops := by
    refine List.filter_eq_self.mpr fun op' member => ?_
    obtain ⟨op, inside, both⟩ := exists_left_of_forall₂ same.ops member
    rw [Operation.name_of_content both.content, same.order]
    rw [← settled] at inside ⊢
    exact decide_eq_true (listed op inside)
  rw [all] at pruned
  obtain ⟨w', id', prunes, made⟩ : ∃ w' id', (w₁.set id₁ g).prune id₁ = (w', .ok id') ∧
      w'.graph id' = c := exists_prune (here.symm ▸ copied) pruned
  refine ⟨w', id', ?_, ?_⟩
  · unfold runStep
    rw [applied]
    dsimp only
    rw [run]
    dsimp only
    rw [pruning]
    exact prunes
  · rw [made]
    exact same.sameContent

/-- The second removal of dropout succeeds and changes the arrangement at most. -/
theorem exists_dropout_again [Importer] (isDropout : s.pass = .dropout)
    (pruning : s.prune.truth? = some true) (run : w.runStep quantizer id s = (w', .ok id')) :
    ∃ w'' id'', w'.runStep quantizer id' s = (w'', .ok id'') ∧
      (w'.graph id').Rearranged (w''.graph id'') := by
  obtain ⟨w₁, id₁, names, applied, sorted, left, tidy⟩ := tidy_of_runStep pruning run
  rw [isDropout] at applied
  obtain ⟨_, _, removed⟩ := graph_adding applied
  have outside : ∀ name ∈ (w'.graph id').order, dropoutScope? name = none := by
    rw [left.order]
    exact Graph.outside_of_dropoutRemoved removed sorted
  obtain ⟨g, removed', same, accepted, listed⟩ := tidy.dropoutRemoved outside w'.next w'.nextGraph
  have applied' : w'.apply quantizer id' s.pass =
      ((w'.add g).reserve (w'.graph id').numbers, .ok w'.nextGraph) := by
    rw [isDropout]
    unfold apply removeDropout
    dsimp only
    rw [removed']
  have here : ((w'.add g).reserve (w'.graph id').numbers).graph w'.nextGraph = g := by
    rw [graph_reserve, graph_add]
  have sorts : g.sorted = (w'.graph id').sorted :=
    Graph.sorted_congr same.outputs fun name _ => same.ops name
  have sorted' : g.sorted = .ok (w'.graph id').order := sorts.trans tidy.sorted
  obtain ⟨w'', id'', again, settled⟩ := exists_runStep_of_applied pruning applied'
    (here.symm ▸ sorted') (here.symm ▸ accepted) (here.symm ▸ listed)
  rw [here] at settled
  exact ⟨w'', id'', again, same.trans settled.rearranged⟩

/-- The second inlining succeeds and marks the constants that are left. -/
theorem exists_inline_again [Importer] (isInline : s.pass = .inline)
    (pruning : s.prune.truth? = some true) (tidy : (w.graph id).Tidy) :
    ∃ w' id', w.runStep quantizer id s = (w', .ok id') ∧
      ((w.graph id).marked ((w.graph id).constants (w.graph id).order)).SameContent
        (w'.graph id') := by
  obtain ⟨ops, found⟩ := Graph.exists_found tidy.sorted (List.Subset.refl _)
  have applied : w.apply quantizer id s.pass =
      (w.marked ((w.graph id).constants (w.graph id).order), .ok id) := by
    rw [isInline]
    show w.inlineConstants id = _
    rw [inlineConstants_eq, found]
    rfl
  have here := graph_marked w id ((w.graph id).constants (w.graph id).order)
  generalize (w.graph id).constants (w.graph id).order = numbers at applied here ⊢
  have sorted : ((w.graph id).marked numbers).sorted = .ok (w.graph id).order := by
    rw [Graph.sorted_of_wires ((w.graph id).wires_marked numbers) rfl, tidy.sorted]
  have listed : ∀ op ∈ ((w.graph id).marked numbers).ops, op.name ∈ (w.graph id).order := by
    intro op' member
    obtain ⟨op, inside, rfl⟩ := List.mem_map.mp member
    rw [Operation.marked_name]
    exact tidy.listed op inside
  obtain ⟨w', id', run, settled⟩ := exists_runStep_of_applied pruning applied
    (here.symm ▸ sorted) (here.symm ▸ tidy.accepted.marked numbers) (here.symm ▸ listed)
  rw [here] at settled
  exact ⟨w', id', run, settled⟩

/-- A constant that was in the order has been marked. -/
theorem noConstants_of_inline [Importer] (isInline : s.pass = .inline)
    (pruning : s.prune.truth? = some true) (run : w.runStep quantizer id s = (w', .ok id'))
    (lists : (w.graph id).ListsConstants) :
    (w'.graph id').NoConstants := by
  obtain ⟨w₁, id₁, names, applied, sorted, left, tidy⟩ := tidy_of_runStep pruning run
  rw [isInline] at applied
  have inlined : w.inlineConstants id = (w₁, .ok id₁) := applied
  rw [inlineConstants_eq, Prod.mk.injEq, map_eq_ok_iff] at inlined
  obtain ⟨rfl, ops, found, rfl⟩ := inlined
  rw [graph_marked] at sorted left
  intro name op' found' isConst
  have order : (w'.graph id').order = names := left.order
  have listed : name ∈ names := order ▸ tidy.listed_of_find? found'
  obtain ⟨op₁, found₁⟩ := (Graph.ordered_of_sorted sorted).found listed
  have reached := (Graph.mem_sorted_iff sorted name).mp listed
  obtain ⟨_, here, alike⟩ := left.find? reached found₁
  cases found'.symm.trans here
  rw [Graph.find?_marked, Option.map_eq_some_iff] at found₁
  obtain ⟨op, found₀, rfl⟩ := found₁
  have isConst' : (op.marked _).type = "Const" := alike.type.symm.trans isConst
  by_cases marked : op.id ∈ (w.graph id).constants (w.graph id).order
  · rw [Operation.marked_of_mem marked] at isConst'
    exact absurd (show "Inline" = "Const" from isConst') (by decide)
  · rw [Operation.marked_of_notMem marked] at isConst'
    have needed := (Graph.reachable_congr ((w.graph id).wires_marked _) rfl name).mp reached
    exact marked (Graph.mem_constants found (lists name needed op found₀ isConst') found₀ isConst')

/-- Removing dropout and inlining constants again. After a step that prunes, the second run succeeds
and gives the same order, outputs and backend. It gives the same operations, up to their
arrangement, after every removal of dropout, and after inlining if the order listed all constants
that the outputs need, as it does after sorting. For inlining this comes down to whether the first
run left a constant that is still to be marked. -/
theorem second_run_rearranges [Importer] (known : s.pass = .dropout ∨ s.pass = .inline)
    (pruning : s.prune.truth? = some true) (run : w.runStep quantizer id s = (w', .ok id')) :
    ∃ w'' id'', w'.runStep quantizer id' s = (w'', .ok id'') ∧
      (w''.graph id'').order = (w'.graph id').order ∧
      (w''.graph id'').outputs = (w'.graph id').outputs ∧
      (w''.graph id'').backend = (w'.graph id').backend ∧
      ((s.pass = .inline → (w.graph id).ListsConstants) →
        (w'.graph id').Rearranged (w''.graph id'')) ∧
      ((w'.graph id').Rearranged (w''.graph id'') ↔
        (s.pass = .inline → (w'.graph id').NoConstants)) := by
  rcases known with isDropout | isInline
  · obtain ⟨w'', id'', again, same⟩ := exists_dropout_again isDropout pruning run
    refine ⟨w'', id'', again, same.order, same.outputs, same.backend, fun _ => same,
      fun _ isInline => ?_, fun _ => same⟩
    rw [isDropout] at isInline
    cases isInline
  · obtain ⟨_, _, _, _, _, _, tidy⟩ := tidy_of_runStep pruning run
    obtain ⟨w'', id'', again, settled⟩ := exists_inline_again isInline pruning tidy
    have same : (w'.graph id').NoConstants → (w'.graph id').Rearranged (w''.graph id'') := by
      intro none
      rw [none.constants, Graph.marked_nil] at settled
      exact settled.rearranged
    refine ⟨w'', id'', again, settled.order, settled.outputs, settled.backend, fun lists => ?_,
      fun kept _ => tidy.noConstants settled kept, fun none => same (none isInline)⟩
    exact same (noConstants_of_inline isInline pruning run (lists isInline))

attribute [local instance] Importer.strict

theorem second_run_rearranges_constantSum : ∃ w' w'' : Workspace, ∃ id'',
    (constantSum.graph 0).ListsConstants ∧
    constantSum.runStep (fun h => .ok h.nodes) 0 Pass.inline.plain = (w', .ok 1) ∧
    (w'.graph 1).ops.map Operation.type = ["Inline", "Add"] ∧
    w'.runStep (fun h => .ok h.nodes) 1 Pass.inline.plain = (w'', .ok id'') ∧
    (w'.graph 1).Rearranged (w''.graph id'') := by
  have lists : (constantSum.graph 0).ListsConstants := Graph.listsConstants_of_sorted rfl
  have run : constantSum.runStep (fun h => .ok h.nodes) 0 Pass.inline.plain =
      ((constantSum.runStep (fun h => .ok h.nodes) 0 Pass.inline.plain).1, .ok 1) := rfl
  obtain ⟨w'', id'', again, _, _, _, same, _⟩ := second_run_rearranges (.inr rfl) rfl run
  exact ⟨_, w'', id'', lists, run, rfl, again, same fun _ => lists⟩

/-- The graph that adds a constant to itself, built one operation at a time and not sorted. -/
def unsortedConstantSum : Workspace :=
  (Workspace.empty.build tensorBackend ["sum"]
    [{ addition "one" [] with type := "Const" },
      addition "sum" [("one:0", "one"), ("one:0", "one")]] false).1

/-- With an empty order the first run finds no constant to mark, and the second one does. -/
theorem second_inline_marks_unsortedConstantSum :
    let first := unsortedConstantSum.runStep (fun h => .ok h.nodes) 0 Pass.inline.plain
    let second := first.1.runStep (fun h => .ok h.nodes) 1 Pass.inline.plain
    first.2 = .ok 1 ∧ second.2 = .ok 2 ∧
    (first.1.graph 1).order = ["one", "sum"] ∧ (second.1.graph 2).order = ["one", "sum"] ∧
    (first.1.graph 1).ops.map Operation.type = ["Const", "Add"] ∧
    (second.1.graph 2).ops.map Operation.type = ["Inline", "Add"] :=
  ⟨rfl, rfl, rfl, rfl, rfl, rfl⟩

end Workspace

end TensorEmit
