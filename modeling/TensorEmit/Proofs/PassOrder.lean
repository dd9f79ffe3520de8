import TensorEmit.Proofs.Annotation
import TensorEmit.Proofs.ContentEmission
import TensorEmit.Proofs.Importing
import TensorEmit.Proofs.Rendering

/-!
# Inlining and counting in either order

Counting references looks at the types that inlining changes, so the order of the two passes shows
in the notes on inlined constants: a constant need not be evaluated at once, but what inlining has
made of it must. Emission does not look at that note of an inlined constant (`Operation.emitted`),
and all else that the two passes do is the same in either order
(`Graph.emitted_annotate_marked`).

Counting does not prune and inlining does. After dropout has been removed there is nothing to prune,
so neither of the two passes can fail (`Graph.Ready`).
-/

namespace TensorEmit

open Code

/-! ## What emission reads of an operation -/

namespace Entries

variable {κ α : Type} [DecidableEq κ]

theorem get?_remove_of_ne (es : Entries κ α) {k l : κ} (other : l ≠ k) :
    (es.remove k).get? l = es.get? l := by
  unfold remove
  induction es with
  | nil => rfl
  | cons e rest ih =>
    obtain ⟨k', v⟩ := e
    by_cases here : k' = k
    · rw [List.filter_cons_of_neg (by simp [here]), ih, get?, if_neg]
      rw [here]
      exact other.symm
    · rw [List.filter_cons_of_pos (by simp [here]), get?, get?, ih]

theorem remove_set_self (es : Entries κ α) (k : κ) (v : α) :
    (es.set k v).remove k = es.remove k := by
  have kept := filter_set (fun key => decide (key ≠ k)) es k v
  rwa [if_neg (by simp)] at kept

theorem remove_set_of_ne (es : Entries κ α) {k l : κ} (v : α) (other : l ≠ k) :
    (es.set l v).remove k = (es.remove k).set l v := by
  have kept := filter_set (fun key => decide (key ≠ k)) es l v
  rwa [if_pos (by simp [other])] at kept

end Entries

namespace Options

theorem shared_file (o : Options) (key : String) (v : Value) :
    (o.file key v).shared =
      match optionPlace o.scope key with
      | .shared => o.shared.set key v
      | .own _ => o.shared := by
  unfold file
  cases optionPlace o.scope key with
  | shared => rfl
  | own name => rfl

/-- Without an own option all others are found as with it. -/
theorem get?_ofEntries_remove {scope key own name : String}
    (place : optionPlace scope key = .own (some own)) (other : name ≠ own)
    (es : Entries String Value) :
    (ofEntries scope (es.remove key)).get? name = (ofEntries scope es).get? name := by
  -- What is filed under the name is the same after every round; nothing else is.
  have fold : ∀ (es : Entries String Value) (o o' : Options), o.scope = scope → o'.scope = scope →
      o'.own.get? (some name) = o.own.get? (some name) → o'.shared.get? name = o.shared.get? name →
      ((es.remove key).foldl (fun o e => o.file e.1 e.2) o').get? name =
        (es.foldl (fun o e => o.file e.1 e.2) o).get? name := by
    intro es
    unfold Entries.remove
    induction es with
    | nil =>
      intro o o' _ _ own shared
      unfold Options.get?
      rw [List.filter_nil, List.foldl_nil, List.foldl_nil, own, shared]
    | cons e es ih =>
      intro o o' at_ at' own shared
      by_cases here : e.1 = key
      · rw [List.filter_cons_of_neg (by simp [here]), List.foldl_cons]
        refine ih _ _ ?_ at' ?_ ?_
        · rw [scope_file, at_]
        · rw [own_file, at_, here, place]
          exact own.trans (Entries.get?_set_of_ne _ _ (by simp [other])).symm
        · rw [shared_file, at_, here, place]
          exact shared
      · rw [List.filter_cons_of_pos (by simp [here]), List.foldl_cons, List.foldl_cons]
        refine ih _ _ ?_ ?_ ?_ ?_
        · rw [scope_file, at_]
        · rw [scope_file, at']
        · rw [own_file, own_file, at_, at']
          cases optionPlace scope e.1 with
          | shared => exact own
          | own filed =>
            by_cases same : some name = filed
            · rw [same, Entries.get?_set_self, Entries.get?_set_self]
            · rw [Entries.get?_set_of_ne _ _ same, Entries.get?_set_of_ne _ _ same, own]
        · rw [shared_file, shared_file, at_, at']
          cases optionPlace scope e.1 with
          | own _ => exact shared
          | shared =>
            by_cases same : name = e.1
            · rw [same, Entries.get?_set_self, Entries.get?_set_self]
            · rw [Entries.get?_set_of_ne _ _ same, Entries.get?_set_of_ne _ _ same, shared]
  exact fold es _ _ rfl rfl rfl rfl

end Options

namespace Operation

/-- The operation without the note on its evaluation. -/
def unevaluated (op : Operation) : Operation := { op with attrs := op.attrs.remove evaluateKey }

/-- What emission reads of an operation: its content, and of an inlined constant without the note on
its evaluation. -/
def emitted (op : Operation) : Operation :=
  if op.type = "Inline" then op.unevaluated.content else op.content

theorem useCount_unevaluated (op : Operation) : op.unevaluated.useCount = op.useCount := by
  unfold useCount notes Options.getD unevaluated
  dsimp only
  rw [Options.get?_ofEntries_remove optionPlace_evaluateKey (by decide)]

theorem attr_unevaluated (op : Operation) : op.unevaluated.attr "value" = op.attr "value" := by
  unfold attr unevaluated
  dsimp only
  rw [Entries.get?_remove_of_ne _ (by decide)]

end Operation

theorem emitInline_unevaluated (target : Target) (op : Operation) :
    emitInline target op.unevaluated = emitInline target op := by
  unfold emitInline
  rw [op.useCount_unevaluated, op.attr_unevaluated]
  rfl

theorem addOperation_of_inline (target : Target) (d : Draft) (op : Operation)
    (isInline : op.type = "Inline") :
    addOperation target d op = emitInline target op >>= addMember d := by
  have other : ("Inline" : String) ≠ inputType := by decide
  have kind : OperatorKind.ofType? "Inline" = some .inline := by decide
  unfold addOperation emitOperation
  rw [isInline, if_neg other, kind]

/-- What is emitted for an operation can be read off it without the note. -/
theorem addOperation_emitted (target : Target) (d : Draft) (op : Operation) :
    addOperation target d op.emitted = addOperation target d op := by
  unfold Operation.emitted
  split
  · rename_i isInline
    rw [addOperation_content, addOperation_of_inline target d op isInline,
      addOperation_of_inline target d op.unevaluated isInline, emitInline_unevaluated]
  · exact addOperation_content target d op

/-! ## Both passes on one operation -/

namespace Graph

/-- The graph with notes on all operations. -/
def annotated (g : Graph) : Graph := g.mapOps g.annotate

/-- The graph with its constants inlined. -/
def inlined (g : Graph) : Graph := g.marked (g.constants g.order)

variable {g g' : Graph}

/-- Notes depend on the wires and outputs of a graph only. -/
theorem annotate_congr (wires : g'.wires = g.wires) (outputs : g'.outputs = g.outputs)
    (op : Operation) : g'.annotate op = g.annotate op := by
  unfold annotate evaluatesAtOnce
  simp only [uses_congr wires, outputs]

/-- Notes on an operation that is a part of the program text differ from those on the constant that
it was in nothing that is emitted. -/
theorem emitted_annotate_marked (g : Graph) (numbers : List Nat) (op : Operation) :
    ((g.marked numbers).annotate (op.marked numbers)).emitted =
      ((g.annotate op).marked numbers).emitted := by
  rw [annotate_congr (g.wires_marked numbers) rfl]
  by_cases member : op.id ∈ numbers
  · have noted : (g.annotate op).id ∈ numbers := member
    rw [Operation.marked_of_mem member, Operation.marked_of_mem noted]
    have kept : ∀ v v' : Value, ((op.attrs.set evaluateKey v).set countsKey v').remove evaluateKey =
        (op.attrs.remove evaluateKey).set countsKey v' := by
      intro v v'
      rw [Entries.remove_set_of_ne _ _ (by decide), Entries.remove_set_self]
    unfold annotate Operation.emitted Operation.unevaluated
    dsimp only
    rw [if_pos rfl, if_pos rfl, kept, kept]
  · have noted : (g.annotate op).id ∉ numbers := member
    rw [Operation.marked_of_notMem member, Operation.marked_of_notMem noted]

theorem find?_annotated (g : Graph) (name : String) :
    g.annotated.find? name = (g.find? name).map g.annotate :=
  g.find?_mapOps (f := g.annotate) (fun _ => rfl) name

theorem constants_annotated (g : Graph) (names : List String) :
    g.annotated.constants names = g.constants names := by
  induction names with
  | nil => rfl
  | cons name rest ih =>
    rw [constants, constants, find?_annotated, ih]
    cases g.find? name with
    | none => rfl
    | some op => rfl

/-- Inlining and counting commute as far as emission can tell. -/
theorem sameEmission_annotated_inlined (g : Graph) :
    g.annotated.inlined.SameEmission g.inlined.annotated := by
  intro target comments d
  have order : g.inlined.annotated.order = g.annotated.inlined.order := rfl
  rw [order]
  refine addOperations_congr_of_view addOperation_emitted (fun name _ => ?_) target comments 0 d
  have numbers : g.annotated.constants g.annotated.order = g.constants g.order :=
    g.constants_annotated g.order
  rw [find?_annotated, inlined, inlined, find?_marked, find?_marked, find?_annotated, numbers]
  simp only [Option.map_map]
  exact congrArg (fun f => (g.find? name).map f)
    (funext fun op => g.emitted_annotate_marked (g.constants g.order) op)

/-! ## Graphs on which neither pass can fail -/

/-- A graph as pruning leaves it: in order, without a spare operation, and such that it can be
copied. -/
structure Ready (g : Graph) : Prop where
  sorted : g.sorted = .ok g.order
  listed : ∀ op ∈ g.ops, op.name ∈ g.order
  stored : g.Stored
  shaped : g.Shaped

/-- Changes that keep wires, stored attributes and tensors keep a graph ready. -/
theorem Ready.mapOps (ready : g.Ready) {f : Operation → Operation}
    (names : ∀ op, (f op).name = op.name) (tensors : ∀ op, (f op).inputs = op.inputs ∧
      (f op).outputs = op.outputs)
    (stored : ∀ op ∈ g.ops, storedAttrs (f op).attrs = .ok (f op).attrs) : (g.mapOps f).Ready where
  sorted := by
    rw [sorted_of_wires (wires_mapOps fun op => ⟨names op, (tensors op).1⟩) rfl]
    exact ready.sorted
  listed op' member := by
    obtain ⟨op, inside, rfl⟩ := List.mem_map.mp member
    rw [names]
    exact ready.listed op inside
  stored op' member := by
    obtain ⟨op, inside, rfl⟩ := List.mem_map.mp member
    exact stored op inside
  shaped op' member := by
    obtain ⟨op, inside, rfl⟩ := List.mem_map.mp member
    have same : (f op).tensors = op.tensors := by
      unfold Operation.tensors
      rw [(tensors op).1, (tensors op).2]
    unfold Operation.Shaped
    rw [same]
    exact ready.shaped op inside

theorem Ready.annotated (ready : g.Ready) : g.annotated.Ready := by
  refine ready.mapOps (fun _ => rfl) (fun _ => ⟨rfl, rfl⟩) fun op member => ?_
  have kept : ∀ key v, Text.startsWith privateMark key → storedAttr (key, v) = .ok (key, v) := by
    intro key v isPrivate
    rw [storedAttr_eq_ok_iff, if_pos isPrivate]
  exact storedAttrs_set_of_kept
    (storedAttrs_set_of_kept (ready.stored op member) (kept evaluateKey _ (by decide)))
    (kept countsKey _ (by decide))

theorem Ready.inlined (ready : g.Ready) : g.inlined.Ready := by
  refine ready.mapOps (Operation.marked_name _) (fun op => ?_) fun op member => ?_
  · unfold Operation.marked
    split
    · exact ⟨rfl, rfl⟩
    · exact ⟨rfl, rfl⟩
  · have stored := ready.stored op member
    unfold Operation.marked
    split
    · exact stored
    · exact stored

theorem Renumbered.ready {k k' : Nat} (same : g.Renumbered k k' g') (ready : g.Ready) :
    g'.Ready where
  sorted := by
    rw [sorted_congr same.outputs fun name _ => same.sameAt name, ready.sorted, same.order]
  listed op' member := by
    obtain ⟨op, inside, both⟩ := exists_left_of_forall₂ same.ops member
    rw [Operation.name_of_content both.content, same.order]
    exact ready.listed op inside
  stored op' member := by
    obtain ⟨op, inside, both⟩ := exists_left_of_forall₂ same.ops member
    rw [Operation.attrs_of_content both.content]
    exact ready.stored op inside
  shaped op' member := by
    obtain ⟨op, inside, both⟩ := exists_left_of_forall₂ same.ops member
    exact Operation.shaped_of_content both.content (ready.shaped op inside)

/-- What was pruned is ready. -/
theorem Trims.ready {base : Nat} {id : GraphId} {c : Graph} (trims : g.Trims g')
    (sorted : g.sorted = .ok g.order) (sorted' : g'.sorted = .ok g'.order) (stored : g.Stored)
    (copy : g.copy base id = .ok c) : g'.Ready where
  sorted := sorted'
  listed op member := by
    rw [trims.order, ← trims.mem_names_iff (ordered_of_sorted sorted)]
    exact List.mem_map_of_mem member
  stored := trims.stored stored
  shaped := trims.shaped ((exists_copy_iff stored).mp ⟨c, copy⟩)

theorem Ready.noted (ready : g.Ready) : g.noted = g.annotated := by
  unfold Graph.noted Graph.annotated Graph.mapOps
  rw [List.map_congr_left fun op member => noteOn_of_mem (ready.listed op member)]

theorem Ready.pruned (ready : g.Ready) : g.pruned = .ok g := by
  obtain ⟨h, pruned, rfl, _⟩ := exists_pruned_of_sorted ready.sorted
  rw [pruned]
  have whole : g.ops.filter (fun op => op.name ∈ g.order) = g.ops :=
    List.filter_eq_self.mpr fun op member => decide_eq_true (ready.listed op member)
  rw [whole]

theorem Ready.accepted (ready : g.Ready) : g.Accepted :=
  accepted_iff.mpr ⟨ready.stored, ready.shaped⟩

/-! ### Other numbers -/

theorem Renumbered.annotated {k k' : Nat} (same : g.Renumbered k k' g') :
    g.annotated.Renumbered k k' g'.annotated :=
  same.mapOps fun _ _ both => same.annotate both

theorem Renumbered.inlined {k k' : Nat} (same : g.Renumbered k k' g') :
    g.inlined.Renumbered k k' g'.inlined := by
  have read : ∀ h : Graph, (Workspace.empty.add h).graph 0 = h := fun h =>
    Workspace.graph_add Workspace.empty h
  have start : ((Workspace.empty.add g).graph 0).Renumbered k k'
      ((Workspace.empty.add g').graph 0) := by
    rw [read, read]
    exact same
  have both := (Workspace.agrees_inlineAll start g.order).1
  rw [Workspace.inlineAll_eq, Workspace.inlineAll_eq, Workspace.graph_marked,
    Workspace.graph_marked, read, read] at both
  unfold Graph.inlined
  rwa [same.order]

theorem Renumbered.sameEmission {k k' : Nat} (same : g.Renumbered k k' g') : g.SameEmission g' :=
  same.sameLive.sameEmission

end Graph

/-! ## Both passes in a workspace -/

namespace Workspace

variable {w w' : Workspace} {id id' : GraphId}

/-- Pruning a graph without spare operations makes a copy. -/
theorem exists_prune_of_ready (ready : (w.graph id).Ready) :
    ∃ w' id' k k', w.prune id = (w', .ok id') ∧ (w.graph id).Renumbered k k' (w'.graph id') := by
  obtain ⟨c, copied, same⟩ := ready.accepted.exists_copy w.next w.nextGraph
  have pruned := same.pruned
  rw [ready.pruned] at pruned
  generalize left : c.pruned = x at pruned
  cases pruned with
  | @ok _ g' kept =>
    obtain ⟨w', id', run, here⟩ := exists_prune copied left
    exact ⟨w', id', _, _, run, here ▸ kept⟩

/-- Counting on a graph without spare operations succeeds and leaves notes on all of them. -/
theorem exists_runStep_refCount [Importer] (quantizer : Quantizer) (ready : (w.graph id).Ready) :
    ∃ w' id' k k', w.runStep quantizer id Pass.refCount.plain = (w', .ok id') ∧
      (w.graph id).annotated.Renumbered k k' (w'.graph id') := by
  obtain ⟨g', run, same⟩ := runStep_refCount quantizer ready.accepted ready.sorted
  refine ⟨_, _, w.next, 0, run, ?_⟩
  rw [graph_reserve, graph_add, ← ready.noted]
  exact same

/-- Inlining in a graph without spare operations succeeds and marks its constants. -/
theorem exists_runStep_inline [Importer] (quantizer : Quantizer) (ready : (w.graph id).Ready) :
    ∃ w' id' k k', w.runStep quantizer id Pass.inline.plain = (w', .ok id') ∧
      (w.graph id).inlined.Renumbered k k' (w'.graph id') := by
  obtain ⟨ops, found⟩ := Graph.exists_found ready.sorted (List.Subset.refl _)
  have here : (w.marked ((w.graph id).constants (w.graph id).order)).graph id =
      (w.graph id).inlined := graph_marked w id _
  have marked := ready.inlined
  rw [← here] at marked
  obtain ⟨w', id', k, k', pruned, same⟩ := exists_prune_of_ready marked
  rw [here] at same
  refine ⟨w', id', k, k', ?_, same⟩
  rw [← pruned]
  simp only [runStep, Pass.plain, apply, inlineConstants_eq, found, Except.map,
    sort_in_order marked.sorted]
  rfl

theorem run_pair [Importer] {quantizer : Quantizer} {s s' : PassStep} {w₁ w₂ : Workspace}
    {id₁ id₂ : GraphId} (first : w.runStep quantizer id s = (w₁, .ok id₁))
    (second : w₁.runStep quantizer id₁ s' = (w₂, .ok id₂)) :
    w.run quantizer id [s, s'] = (w₂, .ok id₂) := by
  simp only [run, first, second]

/-- On a graph without spare operations counting and inlining succeed in either order, and the two
graphs that come of it are emitted alike. -/
theorem run_in_either_order [Importer] (quantizer : Quantizer) (ready : (w.graph id).Ready) :
    ∃ w₁ id₁ w₂ id₂,
      w.run quantizer id [Pass.refCount.plain, Pass.inline.plain] = (w₁, .ok id₁) ∧
      w.run quantizer id [Pass.inline.plain, Pass.refCount.plain] = (w₂, .ok id₂) ∧
      (w₁.graph id₁).SameEmission (w₂.graph id₂) := by
  obtain ⟨wc, c, _, _, counting, counted⟩ := exists_runStep_refCount quantizer ready
  obtain ⟨w₁, id₁, _, _, inlining, first⟩ :=
    exists_runStep_inline quantizer (counted.ready ready.annotated)
  obtain ⟨wm, m, _, _, inlining', marked⟩ := exists_runStep_inline quantizer ready
  obtain ⟨w₂, id₂, _, _, counting', second⟩ :=
    exists_runStep_refCount quantizer (marked.ready ready.inlined)
  refine ⟨w₁, id₁, w₂, id₂, run_pair counting inlining, run_pair inlining' counting', ?_⟩
  intro target comments d
  rw [second.sameEmission, marked.annotated.sameEmission,
    (w.graph id).sameEmission_annotated_inlined, ← counted.inlined.sameEmission,
    ← first.sameEmission]

/-- Removing dropout leaves no spare operations, since it prunes. -/
theorem ready_of_dropout [Importer] {quantizer : Quantizer}
    (run : w.runStep quantizer id Pass.dropout.plain = (w', .ok id')) : (w'.graph id').Ready := by
  cases outcome_of_runStep run with
  | sorted _ _ keep => cases keep
  | @pruned w₁ w₂ id₁ _ applied sorts _ made =>
    have order := graph_of_sort sorts
    have sorted := Graph.sorted_of_sort order
    have stored : (w₂.graph id₁).Stored := by
      cases applied_of_apply applied with
      | dropout removed =>
        obtain ⟨names, _, here⟩ := Graph.sort_eq_ok_iff.mp order
        have stored := Graph.stored_of_dropoutRemoved removed
        rw [← here]
        exact stored
    obtain ⟨c, copied, pruned⟩ := copied_of_prune made
    obtain ⟨g', pruned', trims, sorted'⟩ := Graph.trims_of_copy sorted stored copied
    cases pruned.symm.trans pruned'
    exact trims.ready sorted sorted' stored copied

end Workspace

/-! ## Pipelines -/

/-- Nothing but the usual pruning is asked for after a pass. -/
def Pass.PrunesAsUsual (p : Pass) (given : Entries String Value) : Prop :=
  (Options.ofEntries p.scope given).getD "prune_graph" (.bool true) = .bool true

/-- The request with other passes. -/
def Request.asking (r : Request) (passes : List Pass) : Request :=
  { r with methods := .list (passes.map fun p => .text p.method) }

theorem Pipeline.ofMethods_asking (r : Request) (passes : List Pass) :
    Pipeline.ofMethods (r.asking passes).methods r.options =
      passes.mapM fun p => p.configure r.options := by
  have one : ∀ p : Pass, (Pass.ofValue (.text p.method) >>= fun p => p.configure r.options) =
      p.configure r.options := by
    intro p
    cases p <;> rfl
  change ((passes.map fun p => Value.text p.method).mapM fun m =>
    Pass.ofValue m >>= fun p => p.configure r.options) = _
  rw [List.mapM_map]
  exact congrArg (passes.mapM ·) (funext one)

/-- A pass with the usual pruning is configured as without options, unless these clash with what
every pass is given. -/
theorem Pass.configure_cases {p : Pass} {given : Entries String Value}
    (usual : p = .refCount ∨ p.PrunesAsUsual given) :
    p.configure given = .ok p.plain ∨ p.configure given = .error .unfit := by
  unfold Pass.configure
  dsimp only
  split
  · exact .inr rfl
  · refine .inl ?_
    cases p with
    | refCount => rfl
    | _ =>
      rcases usual with other | usual
      · cases other
      · unfold PrunesAsUsual at usual
        dsimp only
        rw [usual]
        rfl

section EitherOrder

variable {r : Request} (dropout : Pass.dropout.PrunesAsUsual r.options)
  (inline : Pass.inline.PrunesAsUsual r.options)

include dropout inline

theorem Pipeline.ofMethods_in_either_order :
    (Pipeline.ofMethods (r.asking [.dropout, .refCount, .inline]).methods r.options =
        .ok [Pass.dropout.plain, Pass.refCount.plain, Pass.inline.plain] ∧
      Pipeline.ofMethods (r.asking [.dropout, .inline, .refCount]).methods r.options =
        .ok [Pass.dropout.plain, Pass.inline.plain, Pass.refCount.plain]) ∨
    (Pipeline.ofMethods (r.asking [.dropout, .refCount, .inline]).methods r.options =
        .error .unfit ∧
      Pipeline.ofMethods (r.asking [.dropout, .inline, .refCount]).methods r.options =
        .error .unfit) := by
  rw [ofMethods_asking, ofMethods_asking]
  simp only [List.mapM_cons, List.mapM_nil]
  have counts : Pass.refCount.configure r.options = .ok Pass.refCount.plain ∨
      Pass.refCount.configure r.options = .error .unfit := Pass.configure_cases (.inl rfl)
  rcases Pass.configure_cases (.inr dropout) with first | first
  · rcases Pass.configure_cases (.inr inline) with second | second
    · rcases counts with third | third
      · exact .inl (by rw [first, second, third]; exact ⟨rfl, rfl⟩)
      · exact .inr (by rw [first, second, third]; exact ⟨rfl, rfl⟩)
    · rcases counts with third | third
      · exact .inr (by rw [first, second, third]; exact ⟨rfl, rfl⟩)
      · exact .inr (by rw [first, second, third]; exact ⟨rfl, rfl⟩)
  · exact .inr (by rw [first]; exact ⟨rfl, rfl⟩)

/-- After dropout is removed, inlining and counting in either order fail alike on some nodes or make
graphs of them that are emitted alike. -/
theorem passedGraph_in_either_order [Importer] (quantizer : Quantizer) (nodes : List Node) :
    (∃ f, passedGraph quantizer (r.asking [.dropout, .refCount, .inline]) nodes = .error f ∧
      passedGraph quantizer (r.asking [.dropout, .inline, .refCount]) nodes = .error f) ∨
    ∃ g g', passedGraph quantizer (r.asking [.dropout, .refCount, .inline]) nodes =
        .ok (g, ["dropout", "refcnt", "inline"]) ∧
      passedGraph quantizer (r.asking [.dropout, .inline, .refCount]) nodes =
        .ok (g', ["dropout", "inline", "refcnt"]) ∧ g.SameEmission g' := by
  have outputs : ∀ passes, (r.asking passes).outputs = r.outputs := fun _ => rfl
  have options : ∀ passes, (r.asking passes).options = r.options := fun _ => rfl
  have names : (r.asking [.dropout, .refCount, .inline]).methodNames =
      .ok ["dropout", "refcnt", "inline"] := rfl
  have names' : (r.asking [.dropout, .inline, .refCount]).methodNames =
      .ok ["dropout", "inline", "refcnt"] := rfl
  unfold passedGraph
  rw [names, names', outputs, outputs, options, options]
  cases Workspace.reached (Workspace.empty.ofNodes nodes r.outputs) with
  | error f => exact .inl ⟨f, rfl, rfl⟩
  | ok read =>
    obtain ⟨w, id⟩ := read
    simp only [ok_bind]
    rcases Pipeline.ofMethods_in_either_order dropout inline with ⟨first, second⟩ | ⟨first, second⟩
    · rw [first, second]
      simp only [ok_bind]
      rw [Workspace.run, Workspace.run]
      rcases removed : w.runStep quantizer id Pass.dropout.plain with ⟨w', result⟩
      cases result with
      | error f => exact .inl ⟨f, rfl, rfl⟩
      | ok id' =>
        obtain ⟨w₁, id₁, w₂, id₂, counted, inlined, alike⟩ :=
          Workspace.run_in_either_order quantizer (Workspace.ready_of_dropout removed)
        dsimp only
        rw [counted, inlined]
        exact .inr ⟨_, _, rfl, rfl, alike⟩
    · rw [first, second]
      exact .inl ⟨.unfit, rfl, rfl⟩

end EitherOrder

/-! ## Whole runs -/

namespace Pairing

/-- Two runs on the same disk, whatever they write to the log. -/
def unlogged : Pairing where
  site s s' := s.disk = s'.disk
  sets := Eq
  weights := Eq
  fault := Eq

theorem unlogged_onDisk (f : Disk → Disk × Except Fault Unit) :
    unlogged.Jobs Eq (Job.onDisk f) (Job.onDisk f) := by
  intro s s' paired
  have same : s.disk = s'.disk := paired
  rw [← Job.runOn_eq_outcome, ← Job.runOn_eq_outcome, Job.runOn_onDisk, Job.runOn_onDisk, same]
  cases (f s'.disk).2 with
  | ok _ => exact .ok rfl rfl
  | error fault => exact .error ⟨rfl, rfl⟩

theorem unlogged_lawful : unlogged.Lawful where
  toLawfulSets := .of_eq rfl rfl
  refl _ := rfl
  logged _ _ _ _ kept := kept
  write _ _ := unlogged_onDisk _

theorem unlogged_transforms [Importer] {r : Request}
    (dropout : Pass.dropout.PrunesAsUsual r.options) (inline : Pass.inline.PrunesAsUsual r.options)
    (quantizer : Quantizer) (model : String) :
    unlogged.TransformsAlike quantizer (r.asking [.dropout, .refCount, .inline])
      (r.asking [.dropout, .inline, .refCount]).methods model := by
  refine Steps.of_sameFiles ?_ (fun e => (transformedGraph_spec _ _ _ e).1)
    (fun e => (transformedGraph_spec _ _ _ e).1) fun e e' paired => ?_
  · intro e e' e₁ e₁' paired kept kept'
    exact ⟨kept.disk.trans (paired.site.trans kept'.disk.symm),
      kept.sets.trans (paired.sets.trans kept'.sets.symm),
      kept.weights.trans (paired.weights.trans kept'.weights.symm)⟩
  · have disk : e.site.disk = e'.site.disk := paired.site
    rw [(transformedGraph_spec _ _ _ e).2, (transformedGraph_spec _ _ _ e').2, disk]
    cases e'.site.disk.read model >>= Content.nodes with
    | error f => exact .inl ⟨f, f, rfl, rfl, rfl⟩
    | ok nodes =>
      simp only [ok_bind]
      rcases passedGraph_in_either_order dropout inline quantizer nodes with
        ⟨f, failed, failed'⟩ | ⟨g, g', made, made', alike⟩
      · exact .inl ⟨f, f, failed, failed', rfl⟩
      · exact .inr ⟨_, _, made, made', alike, rfl⟩

end Pairing

/-- After dropout has been removed, it does not show in a program whether constants are inlined
before references are counted or the other way round. The two runs end alike, with the same fault if
there is one, and leave the same files and the same headers. -/
theorem generated_in_either_order [Importer] {r : Request}
    (dropout : Pass.dropout.PrunesAsUsual r.options) (inline : Pass.inline.PrunesAsUsual r.options)
    (quantizer : Quantizer) (source : Value) (e : Emission) :
    let run := (generate quantizer (r.asking [.dropout, .refCount, .inline]) source).runOn e
    let run' := (generate quantizer (r.asking [.dropout, .inline, .refCount]) source).runOn e
    run'.2 = run.2 ∧ run'.1.site.disk = run.1.site.disk ∧ run'.1.sets = run.1.sets := by
  intro run run'
  have lawful := Pairing.unlogged_lawful
  have both : Parallel Pairing.unlogged.beforeWeights.Failures
      Pairing.unlogged.beforeWeights.States Pairing.unlogged.States Eq
      (generate quantizer (r.asking [.dropout, .refCount, .inline]) source)
      (generate quantizer (r.asking [.dropout, .inline, .refCount]) source) := by
    refine lawful.generate_alike rfl (fun _ _ failed => failed)
      (fun path => Pairing.unlogged_onDisk _)
      (fun model => Pairing.unlogged_transforms dropout inline quantizer model)
      fun model path methods d _ _ _ => ?_
    exact (lawful.writeAll rfl rfl _ (.of model path) d).within
      fun _ _ failed => failed.beforeWeights
  have ended := both e e ⟨rfl, rfl, trivial⟩
  change Matched _ _ _ run run' at ended
  revert ended
  generalize run = x, run' = y
  intro ended
  cases ended with
  | ok states _ => exact ⟨rfl, states.site.symm, states.sets.symm⟩
  | error failed => exact ⟨congrArg Except.error failed.2.symm, failed.1.site.symm,
      failed.1.sets.symm⟩

/-! ## The sum of a constant and itself -/

/-- The sum of a constant and itself. -/
def doubledConstant : List Node :=
  [⟨"one", "Const", [], .text "",
     [("value", .wireAttr (some "tensor") (.wireTensor (.array ⟨.int32, [1], [1]⟩)))],
     [⟨.int32, some [.int 1]⟩]⟩,
   ⟨"y", "Add", ["one", "one"], .text "", [], [⟨.int32, some [.int 1]⟩]⟩]

/-- The graph of these nodes after both passes, with either note on the constant. -/
def doubledConstantGraph (evaluated : Bool) : Graph :=
  let tensor (id : Nat) (name : String) : Tensor :=
    ⟨id, name ++ ":0", name, .int32, some [.int 1], 4⟩
  let notes (evaluated : Bool) (count : Int) : Entries String Value :=
    [(deviceKey, .text ""), (evaluateKey, .bool evaluated), (countsKey, .list [.int count])]
  let value : Value := .attr "tensor" (.tensor ⟨.int32, [1], [1]⟩ (.type .int32))
  ⟨[⟨91, "one", "Inline", [], [tensor 90 "one"], ("value", value) :: notes evaluated 2, 4⟩,
    ⟨95, "y", "Add", [tensor 92 "one", tensor 93 "one"], [tensor 94 "y"], notes false 0, 4⟩],
   ["one", "y"], ["y"], tensorBackend⟩

/-- A request for the sum. -/
def doubledConstantRequest : Request := .ofModel [] ["y"]

attribute [local instance] Importer.strict

theorem passedGraph_doubledConstant :
    passedGraph (fun h => .ok h.nodes)
      (doubledConstantRequest.asking [.dropout, .refCount, .inline]) doubledConstant =
        .ok (doubledConstantGraph false, ["dropout", "refcnt", "inline"]) ∧
    passedGraph (fun h => .ok h.nodes)
      (doubledConstantRequest.asking [.dropout, .inline, .refCount]) doubledConstant =
        .ok (doubledConstantGraph true, ["dropout", "inline", "refcnt"]) :=
  ⟨rfl, rfl⟩

/-- What is emitted for either graph. -/
def doubledConstantDraft : Draft :=
  ⟨[], [],
   [.of .binaryTensor [("ref_count", .int 2), ("tensor_type", .text "BinaryTensor"),
      ("tensor_name", .text "one:0"), ("tensor_shape", .text "\x7b1\x7d"),
      ("tensor_length", .int 1), ("dtype", .text "int"), ("to_eval", .bool false),
      ("inline_name", .text "inline_one_0")],
    .of .add [("in_dtype", .text "int"), ("out_dtype", .text "int"),
      ("inputs", .list [.text "one:0", .text "one:0"]), ("output", .text "y:0"),
      ("to_eval", .bool false)]]⟩

/-- The array of the constant. -/
def constantWeight : Fragment :=
  .of .weight [("type", .text "int"), ("value", .array ⟨.int32, [1], [1]⟩), ("length", .int 1),
    ("inline_name", .text "inline_one_0")]

/-- Counting and then inlining gives a program for the constant. -/
theorem generate_doubledConstant : ∃ e text weights,
    (generate (fun h => .ok h.nodes)
      (doubledConstantRequest.asking [.dropout, .refCount, .inline]) (.text "m.cpp")).runOn
        (.withModel doubledConstant) = (e, .ok ()) ∧
    e.site.disk.files.get? ["m.cpp"] = some (.text text) ∧
    e.site.disk.files.get? ["m_weight.hpp"] = some (.text weights) := by
  obtain ⟨body, stated⟩ : ∃ body, doubledConstantDraft.statements "m" = .ok body := by
    simp only [doubledConstantDraft, Draft.statements_eq, List.mapM_cons, Fragment.statements_eq]
    exact ⟨_, rfl⟩
  obtain ⟨t, weighed⟩ : ∃ t, weightsText [constantWeight] = .ok t := by
    unfold constantWeight
    simp only [weightsText_eq, List.mapM_cons, Fragment.statements_eq]
    exact ⟨_, rfl⟩
  have passed : passedGraph (fun h => .ok h.nodes) (.ofModel ["dropout", "refcnt", "inline"] ["y"])
      doubledConstant = .ok (doubledConstantGraph false, ["dropout", "refcnt", "inline"]) :=
    passedGraph_doubledConstant.1
  obtain ⟨e', _, run, source, header⟩ := generate_withModel_of_weights (d := doubledConstantDraft)
    passed (by decide) (fun _ => ⟨_, Prod.ext rfl rfl, rfl, rfl⟩) stated weighed
  exact ⟨e', _, _, run, source, header⟩

/-- The two graphs differ in the note on the constant, and the programs are the same. -/
theorem generated_in_either_order_doubledConstant : ∃ e e' text weights,
    Pass.dropout.PrunesAsUsual doubledConstantRequest.options ∧
    Pass.inline.PrunesAsUsual doubledConstantRequest.options ∧
    passedGraph (fun h => .ok h.nodes)
      (doubledConstantRequest.asking [.dropout, .refCount, .inline]) doubledConstant =
        .ok (doubledConstantGraph false, ["dropout", "refcnt", "inline"]) ∧
    passedGraph (fun h => .ok h.nodes)
      (doubledConstantRequest.asking [.dropout, .inline, .refCount]) doubledConstant =
        .ok (doubledConstantGraph true, ["dropout", "inline", "refcnt"]) ∧
    (generate (fun h => .ok h.nodes)
      (doubledConstantRequest.asking [.dropout, .refCount, .inline]) (.text "m.cpp")).runOn
        (.withModel doubledConstant) = (e, .ok ()) ∧
    (generate (fun h => .ok h.nodes)
      (doubledConstantRequest.asking [.dropout, .inline, .refCount]) (.text "m.cpp")).runOn
        (.withModel doubledConstant) = (e', .ok ()) ∧
    e'.site.disk = e.site.disk ∧ e.site.disk.files.get? ["m.cpp"] = some (.text text) ∧
    e.site.disk.files.get? ["m_weight.hpp"] = some (.text weights) := by
  obtain ⟨e, text, weights, run, source, header⟩ := generate_doubledConstant
  have dropout : Pass.dropout.PrunesAsUsual doubledConstantRequest.options := rfl
  have inline : Pass.inline.PrunesAsUsual doubledConstantRequest.options := rfl
  have both := generated_in_either_order dropout inline (fun h => .ok h.nodes) (.text "m.cpp")
    (.withModel doubledConstant)
  dsimp only at both
  rw [run] at both ⊢
  revert both
  generalize (generate _ (doubledConstantRequest.asking [.dropout, .inline, .refCount]) _).runOn
    (Emission.withModel doubledConstant) = other
  obtain ⟨e', result⟩ := other
  rintro ⟨rfl, disk, _⟩
  exact ⟨e, e', text, weights, dropout, inline, passedGraph_doubledConstant.1,
    passedGraph_doubledConstant.2, rfl, rfl, disk, source, header⟩

end TensorEmit
