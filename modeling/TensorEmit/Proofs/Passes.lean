import TensorEmit.Pass.Pipeline
import TensorEmit.Proofs.Dropout
import TensorEmit.Proofs.Reading

/-!
# What passes do to a graph

A pipeline works on a workspace, but all it does to a graph can be said of graphs alone.
`Graph.Applied` says what each pass makes of a graph, `Graph.Settled` what the sorting and pruning
behind it make of that, and `Graph.Runs` chains them. `Workspace.runs_of_run` reads a successful
run off the workspace, so that a property of all runs is an induction over `Graph.Runs`.
-/

namespace TensorEmit

/-! ## Graphs of a workspace -/

namespace Workspace

theorem graph_add (w : Workspace) (g : Graph) : (w.add g).graph w.nextGraph = g := by
  unfold Workspace.graph add nextGraph
  simp [List.getD]

@[simp] theorem graph_reserve (w : Workspace) (n : Nat) (id : GraphId) :
    (w.reserve n).graph id = w.graph id := rfl

/-- The end of a step that makes a graph: it is added, and some numbers are set apart. -/
def adding (w : Workspace) (n : Nat) : Except Fault Graph → Workspace × Except Fault GraphId
  | .error f => (w, .error f)
  | .ok g => ((w.add g).reserve n, .ok w.nextGraph)

theorem graph_adding {w w' : Workspace} {n : Nat} {r : Except Fault Graph} {id : GraphId}
    (run : w.adding n r = (w', .ok id)) :
    id = w.nextGraph ∧ id < w'.nextGraph ∧ r = .ok (w'.graph id) := by
  cases r with
  | error f => cases run
  | ok g =>
    cases run
    rw [graph_reserve, graph_add]
    refine ⟨rfl, ?_, rfl⟩
    unfold nextGraph reserve Workspace.add
    simp

/-- Changing an operation everywhere changes every graph. -/
theorem graph_updateOperation (w : Workspace) (number : Nat) (f : Operation → Operation)
    (id : GraphId) :
    (w.updateOperation number f).graph id =
      (w.graph id).mapOps fun op => if op.id = number then f op else op := by
  unfold Workspace.graph updateOperation
  simp only [List.getD, List.getElem?_map]
  cases w.graphs[id]? with
  | none => rfl
  | some g => rfl

/-- A graph that was put in order is the sorted one. -/
theorem graph_of_sort {w w' : Workspace} {id : GraphId} {u : Unit}
    (run : w.sort id = (w', .ok u)) : (w.graph id).sort = .ok (w'.graph id) := by
  unfold Workspace.sort at run
  cases sorted : (w.graph id).sort with
  | error f =>
    rw [sorted] at run
    cases run
  | ok g =>
    rw [sorted] at run
    cases run
    by_cases inside : id < w.graphs.length
    · unfold Workspace.graph Workspace.set
      simp [List.getD, inside]
    · -- Outside of the workspace stands the empty graph, which sorting keeps.
      have outside : ∀ gs : List Graph, gs.length ≤ id → gs.getD id Graph.empty = Graph.empty := by
        intro gs short
        simp [List.getD, List.getElem?_eq_none short]
      have here : w.graph id = Graph.empty := outside w.graphs (Nat.le_of_not_lt inside)
      have there : (w.set id g).graph id = Graph.empty := by
        refine outside _ ?_
        unfold Workspace.set
        rw [List.length_set]
        exact Nat.le_of_not_lt inside
      rw [here] at sorted
      rw [there, ← sorted]
      rfl

theorem graph_of_ofNodes [Importer] {w w' : Workspace} {nodes : List Node} {outputs : Value}
    {id : GraphId} (run : w.ofNodes nodes outputs = (w', .ok id)) :
    Graph.ofNodes w.next w.nextGraph nodes outputs = .ok (w'.graph id) := by
  obtain ⟨_, _, read⟩ := graph_adding run
  exact read

end Workspace

namespace Graph

/-! ## One pass -/

/-- A graph of which some operations have become inlined constants. -/
def Retyped (g g' : Graph) : Prop :=
  ∃ type : Operation → String, (∀ op, type op = op.type ∨ type op = "Inline") ∧
    g' = g.mapOps fun op => { op with type := type op }

theorem Retyped.refl (g : Graph) : g.Retyped g := by
  refine ⟨Operation.type, fun _ => .inl rfl, ?_⟩
  unfold mapOps
  rw [List.map_id']

theorem Retyped.trans {g g' g'' : Graph} (first : g.Retyped g') (second : g'.Retyped g'') :
    g.Retyped g'' := by
  obtain ⟨type, marks, rfl⟩ := first
  obtain ⟨type', marks', rfl⟩ := second
  refine ⟨fun op => type' { op with type := type op }, fun op => ?_, ?_⟩
  · rcases marks' { op with type := type op } with kept | inlined
    · exact (marks op).imp kept.trans kept.trans
    · exact .inr inlined
  unfold mapOps
  simp only [List.map_map]
  rfl

/-- What a pass makes of a graph. -/
inductive Applied [Importer] (quantizer : Quantizer) (g : Graph) : Pass → Graph → Prop
  | refCount {c g' : Graph} : g.Copied c → c.counted = .ok g' → Applied quantizer g .refCount g'
  | dropout {base : Nat} {owner : GraphId} {g' : Graph} :
      g.dropoutRemoved base owner = .ok g' → Applied quantizer g .dropout g'
  | quantize {nodes nodes' : List Node} {base : Nat} {owner : GraphId} {g' : Graph} :
      g.nodes = .ok nodes → quantizer ⟨nodes, [], g.outputs, quantizeTransforms⟩ = .ok nodes' →
      Graph.ofNodes base owner nodes' (.list (g.outputs.map Value.text)) = .ok g' →
      Applied quantizer g .quantize g'
  | inline {g' : Graph} : g.Retyped g' → Applied quantizer g .inline g'

/-- What the steps behind a pass make of a graph: it is put in order and, as asked, pruned. -/
inductive Settled (prune : Value) (g : Graph) : Graph → Prop
  | sorted {g' : Graph} : prune.truth? = some false → g.sort = .ok g' → Settled prune g g'
  | pruned {s g' : Graph} : prune.truth? = some true → g.sort = .ok s → s.PrunedCopy g' →
      Settled prune g g'

/-- What a pipeline makes of a graph. -/
inductive Runs [Importer] (quantizer : Quantizer) : Graph → Pipeline → Graph → Prop
  | nil (g : Graph) : Runs quantizer g [] g
  | cons {g g₁ g₂ g' : Graph} {s : PassStep} {rest : Pipeline} :
      g.Applied quantizer s.pass g₁ → g₁.Settled s.prune g₂ → Runs quantizer g₂ rest g' →
      Runs quantizer g (s :: rest) g'

end Graph

/-! ## Reading a run off the workspace -/

namespace Workspace

open TensorEmit.Graph

theorem retyped_of_inlineAll (w : Workspace) (id : GraphId) (names : List String)
    (gid : GraphId) : (w.graph gid).Retyped ((w.inlineAll id names).1.graph gid) := by
  induction names generalizing w with
  | nil => exact .refl _
  | cons name rest ih =>
    unfold inlineAll
    cases (w.graph id).find name with
    | error f => exact .refl _
    | ok op =>
      refine Retyped.trans ?_ (ih _)
      by_cases isConst : op.type = "Const"
      · simp only [if_pos isConst, graph_updateOperation]
        refine ⟨fun other => if other.id = op.id then "Inline" else other.type, fun other => ?_, ?_⟩
        · by_cases same : other.id = op.id
          · exact .inr (if_pos same)
          · exact .inl (if_neg same)
        congr 1
        funext other
        by_cases same : other.id = op.id
        · simp [same]
        · simp [same]
      · simp only [if_neg isConst]
        exact .refl _

theorem applied_of_apply [Importer] {quantizer : Quantizer} {w w' : Workspace} {id id' : GraphId}
    {pass : Pass} (run : w.apply quantizer id pass = (w', .ok id')) :
    (w.graph id).Applied quantizer pass (w'.graph id') := by
  cases pass with
  | refCount =>
    obtain ⟨_, _, made⟩ := graph_adding run
    obtain ⟨c, copied, counts⟩ := bind_eq_ok_iff.mp made
    exact .refCount (copied_of_copy copied) counts
  | dropout =>
    obtain ⟨_, _, removed⟩ := graph_adding run
    exact .dropout removed
  | batchNorm => cases run
  | quantize =>
    simp only [apply, quantize] at run
    split at run
    · cases run
    case _ nodes exported =>
      split at run
      · cases run
      case _ nodes' quantized => exact .quantize exported quantized (graph_of_ofNodes run)
  | inline =>
    simp only [apply, inlineConstants] at run
    have retyped := w.retyped_of_inlineAll id (w.graph id).order id
    cases ran : w.inlineAll id (w.graph id).order with
    | mk w₁ r =>
      rw [ran] at run retyped
      simp only [Prod.mk.injEq, map_eq_ok_iff] at run
      obtain ⟨rfl, _, _, rfl⟩ := run
      exact .inline retyped

/-- What a step of a pipeline can come to. Its pass fails, or the sorting behind the pass, or it is
not said whether to prune; or else the graph is sorted, and pruned if that was asked for. -/
inductive StepOutcome [Importer] (quantizer : Quantizer) (w : Workspace) (id : GraphId)
    (s : PassStep) :
    Workspace × Except Fault GraphId → Prop
  | failed {w₁ : Workspace} {f : Fault} : w.apply quantizer id s.pass = (w₁, .error f) →
      StepOutcome quantizer w id s (w₁, .error f)
  | unsorted {w₁ w₂ : Workspace} {id₁ : GraphId} {f : Fault} :
      w.apply quantizer id s.pass = (w₁, .ok id₁) → w₁.sort id₁ = (w₂, .error f) →
      StepOutcome quantizer w id s (w₂, .error f)
  | undecided {w₁ w₂ : Workspace} {id₁ : GraphId} :
      w.apply quantizer id s.pass = (w₁, .ok id₁) → w₁.sort id₁ = (w₂, .ok ()) →
      s.prune.truth? = none → StepOutcome quantizer w id s (w₂, .error .noTruth)
  | sorted {w₁ w₂ : Workspace} {id₁ : GraphId} :
      w.apply quantizer id s.pass = (w₁, .ok id₁) → w₁.sort id₁ = (w₂, .ok ()) →
      s.prune.truth? = some false → StepOutcome quantizer w id s (w₂, .ok id₁)
  | pruned {w₁ w₂ : Workspace} {id₁ : GraphId} {x : Workspace × Except Fault GraphId} :
      w.apply quantizer id s.pass = (w₁, .ok id₁) → w₁.sort id₁ = (w₂, .ok ()) →
      s.prune.truth? = some true → w₂.prune id₁ = x → StepOutcome quantizer w id s x

theorem outcome_of_runStep [Importer] {quantizer : Quantizer} {w : Workspace} {id : GraphId}
    {s : PassStep} {x : Workspace × Except Fault GraphId} (run : w.runStep quantizer id s = x) :
    w.StepOutcome quantizer id s x := by
  subst run
  unfold runStep
  split
  case _ applied => exact .failed applied
  case _ applied =>
    split
    case _ sorts => exact .unsorted applied sorts
    case _ sorts =>
      split
      case _ keep => exact .undecided applied sorts keep
      case _ keep => exact .sorted applied sorts keep
      case _ keep => exact .pruned applied sorts keep rfl

/-- A step of a pipeline applies its pass and settles the graph. -/
theorem step_of_runStep [Importer] {quantizer : Quantizer} {w w' : Workspace} {id id' : GraphId}
    {s : PassStep} (run : w.runStep quantizer id s = (w', .ok id')) :
    ∃ g, (w.graph id).Applied quantizer s.pass g ∧ g.Settled s.prune (w'.graph id') := by
  cases outcome_of_runStep run with
  | sorted applied sorts keep =>
    exact ⟨_, applied_of_apply applied, .sorted keep (graph_of_sort sorts)⟩
  | pruned applied sorts keep made =>
    obtain ⟨_, _, pruned⟩ := graph_adding made
    obtain ⟨c, copied, kept⟩ := bind_eq_ok_iff.mp pruned
    exact ⟨_, applied_of_apply applied,
      .pruned keep (graph_of_sort sorts) (prunedCopy_of_pruned copied kept)⟩

/-- A run of a pipeline applies its passes one after the other. -/
theorem runs_of_run [Importer] {quantizer : Quantizer} {w w' : Workspace} {id id' : GraphId}
    {steps : Pipeline} (run : w.run quantizer id steps = (w', .ok id')) :
    Runs quantizer (w.graph id) steps (w'.graph id') := by
  induction steps generalizing w id with
  | nil =>
    rw [Workspace.run] at run
    cases run
    exact .nil _
  | cons s rest ih =>
    rw [Workspace.run] at run
    split at run
    · cases run
    case _ w₁ id₁ first =>
      obtain ⟨g, applied, settled⟩ := step_of_runStep first
      exact .cons applied settled (ih run)

end Workspace

namespace Graph

/-! ## What settling gives -/

section Settled

variable {prune : Value} {g g' : Graph}

/-- A settled graph has the order that sorting gives. -/
theorem Settled.sorted_eq (settled : g.Settled prune g') : g.sorted = .ok g'.order := by
  cases settled with
  | sorted _ sort =>
    obtain ⟨names, order, rfl⟩ := sort_eq_ok_iff.mp sort
    exact order
  | pruned _ sort copy =>
    obtain ⟨names, order, rfl⟩ := sort_eq_ok_iff.mp sort
    rw [copy.order]
    exact order

theorem Settled.outputs_eq (settled : g.Settled prune g') : g'.outputs = g.outputs := by
  cases settled with
  | sorted _ sort =>
    obtain ⟨names, _, rfl⟩ := sort_eq_ok_iff.mp sort
    rfl
  | pruned _ sort copy =>
    obtain ⟨names, _, rfl⟩ := sort_eq_ok_iff.mp sort
    exact copy.outputs

/-- Settling keeps an operation for every name of the order. -/
theorem Settled.find? (settled : g.Settled prune g') {name : String} (listed : name ∈ g'.order) :
    ∃ op op', g.find? name = some op ∧ g'.find? name = some op' ∧ op.Alike op' := by
  have order := settled.sorted_eq
  obtain ⟨op, found⟩ := (ordered_of_sorted order).found listed
  have reached := (mem_sorted_iff order name).mp listed
  cases settled with
  | sorted _ sort =>
    obtain ⟨names, _, rfl⟩ := sort_eq_ok_iff.mp sort
    exact ⟨op, op, found, found, .refl op⟩
  | pruned _ sort copy =>
    obtain ⟨names, _, rfl⟩ := sort_eq_ok_iff.mp sort
    obtain ⟨op', found', alike⟩ := copy.find? reached found
    exact ⟨op, op', found, found', alike⟩

/-- Settling adds no operation. -/
theorem Settled.exists_alike (settled : g.Settled prune g') {op' : Operation}
    (member : op' ∈ g'.ops) : ∃ op ∈ g.ops, op.Alike op' := by
  cases settled with
  | sorted _ sort =>
    obtain ⟨names, _, rfl⟩ := sort_eq_ok_iff.mp sort
    exact ⟨op', member, .refl op'⟩
  | pruned _ sort copy =>
    obtain ⟨names, _, rfl⟩ := sort_eq_ok_iff.mp sort
    obtain ⟨op, inside, alike, _⟩ := copy.exists_alike member
    exact ⟨op, inside, alike⟩

/-- A settled graph is in order. -/
theorem Settled.ordered (settled : g.Settled prune g') : g'.Ordered g'.order := by
  refine (ordered_of_sorted settled.sorted_eq).transport fun name listed op found => ?_
  obtain ⟨op₁, op', found₁, found', alike⟩ := settled.find? listed
  rw [found] at found₁
  cases found₁
  exact ⟨op', found', Tensor.names_of_contents alike.inputs⟩

end Settled

/-- A graph stays in order along a run. -/
theorem Runs.ordered [Importer] {quantizer : Quantizer} {g g' : Graph} {steps : Pipeline}
    (runs : Runs quantizer g steps g') (ordered : g.Ordered g.order) : g'.Ordered g'.order := by
  induction runs with
  | nil _ => exact ordered
  | cons _ settled _ ih => exact ih settled.ordered

/-- A run of a pipeline in two parts is a run of each part. -/
theorem Runs.split [Importer] {quantizer : Quantizer} {g g' : Graph} {front back : Pipeline}
    (runs : Runs quantizer g (front ++ back) g') :
    ∃ m, Runs quantizer g front m ∧ Runs quantizer m back g' := by
  induction front generalizing g with
  | nil => exact ⟨g, .nil g, runs⟩
  | cons s front ih =>
    cases runs with
    | cons applied settled rest =>
      obtain ⟨m, first, second⟩ := ih rest
      exact ⟨m, .cons applied settled first, second⟩

/-! ## What all operations keep -/

/-- A property of operations that no pass breaks. -/
structure OperationInvariant [Importer] (quantizer : Quantizer) (P : Operation → Prop) : Prop where
  alike : ∀ {op op' : Operation}, P op → op.Alike op' → P op'
  inlined : ∀ {op : Operation}, P op → P { op with type := "Inline" }
  annotated : ∀ (g : Graph) {op : Operation}, P op → P (g.annotate op)
  bypassed : ∀ {g g' : Graph} {base : Nat} {owner : GraphId}, g.Ordered g.order →
    (∀ op ∈ g.ops, P op) → g.dropoutRemoved base owner = .ok g' → ∀ op ∈ g'.ops, P op
  quantized : ∀ {g : Graph} {nodes nodes' : List Node}, (∀ op ∈ g.ops, P op) →
    g.nodes = .ok nodes → quantizer ⟨nodes, [], g.outputs, quantizeTransforms⟩ = .ok nodes' →
    Importer.accept nodes' = .ok () → ∀ n ∈ nodes', ∀ op, n.Read nodes' op → P op

/-- Counting references puts notes on the operations of the order. -/
theorem eq_of_counted {g g' : Graph} (run : g.counted = .ok g') :
    g' = g.mapOps fun op => if op.name ∈ g.order then g.annotate op else op := by
  unfold counted at run
  simp only [bind_eq_ok_iff, pure_eq_ok_iff] at run
  obtain ⟨_, _, rfl⟩ := run
  rfl

theorem OperationInvariant.applied [Importer] {quantizer : Quantizer} {P : Operation → Prop}
    (invariant : OperationInvariant quantizer P) {g g' : Graph} {pass : Pass}
    (ordered : g.Ordered g.order) (start : ∀ op ∈ g.ops, P op)
    (applied : g.Applied quantizer pass g') : ∀ op ∈ g'.ops, P op := by
  intro op' member
  cases applied with
  | refCount copied counted =>
    rw [eq_of_counted counted] at member
    obtain ⟨c, inside, rfl⟩ := List.mem_map.mp member
    obtain ⟨op, inside', alike⟩ := exists_left_of_forall₂ copied.ops inside
    have kept := invariant.alike (start op inside') alike
    split
    · exact invariant.annotated _ kept
    · exact kept
  | dropout removed => exact invariant.bypassed ordered start removed op' member
  | quantize exported quantized read =>
    obtain ⟨_, _, _, taken, _⟩ := ofNodes_ok read
    obtain ⟨n, inside, made⟩ := read_of_mem_ofNodes read member
    exact invariant.quantized start exported quantized taken n inside op' made
  | inline retyped =>
    obtain ⟨type, marks, rfl⟩ := retyped
    obtain ⟨op, inside, rfl⟩ := List.mem_map.mp member
    rcases marks op with kept | inlined
    · rw [kept]
      exact start op inside
    · rw [inlined]
      exact invariant.inlined (start op inside)

/-- What no pass breaks holds of all operations after a run. -/
theorem Runs.forall_ops [Importer] {quantizer : Quantizer} {P : Operation → Prop}
    (invariant : OperationInvariant quantizer P) {g g' : Graph} {steps : Pipeline}
    (runs : Runs quantizer g steps g') (ordered : g.Ordered g.order)
    (start : ∀ op ∈ g.ops, P op) : ∀ op ∈ g'.ops, P op := by
  induction runs with
  | nil _ => exact start
  | cons applied settled _ ih =>
    refine ih settled.ordered fun op' member => ?_
    obtain ⟨op, inside, alike⟩ := settled.exists_alike member
    exact invariant.alike (invariant.applied ordered start applied op inside) alike

end Graph

end TensorEmit
