import Mathlib.Data.List.Perm.Subperm
import TensorEmit.Proofs.Agreement
import TensorEmit.Proofs.UseCounts

/-!
# Graphs with other numbers

Operations and tensors are numbered as they are made, and the numbers depend on all that was made
before. `Graph.Renumbered k k'` relates graphs that differ in nothing but numbers and owners, where
the numbers of operations differ by a fixed amount. Passes cannot tell such graphs apart:
`Workspace.linked_run` says that a pipeline fails on both or makes such graphs of them again.

Sorting and removing dropout look at less than a whole graph. They agree on any two graphs that have
the same operations under the names that the outputs need.
-/

namespace TensorEmit

/-! ## Contents -/

/-- Tensors that differ in their numbers and owners only. -/
def Tensor.SameContent (t t' : Tensor) : Prop := t'.content = t.content

/-- An operation apart from its number and owner and from those of its tensors. -/
def Operation.content (op : Operation) : Operation :=
  { op with
    id := 0
    owner := 0
    inputs := op.inputs.map Tensor.content
    outputs := op.outputs.map Tensor.content }

namespace Operation

variable {op op' : Operation}

theorem name_of_content (same : op'.content = op.content) : op'.name = op.name := by
  have names := congrArg Operation.name same
  exact names

theorem type_of_content (same : op'.content = op.content) : op'.type = op.type := by
  have types := congrArg Operation.type same
  exact types

theorem attrs_of_content (same : op'.content = op.content) : op'.attrs = op.attrs := by
  have attrs := congrArg Operation.attrs same
  exact attrs

theorem inputs_of_content (same : op'.content = op.content) :
    List.Forall₂ Tensor.SameContent op.inputs op'.inputs := by
  have inputs := congrArg Operation.inputs same
  exact forall₂_of_views inputs

theorem outputs_of_content (same : op'.content = op.content) :
    List.Forall₂ Tensor.SameContent op.outputs op'.outputs := by
  have outputs := congrArg Operation.outputs same
  exact forall₂_of_views outputs

theorem readNames_of_content (same : op'.content = op.content) :
    op'.inputs.map Tensor.name = op.inputs.map Tensor.name :=
  Tensor.names_of_contents (views_of_forall₂ (inputs_of_content same))

theorem content_of_parts (name : op'.name = op.name) (type : op'.type = op.type)
    (inputs : List.Forall₂ Tensor.SameContent op.inputs op'.inputs)
    (outputs : List.Forall₂ Tensor.SameContent op.outputs op'.outputs)
    (attrs : op'.attrs = op.attrs) : op'.content = op.content := by
  unfold content
  rw [name, type, attrs, views_of_forall₂ inputs, views_of_forall₂ outputs]

/-- Operations that differ in nothing but numbers and owners, where `k` and `k'` make their own
numbers equal. -/
structure Renumbered (k k' : Nat) (op op' : Operation) : Prop where
  id : op.id + k = op'.id + k'
  content : op'.content = op.content

theorem inputNames_eq (op : Operation) :
    op.inputNames = (op.inputs.map Tensor.name).mapM TensorName.producer := by
  unfold inputNames
  rw [List.mapM_map]
  rfl

theorem inputNames_of_content (same : op'.content = op.content) :
    op'.inputNames = op.inputNames := by
  rw [inputNames_eq, inputNames_eq, readNames_of_content same]

theorem node_of_content (same : op'.content = op.content) : op'.node = op.node := by
  unfold node
  rw [name_of_content same, type_of_content same, attrs_of_content same, readNames_of_content same]

end Operation

/-! ## Sorting -/

namespace Graph

/-- Two graphs have the same operation under a name, or both have none. -/
def SameAt (g g' : Graph) (name : String) : Prop :=
  (g'.find? name).map Operation.content = (g.find? name).map Operation.content

theorem SameAt.cases {g g' : Graph} {name : String} (same : g.SameAt g' name) :
    (g.find? name = none ∧ g'.find? name = none) ∨
      ∃ op op', g.find? name = some op ∧ g'.find? name = some op' ∧
        op'.content = op.content := by
  unfold SameAt at same
  cases found : g.find? name with
  | none =>
    rw [found] at same
    exact .inl ⟨rfl, Option.map_eq_none_iff.mp same⟩
  | some op =>
    rw [found] at same
    obtain ⟨op', found', content⟩ := Option.map_eq_some_iff.mp same
    exact .inr ⟨op, op', rfl, found', content⟩

/-- The round for one input depends on its name only. -/
theorem foldlM_visitInput (g : Graph) (fuel : Nat) (path taken : List String) (ts : List Tensor) :
    ts.foldlM (g.visitInput fuel path) taken =
      (ts.map Tensor.name).foldlM (fun acc s => do
        g.visit fuel path acc (← TensorName.producer s)) taken := by
  rw [List.foldlM_map]
  rfl

/-- A visit depends on the operations under the names that it can come to. -/
theorem visit_congr {g g' : Graph} {P : String → Prop} (same : ∀ name, P name → g.SameAt g' name)
    (closed : ∀ a b, P a → g.Needs a b → P b) (fuel : Nat) (path taken : List String)
    {name : String} (holds : P name) :
    g'.visit fuel path taken name = g.visit fuel path taken name := by
  induction fuel generalizing path taken name with
  | zero => rfl
  | succ fuel ih =>
    rw [visit, visit]
    split
    · rfl
    split
    · rfl
    rcases (same name holds).cases with ⟨none, none'⟩ | ⟨op, op', found, found', content⟩
    · rw [none, none']
    · rw [found, found']
      dsimp only
      refine congrArg (· >>= fun taken => pure (taken ++ [name])) ?_
      change op'.inputs.foldlM (g'.visitInput fuel (name :: path)) taken =
        op.inputs.foldlM (g.visitInput fuel (name :: path)) taken
      rw [foldlM_visitInput, foldlM_visitInput, Operation.readNames_of_content content]
      refine foldlM_congr (fun acc s member => ?_) taken
      cases made : TensorName.producer s with
      | error f => rfl
      | ok need =>
        obtain ⟨t, read, rfl⟩ := List.mem_map.mp member
        exact ih (name :: path) acc (closed name need holds ⟨op, found, t, read, made⟩)

/-- Names without repetition that all have operations are no more than there are operations. -/
theorem length_le_of_has {g : Graph} {path : List String} (nodup : path.Nodup)
    (inside : ∀ name ∈ path, g.has name = true) : path.length ≤ g.ops.length := by
  have names : path ⊆ g.ops.map Operation.name := by
    intro name member
    obtain ⟨op, found⟩ := Option.isSome_iff_exists.mp (inside name member)
    rw [← find?_name found]
    exact List.mem_map_of_mem (mem_of_find? found)
  have shorter := (List.subperm_of_subset nodup names).length_le
  rwa [List.length_map] at shorter

/-- Fuel that exceeds what is left of the operations is as good as any other. -/
theorem visit_fuel {g : Graph} {fuel fuel' : Nat} {path : List String} (nodup : path.Nodup)
    (inside : ∀ name ∈ path, g.has name = true) (enough : g.ops.length < fuel + path.length)
    (enough' : g.ops.length < fuel' + path.length) (taken : List String) (name : String) :
    g.visit fuel path taken name = g.visit fuel' path taken name := by
  have bounded := length_le_of_has nodup inside
  induction fuel generalizing fuel' path taken name with
  | zero => omega
  | succ fuel ih =>
    cases fuel' with
    | zero => omega
    | succ fuel' =>
      rw [visit, visit]
      split
      · rfl
      split
      · rfl
      rename_i fresh
      cases found : g.find? name with
      | none => rfl
      | some op =>
        dsimp only
        have nodup' : (name :: path).Nodup := List.nodup_cons.mpr ⟨fresh, nodup⟩
        have inside' : ∀ n ∈ name :: path, g.has n = true := by
          intro n member
          rcases List.mem_cons.mp member with rfl | before
          · unfold has
            rw [found]
            rfl
          · exact inside n before
        have rounds : ∀ acc t, t ∈ op.inputs → g.visitInput fuel (name :: path) acc t =
            g.visitInput fuel' (name :: path) acc t := by
          intro acc t _
          unfold visitInput
          refine congrArg (TensorName.producer t.name >>= ·) (funext fun need => ?_)
          refine ih nodup' inside' ?_ ?_ acc need (length_le_of_has nodup' inside')
          · rw [List.length_cons]
            omega
          · rw [List.length_cons]
            omega
        exact congrArg (· >>= fun taken => pure (taken ++ [name])) (foldlM_congr rounds taken)

/-- Graphs with the same operations under all names that the outputs need have the same order. -/
theorem sorted_congr {g g' : Graph} (outputs : g'.outputs = g.outputs)
    (same : ∀ name, g.Reachable name → g.SameAt g' name) : g'.sorted = g.sorted := by
  have fuel : ∀ (h : Graph) (fuel : Nat), h.ops.length < fuel → ∀ taken name,
      h.visit (h.ops.length + 1) [] taken name = h.visit fuel [] taken name := by
    intro h fuel enough taken name
    refine visit_fuel List.nodup_nil (fun _ member => ?_) (by simp)
      (by simpa using enough) taken name
    cases member
  unfold sorted visitAll
  rw [outputs]
  refine foldlM_congr (fun taken name output => ?_) []
  rw [fuel g (g.ops.length + g'.ops.length + 1) (by omega),
    fuel g' (g.ops.length + g'.ops.length + 1) (by omega)]
  exact visit_congr same (fun a b reached needs => reached.step needs) _ _ _ (.output output)

/-! ## Renumbered graphs -/

/-- Graphs that differ in nothing but numbers and owners. -/
structure Renumbered (k k' : Nat) (g g' : Graph) : Prop where
  ops : List.Forall₂ (Operation.Renumbered k k') g.ops g'.ops
  order : g'.order = g.order
  outputs : g'.outputs = g.outputs
  backend : g'.backend = g.backend

section Renumbered

variable {k k' : Nat} {g g' : Graph}

theorem Renumbered.find? (same : g.Renumbered k k' g') (name : String) :
    Option.Rel (Operation.Renumbered k k') (g.find? name) (g'.find? name) :=
  find?_related (fun _ _ both => Operation.name_of_content both.content) same.ops name

theorem Renumbered.find (same : g.Renumbered k k' g') (name : String) :
    Agrees (Operation.Renumbered k k') (g.find name) (g'.find name) := by
  unfold Graph.find
  rcases cases_of_rel (same.find? name) with ⟨none, none'⟩ | ⟨op, op', found, found', both⟩
  · rw [none, none']
    exact .error _ _
  · rw [found, found']
    exact .ok both

theorem Renumbered.sameAt (same : g.Renumbered k k' g') (name : String) : g.SameAt g' name := by
  unfold SameAt
  rcases cases_of_rel (same.find? name) with ⟨none, none'⟩ | ⟨op, op', found, found', both⟩
  · rw [none, none']
  · rw [found, found']
    exact congrArg some both.content

theorem Renumbered.wires (same : g.Renumbered k k' g') : g'.wires = g.wires := by
  refine views_of_forall₂ (same.ops.imp ?_)
  intro op op' both
  rw [Operation.name_of_content both.content, Operation.readNames_of_content both.content]

theorem Renumbered.sort (same : g.Renumbered k k' g') :
    Agrees (Renumbered k k') g.sort g'.sort := by
  unfold Graph.sort
  rw [sorted_congr same.outputs fun name _ => same.sameAt name]
  refine (Agrees.self g.sorted).bind fun order _ equal => ?_
  subst equal
  exact .ok ⟨same.ops, rfl, same.outputs, same.backend⟩

theorem Renumbered.nodes (same : g.Renumbered k k' g') : g'.nodes = g.nodes := by
  unfold Graph.nodes
  rw [same.order, same.backend]
  have each : ∀ name, (g'.find name >>= Operation.node) = (g.find name >>= Operation.node) := by
    intro name
    unfold Graph.find
    rcases cases_of_rel (same.find? name) with ⟨none, none'⟩ | ⟨op, op', found, found', both⟩
    · rw [none, none']
    · rw [found, found']
      exact Operation.node_of_content both.content
  have all : g.order.mapM (fun name => g'.find name >>= Operation.node) =
      g.order.mapM fun name => g.find name >>= Operation.node :=
    congrArg (g.order.mapM ·) (funext each)
  exact congrArg (fun nodes => if g.backend ≠ tensorBackend then _ else nodes) all

end Renumbered

end Graph

/-! ## Copying, pruning and counting -/

theorem Tensor.agrees_checkShape {t t' : Tensor} (same : t.SameContent t') :
    Agrees Eq (Tensor.checkShape t.shape) (Tensor.checkShape t'.shape) := by
  have shapes : t'.shape = t.shape := by
    have shapes := congrArg Tensor.shape same
    exact shapes
  rw [shapes]
  exact .self _

theorem Tensor.agrees_copy {base base' : Nat} {owner owner' : GraphId} {t t' : Tensor}
    (same : t.SameContent t') :
    Agrees Tensor.SameContent (t.copy base owner) (t'.copy base' owner') := by
  unfold Tensor.copy
  exact (agrees_checkShape same).bind fun _ _ _ => .ok same

theorem Operation.Renumbered.copy {k k' base base' : Nat} {owner owner' : GraphId}
    {op op' : Operation} (same : op.Renumbered k k' op') :
    Agrees (Operation.Renumbered (k + base') (k' + base)) (op.copy base owner)
      (op'.copy base' owner') := by
  unfold Operation.copy
  rw [attrs_of_content same.content]
  refine (Agrees.mapM (inputs_of_content same.content) fun _ _ => Tensor.agrees_copy).bind ?_
  intro ins ins' inputs
  refine (Agrees.mapM (outputs_of_content same.content) fun _ _ => Tensor.agrees_copy).bind ?_
  intro outs outs' outputs
  refine (Agrees.self (storedAttrs op.attrs)).bind fun attrs _ equal => ?_
  subst equal
  have shift := same.id
  have name := name_of_content same.content
  have type := type_of_content same.content
  refine .ok ⟨?_, content_of_parts name type inputs outputs rfl⟩
  show base + op.id + (k + base') = base' + op'.id + (k' + base)
  omega

namespace Graph

section Renumbered

variable {k k' : Nat} {g g' : Graph}

theorem Renumbered.copy (same : g.Renumbered k k' g') (base base' : Nat) (id id' : GraphId) :
    Agrees (Renumbered (k + base') (k' + base)) (g.copy base id) (g'.copy base' id') := by
  unfold Graph.copy
  refine (Agrees.mapM same.ops fun _ _ both => both.copy).bind fun ops ops' copied => ?_
  exact .ok ⟨copied, same.order, same.outputs, same.backend⟩

/-- A search that meets the same operations meets the same names. -/
theorem meet_congr (same : ∀ name, g.SameAt g' name) (fuel : Nat) (waiting met : List String) :
    g'.meet fuel waiting met = g.meet fuel waiting met := by
  induction fuel generalizing waiting met with
  | zero =>
    cases waiting with
    | nil => rfl
    | cons name waiting => rfl
  | succ fuel ih =>
    cases waiting with
    | nil => rfl
    | cons name waiting =>
      rw [meet, meet]
      unfold Graph.find
      rcases (same name).cases with ⟨none, none'⟩ | ⟨op, op', found, found', content⟩
      · rw [none, none']
        rfl
      · rw [found, found']
        dsimp only
        rw [ok_bind, ok_bind, Operation.inputNames_of_content content]
        exact congrArg (op.inputNames >>= ·) (funext fun names => ih _ _)

theorem Renumbered.needed (same : g.Renumbered k k' g') : g'.needed = g.needed := by
  have bound : g'.meetBound = g.meetBound := by
    have lengths : g'.ops.map (fun op => op.inputs.length) = g.ops.map fun op => op.inputs.length :=
      views_of_forall₂ (same.ops.imp fun _ _ both =>
        (Operation.inputs_of_content both.content).length_eq.symm)
    unfold meetBound
    rw [same.outputs, lengths]
  unfold Graph.needed
  rw [bound, same.outputs, meet_congr same.sameAt]

theorem Renumbered.pruned (same : g.Renumbered k k' g') :
    Agrees (Renumbered k k') g.pruned g'.pruned := by
  unfold Graph.pruned
  rw [same.needed]
  refine (Agrees.self g.needed).bind fun names _ equal => ?_
  subst equal
  exact .ok ⟨filter_related (fun _ _ both => Operation.name_of_content both.content) same.ops names,
    same.order, same.outputs, same.backend⟩

/-- Changes that keep operations renumbered keep graphs renumbered. -/
theorem Renumbered.mapOps (same : g.Renumbered k k' g') {f f' : Operation → Operation}
    (keeps : ∀ op op', op.Renumbered k k' op' → (f op).Renumbered k k' (f' op')) :
    (g.mapOps f).Renumbered k k' (g'.mapOps f') := by
  refine ⟨?_, same.order, same.outputs, same.backend⟩
  unfold Graph.mapOps
  rw [List.forall₂_map_left_iff, List.forall₂_map_right_iff]
  exact same.ops.imp keeps

theorem Renumbered.annotate (same : g.Renumbered k k' g') {op op' : Operation}
    (both : op.Renumbered k k' op') : (g.annotate op).Renumbered k k' (g'.annotate op') := by
  have counts : (op'.outputs.map fun t => Value.int (g'.uses t.name)) =
      op.outputs.map fun t => Value.int (g.uses t.name) := by
    refine views_of_forall₂ ((Operation.outputs_of_content both.content).imp ?_)
    intro t t' sameTensor
    rw [Tensor.name_of_content sameTensor, uses_congr same.wires]
  have evaluates : g'.evaluatesAtOnce op' = g.evaluatesAtOnce op := by
    unfold evaluatesAtOnce
    rw [Operation.name_of_content both.content, Operation.type_of_content both.content,
      same.outputs]
  have name := Operation.name_of_content both.content
  have type := Operation.type_of_content both.content
  have inputs := Operation.inputs_of_content both.content
  have outputs := Operation.outputs_of_content both.content
  refine ⟨both.id, Operation.content_of_parts name type inputs outputs ?_⟩
  unfold Graph.annotate
  rw [counts, evaluates, Operation.attrs_of_content both.content]

theorem Renumbered.counted (same : g.Renumbered k k' g') :
    Agrees (Renumbered k k') g.counted g'.counted := by
  unfold Graph.counted
  rw [same.order]
  refine (Agrees.mapM_self fun name _ => same.find name).bind fun _ _ _ => ?_
  refine .ok (same.mapOps fun op op' both => ?_)
  rw [Operation.name_of_content both.content]
  split
  · exact same.annotate both
  · exact both

end Renumbered

end Graph

/-! ## Reading -/

namespace Node

variable {nodes nodes' : List Node}

theorem agrees_inputTensor {s : String} (sources : source nodes' s = source nodes s)
    (id id' : Nat) (owner owner' : GraphId) :
    Agrees Tensor.SameContent (inputTensor nodes id owner s) (inputTensor nodes' id' owner' s) := by
  unfold inputTensor
  rw [sources]
  refine (Agrees.self (source nodes s)).bind fun found _ equal => ?_
  subst equal
  exact .ok rfl

/-- The operation of a node depends on the outputs that its inputs name, and on its own body. -/
theorem agrees_operation {n : Node} (body : n.body nodes' = n.body nodes)
    (sources : ∀ s ∈ (n.body nodes).dataInputs, source nodes' s = source nodes s)
    {base base' k k' : Nat} (shift : base + k = base' + k') (owner owner' : GraphId) :
    Agrees (Operation.Renumbered k k') (n.operation nodes base owner)
      (n.operation nodes' base' owner') := by
  rw [operation_eq, operation_eq, body]
  refine (Agrees.mapM_self fun e member => agrees_inputTensor
    (sources e.1 (List.fst_mem_of_mem_zipIdx member)) _ _ _ _).bind fun ins ins' inputs => ?_
  have outputs : ∀ start start' : Nat, List.Forall₂ Tensor.SameContent
      ((n.body nodes).outputs.zipIdx.map fun e =>
        (n.body nodes).outputTensor (start + e.2) owner e.2 e.1)
      ((n.body nodes).outputs.zipIdx.map fun e =>
        (n.body nodes).outputTensor (start' + e.2) owner' e.2 e.1) := by
    intro start start'
    rw [List.forall₂_map_left_iff, List.forall₂_map_right_iff, List.forall₂_same]
    exact fun _ _ => rfl
  refine (Agrees.mapM (List.rel_append inputs (outputs _ _)) fun _ _ =>
    Tensor.agrees_checkShape).bind fun _ _ _ => ?_
  refine (Agrees.self (storedAttrs n.attrs)).bind fun attrs _ equal => ?_
  subst equal
  refine .ok ⟨?_, Operation.content_of_parts rfl rfl inputs (outputs _ _) rfl⟩
  have lengths := inputs.length_eq
  simp only [List.length_map, lengths]
  omega

end Node

namespace Graph

section Renumbered

variable {k k' : Nat} {g g' : Graph}

theorem Renumbered.has (same : g.Renumbered k k' g') (name : String) :
    g'.has name = g.has name := by
  unfold Graph.has
  rcases cases_of_rel (same.find? name) with ⟨none, none'⟩ | ⟨op, op', found, found', _⟩
  · rw [none, none']
  · rw [found, found']
    rfl

theorem Renumbered.put (same : g.Renumbered k k' g') {op op' : Operation}
    (both : op.Renumbered k k' op') : (g.put op).Renumbered k k' (g'.put op') := by
  have name := Operation.name_of_content both.content
  unfold Graph.put
  rw [name, same.has]
  split
  · refine same.mapOps fun old old' olds => ?_
    rw [Operation.name_of_content olds.content]
    split
    · exact both
    · exact olds
  · exact ⟨List.rel_append same.ops (.cons both .nil), same.order, same.outputs, same.backend⟩

theorem agrees_addNodes {nodes rest : List Node} {id id' : GraphId} {base base' : Nat}
    (same : g.Renumbered k k' g') (shift : base + k = base' + k') :
    Agrees (Renumbered k k') (Graph.addNodes nodes id base g rest)
      (Graph.addNodes nodes id' base' g' rest) := by
  induction rest generalizing base base' g g' with
  | nil => exact .ok same
  | cons n rest ih =>
    rw [addNodes, addNodes]
    refine (Node.agrees_operation rfl (fun _ _ => rfl) shift id id').bind fun op op' both => ?_
    exact ih (same.put both) (by omega)

end Renumbered

/-- Reading the same nodes with other numbers gives the same graph with other numbers. -/
theorem agrees_ofNodes [Importer] (base base' : Nat) (id id' : GraphId) (nodes : List Node)
    (outputs : Value) :
    Agrees (Renumbered base' base) (Graph.ofNodes base id nodes outputs)
      (Graph.ofNodes base' id' nodes outputs) := by
  unfold ofNodes
  refine (Agrees.self (outputList outputs)).bind fun outs _ equal => ?_
  subst equal
  rcases outputNames outs with ⟨names, fault⟩
  dsimp only
  split
  · exact .error _ _
  split
  · exact .error _ _
  refine (Agrees.self (Importer.accept nodes)).bind fun _ _ _ => ?_
  have start : Renumbered base' base ⟨[], [], names, tensorBackend⟩
      ⟨[], [], names, tensorBackend⟩ :=
    ⟨.nil, rfl, rfl, rfl⟩
  refine (agrees_addNodes start (Nat.add_comm base base')).bind fun g g' same => ?_
  refine same.sort.bind fun g g' same => ?_
  split
  · exact .error _ _
  · exact .ok same

end Graph

/-! ## Removing dropout -/

namespace Graph

/-- Graphs with the same operations under the names of the order. -/
structure SameLive (g g' : Graph) : Prop where
  found : ∀ name ∈ g.order, g.SameAt g' name
  order : g'.order = g.order
  outputs : g'.outputs = g.outputs
  backend : g'.backend = g.backend

/-- Data inputs of dropout scopes with the same contents. -/
def SameInputs (inputs inputs' : Entries String Tensor) : Prop :=
  ∀ scope, Option.Rel Tensor.SameContent (inputs.get? scope) (inputs'.get? scope)

theorem SameInputs.set {inputs inputs' : Entries String Tensor} (same : SameInputs inputs inputs')
    {t t' : Tensor} (both : t.SameContent t') (scope : String) :
    SameInputs (inputs.set scope t) (inputs'.set scope t') := by
  intro other
  by_cases here : other = scope
  · subst here
    rw [Entries.get?_set_self, Entries.get?_set_self]
    exact .some both
  · rw [Entries.get?_set_of_ne _ _ here, Entries.get?_set_of_ne _ _ here]
    exact same other

theorem agrees_outsideInput? (cluster : List String) {ts ts' : List Tensor}
    (same : List.Forall₂ Tensor.SameContent ts ts') :
    Agrees (Option.Rel Tensor.SameContent) (outsideInput? cluster ts)
      (outsideInput? cluster ts') := by
  induction same with
  | nil => exact .ok .none
  | cons head _ ih =>
    rw [outsideInput?, outsideInput?, Tensor.name_of_content head]
    refine (Agrees.self (TensorName.producer _)).bind fun producer _ equal => ?_
    subst equal
    split
    · exact .ok (.some head)
    · exact ih

theorem agrees_bypass {inputs inputs' : Entries String Tensor} (same : SameInputs inputs inputs')
    {t t' : Tensor} (both : t.SameContent t') :
    Agrees Tensor.SameContent (bypass inputs t) (bypass inputs' t') := by
  unfold bypass
  rw [Tensor.name_of_content both]
  refine (Agrees.self (TensorName.producer _)).bind fun producer _ equal => ?_
  subst equal
  cases dropoutScope? producer with
  | none => exact .ok both
  | some scope =>
    dsimp only
    rcases cases_of_rel (same scope) with ⟨none, none'⟩ | ⟨source, source', found, found', sources⟩
    · rw [none, none']
      exact .error _ _
    · rw [found, found']
      exact .ok sources

theorem agrees_renewed {t t' : Tensor} (same : t.SameContent t') (id id' : Nat)
    (owner owner' : GraphId) :
    Agrees Tensor.SameContent (renewed id owner t) (renewed id' owner' t') := by
  unfold renewed
  exact (Tensor.agrees_checkShape same).bind fun _ _ _ => .ok same

theorem agrees_withoutDropout {inputs inputs' : Entries String Tensor}
    (same : SameInputs inputs inputs') {op op' : Operation} (content : op'.content = op.content)
    {base base' k k' : Nat} (shift : base + k = base' + k') (owner owner' : GraphId) :
    Agrees (Operation.Renumbered k k') (withoutDropout inputs base owner op)
      (withoutDropout inputs' base' owner' op') := by
  have name := Operation.name_of_content content
  have type := Operation.type_of_content content
  have renewal : ∀ {ts ts' : List Tensor} (start start' : Nat),
      List.Forall₂ Tensor.SameContent ts ts' →
      Agrees (List.Forall₂ Tensor.SameContent)
        (ts.zipIdx.mapM fun e => renewed (start + e.2) owner e.1)
        (ts'.zipIdx.mapM fun e => renewed (start' + e.2) owner' e.1) := by
    intro ts ts' start start' contents
    exact Agrees.mapM (forall₂_zipIdx contents) fun e e' both => agrees_renewed both _ _ _ _
  unfold withoutDropout
  rw [Operation.attrs_of_content content]
  refine (renewal _ _ (Operation.inputs_of_content content)).bind fun ins ins' renewedIns => ?_
  refine (renewal _ _ (Operation.outputs_of_content content)).bind fun outs outs' outputs => ?_
  refine (Agrees.mapM renewedIns fun _ _ => agrees_bypass same).bind fun _ _ inputs => ?_
  refine (Agrees.self (storedAttrs op.attrs)).bind fun attrs _ equal => ?_
  subst equal
  refine .ok ⟨?_, Operation.content_of_parts name type inputs outputs rfl⟩
  have lengths := renewedIns.length_eq
  have lengths' := outputs.length_eq
  show base + ins.length + outs.length + k = base' + ins'.length + outs'.length + k'
  omega

section SameLive

variable {g g' : Graph}

theorem Renumbered.sameLive {k k' : Nat} (same : g.Renumbered k k' g') : g.SameLive g' :=
  ⟨fun name _ => same.sameAt name, same.order, same.outputs, same.backend⟩

theorem SameAt.find {name : String} (same : g.SameAt g' name) :
    Agrees (fun op op' => op'.content = op.content) (g.find name) (g'.find name) := by
  unfold Graph.find
  rcases same.cases with ⟨none, none'⟩ | ⟨op, op', found, found', content⟩
  · rw [none, none']
    exact .error _ _
  · rw [found, found']
    exact .ok content

theorem SameLive.dropoutInputs (same : g.SameLive g') :
    Agrees SameInputs g.dropoutInputs g'.dropoutInputs := by
  have clusters : g'.dropoutClusters = g.dropoutClusters := by
    unfold dropoutClusters
    rw [same.order]
  unfold Graph.dropoutInputs
  rw [same.order, clusters]
  refine Agrees.foldlM_self (fun _ => .none) fun acc acc' name listed kept => ?_
  cases dropoutScope? name with
  | none => exact .ok kept
  | some scope =>
    refine (same.found name listed).find.bind fun op op' content => ?_
    refine (agrees_outsideInput? _ (Operation.inputs_of_content content)).bind fun x y source => ?_
    cases source with
    | none => exact .ok kept
    | some both => exact .ok (kept.set both scope)

theorem SameLive.keptOperations (same : g.SameLive g') {inputs inputs' : Entries String Tensor}
    (sources : SameInputs inputs inputs') {base base' k k' : Nat} (shift : base + k = base' + k')
    (owner owner' : GraphId) {names : List String} (part : names ⊆ g.order) :
    Agrees (List.Forall₂ (Operation.Renumbered k k')) (g.keptOperations inputs owner base names)
      (g'.keptOperations inputs' owner' base' names) := by
  induction names generalizing base base' with
  | nil => exact .ok .nil
  | cons name rest ih =>
    have later := List.subset_of_cons_subset part
    rw [Graph.keptOperations, Graph.keptOperations]
    split
    · exact ih shift later
    · refine (same.found name (part (by simp))).find.bind fun op op' content => ?_
      have ins := (Operation.inputs_of_content content).length_eq
      have outs := (Operation.outputs_of_content content).length_eq
      refine (agrees_withoutDropout sources content shift owner owner').bind fun _ _ first => ?_
      exact (ih (by omega) later).bind fun _ _ others => .ok (.cons first others)

/-- What is left without dropout depends on the operations in the order only. -/
theorem SameLive.dropoutRemoved (same : g.SameLive g') (base base' : Nat) (owner owner' : GraphId) :
    Agrees (Renumbered base' base) (g.dropoutRemoved base owner)
      (g'.dropoutRemoved base' owner') := by
  unfold Graph.dropoutRemoved
  rw [same.order]
  refine same.dropoutInputs.bind fun inputs inputs' sources => ?_
  refine (same.keptOperations sources (Nat.add_comm base base') owner owner'
    (List.Subset.refl _)).bind fun ops ops' kept => ?_
  exact .ok ⟨kept, rfl, same.outputs, same.backend⟩

end SameLive

end Graph

/-! ## Workspaces -/

namespace Workspace

variable {w w' : Workspace} {id id' : GraphId} {k k' : Nat}

/-- Marking constants keeps graphs renumbered, since it finds the same operations by number. -/
theorem agrees_inlineAll (same : (w.graph id).Renumbered k k' (w'.graph id'))
    (names : List String) :
    ((w.inlineAll id names).1.graph id).Renumbered k k' ((w'.inlineAll id' names).1.graph id') ∧
      Agrees Eq (w.inlineAll id names).2 (w'.inlineAll id' names).2 := by
  induction names generalizing w w' with
  | nil => exact ⟨same, .ok rfl⟩
  | cons name rest ih =>
    have found := same.find name
    unfold inlineAll
    revert found
    generalize (w.graph id).find name = x, (w'.graph id').find name = y
    intro found
    cases found with
    | error f f' => exact ⟨same, .error f f'⟩
    | @ok op op' both =>
      dsimp only
      rw [Operation.type_of_content both.content]
      split
      · refine ih ?_
        rw [graph_updateOperation, graph_updateOperation]
        refine same.mapOps fun other other' others => ?_
        have here : other'.id = op'.id ↔ other.id = op.id := by
          have own := both.id
          have others := others.id
          omega
        by_cases named : other.id = op.id
        · rw [if_pos named, if_pos (here.mpr named)]
          exact ⟨others.id,
            congrArg (fun op : Operation => { op with type := "Inline" }) others.content⟩
        · rw [if_neg named, if_neg (mt here.mp named)]
          exact others
      · exact ih same

/-- What two steps on workspaces end with: both fail, or both give related graphs. -/
def LinkedBy (R : Graph → Graph → Prop) (x y : Workspace × Except Fault GraphId) : Prop :=
  Agrees (fun id id' => R (x.1.graph id) (y.1.graph id')) x.2 y.2

/-- Two steps both fail, or both give graphs that differ in numbers only. -/
def Linked : Workspace × Except Fault GraphId → Workspace × Except Fault GraphId → Prop :=
  LinkedBy fun g g' => ∃ k k', g.Renumbered k k' g'

theorem linkedBy_adding {R : Graph → Graph → Prop} {r r' : Except Fault Graph}
    (graphs : Agrees R r r') (w w' : Workspace) (n n' : Nat) :
    LinkedBy R (w.adding n r) (w'.adding n' r') := by
  cases graphs with
  | error f f' => exact .error f f'
  | ok related =>
    refine .ok ?_
    unfold adding
    rw [graph_reserve, graph_reserve, graph_add, graph_add]
    exact related

theorem linked_adding {r r' : Except Fault Graph}
    (graphs : Agrees (Graph.Renumbered k k') r r') (w w' : Workspace) (n n' : Nat) :
    Linked (w.adding n r) (w'.adding n' r') :=
  linkedBy_adding (graphs.imp fun _ _ same => ⟨k, k', same⟩) w w' n n'

theorem linked_removeDropout (same : (w.graph id).SameLive (w'.graph id')) :
    Linked (w.removeDropout id) (w'.removeDropout id') := by
  have removed := same.dropoutRemoved w.next w'.next w.nextGraph w'.nextGraph
  exact linked_adding removed w w' (w.graph id).numbers (w'.graph id').numbers

theorem linked_countReferences (same : (w.graph id).Renumbered k k' (w'.graph id')) :
    Linked (w.countReferences id) (w'.countReferences id') := by
  have counted := (same.copy w.next w'.next w.nextGraph w'.nextGraph).bind
    fun _ _ copied => copied.counted
  exact linked_adding counted w w' w.next w'.next

theorem linked_prune (same : (w.graph id).Renumbered k k' (w'.graph id')) :
    Linked (w.prune id) (w'.prune id') := by
  have pruned := (same.copy w.next w'.next w.nextGraph w'.nextGraph).bind
    fun _ _ copied => copied.pruned
  exact linked_adding pruned w w' w.next w'.next

theorem linked_ofNodes [Importer] (w w' : Workspace) (nodes : List Node) (outputs : Value) :
    Linked (w.ofNodes nodes outputs) (w'.ofNodes nodes outputs) := by
  have read := Graph.agrees_ofNodes w.next w'.next w.nextGraph w'.nextGraph nodes outputs
  exact linked_adding read w w' (Node.numbersOf nodes) (Node.numbersOf nodes)

theorem linked_inlineConstants (same : (w.graph id).Renumbered k k' (w'.graph id')) :
    Linked (w.inlineConstants id) (w'.inlineConstants id') := by
  obtain ⟨kept, agree⟩ := agrees_inlineAll same (w.graph id).order
  unfold inlineConstants Linked LinkedBy
  rw [same.order]
  revert kept agree
  generalize w.inlineAll id (w.graph id).order = x, w'.inlineAll id' (w.graph id).order = y
  intro kept agree
  rcases x with ⟨w₁, r⟩
  rcases y with ⟨w₁', r'⟩
  cases agree with
  | error f f' => exact .error f f'
  | ok _ => exact .ok ⟨k, k', kept⟩

theorem linked_quantize [Importer] (quantizer : Quantizer)
    (same : (w.graph id).Renumbered k k' (w'.graph id')) :
    Linked (w.quantize quantizer id) (w'.quantize quantizer id') := by
  unfold Workspace.quantize
  dsimp only
  rw [same.nodes, same.outputs]
  cases (w.graph id).nodes with
  | error f => exact .error f f
  | ok nodes =>
    dsimp only
    cases quantizer ⟨nodes, [], (w.graph id).outputs, quantizeTransforms⟩ with
    | error f => exact .error f f
    | ok nodes' => exact linked_ofNodes _ _ nodes' _

theorem linked_apply [Importer] (quantizer : Quantizer)
    (same : (w.graph id).Renumbered k k' (w'.graph id'))
    (pass : Pass) : Linked (w.apply quantizer id pass) (w'.apply quantizer id' pass) := by
  cases pass with
  | refCount => exact linked_countReferences same
  | dropout => exact linked_removeDropout same.sameLive
  | batchNorm => exact .error _ _
  | quantize => exact linked_quantize quantizer same
  | inline => exact linked_inlineConstants same

theorem sort_of_sorted {g : Graph} (sorted : (w.graph id).sort = .ok g) :
    w.sort id = (w.set id g, .ok ()) ∧ (w.set id g).graph id = g := by
  have run : w.sort id = (w.set id g, .ok ()) := by
    unfold Workspace.sort
    rw [sorted]
  have ordered := graph_of_sort run
  rw [sorted] at ordered
  exact ⟨run, (Except.ok.inj ordered).symm⟩

theorem sort_of_failed {f : Fault} (failed : (w.graph id).sort = .error f) :
    w.sort id = (w, .error f) := by
  unfold Workspace.sort
  rw [failed]

theorem agrees_sort (same : (w.graph id).Renumbered k k' (w'.graph id')) :
    Agrees (fun _ _ => ((w.sort id).1.graph id).Renumbered k k' ((w'.sort id').1.graph id'))
      (w.sort id).2 (w'.sort id').2 := by
  have sorts := same.sort
  generalize left : (w.graph id).sort = x, right : (w'.graph id').sort = y at sorts
  cases sorts with
  | error f f' =>
    rw [sort_of_failed left, sort_of_failed right]
    exact .error f f'
  | ok both =>
    obtain ⟨run, here⟩ := sort_of_sorted left
    obtain ⟨run', here'⟩ := sort_of_sorted right
    rw [run, run', here, here']
    exact .ok both

theorem linked_runStep [Importer] {quantizer : Quantizer} {s : PassStep}
    (applied : Linked (w.apply quantizer id s.pass) (w'.apply quantizer id' s.pass)) :
    Linked (w.runStep quantizer id s) (w'.runStep quantizer id' s) := by
  unfold runStep
  revert applied
  generalize w.apply quantizer id s.pass = x, w'.apply quantizer id' s.pass = y
  rcases x with ⟨w₁, r⟩
  rcases y with ⟨w₁', r'⟩
  intro applied
  cases applied with
  | error f f' => exact .error f f'
  | @ok id₁ id₁' same =>
    obtain ⟨k, k', same⟩ := same
    have sorts := agrees_sort same
    dsimp only
    revert sorts
    generalize w₁.sort id₁ = x, w₁'.sort id₁' = y
    rcases x with ⟨w₂, r⟩
    rcases y with ⟨w₂', r'⟩
    intro sorts
    cases sorts with
    | error f f' => exact .error f f'
    | ok same =>
      dsimp only
      cases s.prune.truth? with
      | none => exact .error _ _
      | some keep =>
        cases keep with
        | false => exact .ok ⟨k, k', same⟩
        | true => exact linked_prune same

theorem linked_run_cons [Importer] {quantizer : Quantizer} {s : PassStep} {rest : Pipeline}
    (first : Linked (w.runStep quantizer id s) (w'.runStep quantizer id' s))
    (later : ∀ (w w' : Workspace) id id' k k', (w.graph id).Renumbered k k' (w'.graph id') →
      Linked (w.run quantizer id rest) (w'.run quantizer id' rest)) :
    Linked (w.run quantizer id (s :: rest)) (w'.run quantizer id' (s :: rest)) := by
  unfold run
  revert first
  generalize w.runStep quantizer id s = x, w'.runStep quantizer id' s = y
  rcases x with ⟨w₁, r⟩
  rcases y with ⟨w₁', r'⟩
  intro first
  cases first with
  | error f f' => exact .error f f'
  | ok same =>
    obtain ⟨k, k', same⟩ := same
    exact later _ _ _ _ k k' same

/-- A pipeline cannot tell graphs apart that differ in numbers only. -/
theorem linked_run [Importer] (quantizer : Quantizer)
    (same : (w.graph id).Renumbered k k' (w'.graph id'))
    (steps : Pipeline) : Linked (w.run quantizer id steps) (w'.run quantizer id' steps) := by
  induction steps generalizing w w' id id' k k' with
  | nil => exact .ok ⟨k, k', same⟩
  | cons s rest ih =>
    exact linked_run_cons (linked_runStep (linked_apply quantizer same s.pass))
      fun _ _ _ _ _ _ same => ih same

/-- If dropout is removed first, a pipeline cannot tell graphs apart that have the same operations
in the same order. -/
theorem linked_run_dropout [Importer] (quantizer : Quantizer)
    (same : (w.graph id).SameLive (w'.graph id')) (prune : Value) (steps : Pipeline) :
    Linked (w.run quantizer id (⟨.dropout, prune⟩ :: steps))
      (w'.run quantizer id' (⟨.dropout, prune⟩ :: steps)) := by
  have applied : Linked (w.apply quantizer id .dropout) (w'.apply quantizer id' .dropout) :=
    linked_removeDropout same
  exact linked_run_cons (linked_runStep applied) fun _ _ _ _ _ _ same =>
    linked_run quantizer same steps

end Workspace

end TensorEmit
