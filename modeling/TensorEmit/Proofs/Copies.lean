import TensorEmit.Graph.Copy
import TensorEmit.Proofs.Attributes
import TensorEmit.Proofs.Pruning

/-!
# What copies keep

A copy gives new numbers to operations and tensors, makes the copy their owner and stores the
attributes anew, as `Operation.CopiedInto` says. `Operation.Alike` relates an operation to what such
steps make of it: everything but numbers, owners and the form of attributes is the same.

`Graph.PrunedCopy` says what pruning a copy gives: an operation for each one that the outputs need,
found under the same name.
-/

namespace TensorEmit

/-! ## Tensors -/

/-- A tensor apart from its number and its owner. -/
def Tensor.content (t : Tensor) : Tensor := { t with id := 0, owner := 0 }

theorem Tensor.name_of_content {t t' : Tensor} (same : t'.content = t.content) :
    t'.name = t.name := by
  have names := congrArg Tensor.name same
  exact names

/-- Tensors of the same contents have the same names. -/
theorem Tensor.names_of_contents {ts ts' : List Tensor}
    (same : ts'.map Tensor.content = ts.map Tensor.content) :
    ts'.map Tensor.name = ts.map Tensor.name := by
  have names := congrArg (List.map Tensor.name) same
  rw [List.map_map, List.map_map] at names
  exact names

/-- What holds of tensors and is a matter of their contents holds of tensors of the same
contents. -/
theorem Tensor.forall_of_contents {P : Tensor → Prop}
    (content : ∀ {t t' : Tensor}, t'.content = t.content → P t → P t') {ts ts' : List Tensor}
    (same : ts'.map Tensor.content = ts.map Tensor.content) (each : ∀ t ∈ ts, P t) :
    ∀ t' ∈ ts', P t' := by
  intro t' member
  obtain ⟨t, inside, equal⟩ := exists_left_of_forall₂ (forall₂_of_views same) member
  exact content equal (each t inside)

theorem Tensor.shaped_of_content {t t' : Tensor} (same : t'.content = t.content)
    (shaped : checkShape t.shape = .ok ()) : checkShape t'.shape = .ok () := by
  have shapes := congrArg Tensor.shape same
  exact (congrArg checkShape shapes).trans shaped

/-- A tensor has a copy if its sizes pass the check. Its number and its owner are all that is
new. -/
theorem Tensor.copy_eq_ok_iff {base : Nat} {owner : GraphId} {t t' : Tensor} :
    t.copy base owner = .ok t' ↔
      checkShape t.shape = .ok () ∧ { t with id := base + t.id, owner := owner } = t' := by
  unfold Tensor.copy
  simp only [bind_eq_ok_iff, pure_eq_ok_iff]
  constructor
  · rintro ⟨_, checked, made⟩
    exact ⟨checked, made⟩
  · rintro ⟨checked, made⟩
    exact ⟨(), checked, made⟩

theorem Tensor.content_of_copy {base : Nat} {owner : GraphId} {t t' : Tensor}
    (run : t.copy base owner = .ok t') : t'.content = t.content := by
  obtain ⟨_, rfl⟩ := Tensor.copy_eq_ok_iff.mp run
  rfl

/-! ## Operations -/

/-- All sizes are still such that the tensors could be made. -/
def Operation.Shaped (op : Operation) : Prop :=
  ∀ t ∈ op.tensors, Tensor.checkShape t.shape = .ok ()

instance (op : Operation) : Decidable op.Shaped :=
  inferInstanceAs (Decidable (∀ t ∈ op.tensors, Tensor.checkShape t.shape = .ok ()))

theorem Operation.forall_tensors_iff {P : Tensor → Prop} {op : Operation} :
    (∀ t ∈ op.tensors, P t) ↔ (∀ t ∈ op.inputs, P t) ∧ ∀ t ∈ op.outputs, P t :=
  List.forall_mem_append

/-- An operation and what a copy makes of it. -/
structure Operation.Alike (op op' : Operation) : Prop where
  name : op'.name = op.name
  type : op'.type = op.type
  inputs : op'.inputs.map Tensor.content = op.inputs.map Tensor.content
  outputs : op'.outputs.map Tensor.content = op.outputs.map Tensor.content
  attrs : op'.attrs = op.attrs ∨ storedAttrs op.attrs = .ok op'.attrs

namespace Operation.Alike

theorem refl (op : Operation) : op.Alike op := ⟨rfl, rfl, rfl, rfl, .inl rfl⟩

/-- Attributes in stored form are the same. -/
theorem attrs_eq {op op' : Operation} (alike : op.Alike op')
    (stored : storedAttrs op.attrs = .ok op.attrs) : op'.attrs = op.attrs := by
  rcases alike.attrs with same | again
  · exact same
  · rw [stored] at again
    exact (Except.ok.inj again).symm

/-- What holds of all tensors of an operation and is a matter of their contents holds of those of a
copy. -/
theorem forall_tensors {P : Tensor → Prop}
    (content : ∀ {t t' : Tensor}, t'.content = t.content → P t → P t') {op op' : Operation}
    (alike : op.Alike op') (each : ∀ t ∈ op.tensors, P t) : ∀ t ∈ op'.tensors, P t := by
  rw [Operation.forall_tensors_iff] at each ⊢
  exact ⟨Tensor.forall_of_contents content alike.inputs each.1,
    Tensor.forall_of_contents content alike.outputs each.2⟩

end Operation.Alike

/-- What a copy of an operation for a graph is made of. -/
structure Operation.CopiedInto (base : Nat) (graph : GraphId) (op op' : Operation) : Prop where
  id : op'.id = base + op.id
  name : op'.name = op.name
  type : op'.type = op.type
  inputs : op.inputs.mapM (Tensor.copy base graph) = .ok op'.inputs
  outputs : op.outputs.mapM (Tensor.copy base graph) = .ok op'.outputs
  attrs : storedAttrs op.attrs = .ok op'.attrs
  owner : op'.owner = graph

theorem Operation.copiedInto_of_copy {base : Nat} {owner : GraphId} {op op' : Operation}
    (run : op.copy base owner = .ok op') : op.CopiedInto base owner op' := by
  unfold Operation.copy at run
  simp only [bind_eq_ok_iff, pure_eq_ok_iff] at run
  obtain ⟨inputs, ins, outputs, outs, attrs, stored, rfl⟩ := run
  exact ⟨rfl, rfl, rfl, ins, outs, stored, rfl⟩

theorem Operation.CopiedInto.alike {base : Nat} {graph : GraphId} {op op' : Operation}
    (copied : op.CopiedInto base graph op') : op.Alike op' :=
  ⟨copied.name, copied.type, map_view_of_mapM copied.inputs fun _ _ => Tensor.content_of_copy,
    map_view_of_mapM copied.outputs fun _ _ => Tensor.content_of_copy, .inr copied.attrs⟩

/-- Every tensor of a copy is the copy of a tensor. -/
theorem Operation.CopiedInto.exists_tensor {base : Nat} {graph : GraphId} {op op' : Operation}
    (copied : op.CopiedInto base graph op') {t' : Tensor} (member : t' ∈ op'.tensors) :
    ∃ t ∈ op.tensors, t.copy base graph = .ok t' := by
  rcases List.mem_append.mp member with input | output
  · obtain ⟨t, inside, made⟩ := exists_of_mem_mapM copied.inputs input
    exact ⟨t, List.mem_append_left _ inside, made⟩
  · obtain ⟨t, inside, made⟩ := exists_of_mem_mapM copied.outputs output
    exact ⟨t, List.mem_append_right _ inside, made⟩

/-! ## Graphs -/

namespace Graph

/-- Lists of related operations of the same names have related operations under every name. -/
theorem find?_related {R : Operation → Operation → Prop}
    (names : ∀ op op', R op op' → op'.name = op.name) {ops ops' : List Operation}
    (related : List.Forall₂ R ops ops') (name : String) :
    Option.Rel R (ops.find? fun op => op.name = name) (ops'.find? fun op => op.name = name) := by
  induction related with
  | nil => exact .none
  | @cons op op' ops ops' head tail ih =>
    rw [List.find?_cons, List.find?_cons, names op op' head]
    by_cases here : op.name = name
    · simp only [here, decide_true]
      exact .some head
    · simp only [here, decide_false]
      exact ih

/-- Lists of operations that are alike have operations that are alike under every name. -/
theorem find?_alike {ops ops' : List Operation} (alike : List.Forall₂ Operation.Alike ops ops')
    (name : String) :
    Option.Rel Operation.Alike (ops.find? fun op => op.name = name)
      (ops'.find? fun op => op.name = name) :=
  find?_related (fun _ _ both => both.name) alike name

/-- A graph with an operation like each one of another graph. -/
structure Copied (g g' : Graph) : Prop where
  ops : List.Forall₂ Operation.Alike g.ops g'.ops
  order : g'.order = g.order
  outputs : g'.outputs = g.outputs
  backend : g'.backend = g.backend

/-- A graph is copied by copying its operations one by one. -/
theorem copy_eq_ok_iff {base : Nat} {id : GraphId} {g g' : Graph} :
    g.copy base id = .ok g' ↔
      ∃ ops, g.ops.mapM (Operation.copy base id) = .ok ops ∧ { g with ops := ops } = g' := by
  unfold copy
  simp only [bind_eq_ok_iff, pure_eq_ok_iff]

theorem copied_of_copy {base : Nat} {id : GraphId} {g g' : Graph}
    (run : g.copy base id = .ok g') : g.Copied g' := by
  obtain ⟨ops, copies, rfl⟩ := copy_eq_ok_iff.mp run
  refine ⟨(mapM_eq_ok_iff.mp copies).imp fun op op' made => ?_, rfl, rfl, rfl⟩
  exact (Operation.copiedInto_of_copy made).alike

/-- Every operation of a copy is the copy of an operation. -/
theorem exists_of_mem_copy {base : Nat} {id : GraphId} {g g' : Graph}
    (run : g.copy base id = .ok g') {op' : Operation} (member : op' ∈ g'.ops) :
    ∃ op ∈ g.ops, op.CopiedInto base id op' := by
  obtain ⟨ops, copies, rfl⟩ := copy_eq_ok_iff.mp run
  obtain ⟨op, inside, made⟩ := exists_of_mem_mapM copies member
  exact ⟨op, inside, Operation.copiedInto_of_copy made⟩

/-- What the operations read, by name. -/
def wires (g : Graph) : List (String × List String) :=
  g.ops.map fun op => (op.name, op.inputs.map Tensor.name)

theorem needs_iff_wires {g : Graph} {a b : String} :
    g.Needs a b ↔ ∃ wire, g.wires.find? (fun wire => wire.1 = a) = some wire ∧
      ∃ s ∈ wire.2, TensorName.producer s = .ok b := by
  unfold Needs wires find?
  rw [List.find?_map]
  constructor
  · rintro ⟨op, found, t, read, made⟩
    refine ⟨_, Option.map_eq_some_iff.mpr ⟨op, found, rfl⟩, t.name, ?_, made⟩
    exact List.mem_map_of_mem read
  · rintro ⟨wire, found, s, read, made⟩
    obtain ⟨op, here, rfl⟩ := Option.map_eq_some_iff.mp found
    obtain ⟨t, inside, rfl⟩ := List.mem_map.mp read
    exact ⟨op, here, t, inside, made⟩

/-- What the outputs need depends on the wires only. -/
theorem reachable_congr {g g' : Graph} (wires : g'.wires = g.wires)
    (outputs : g'.outputs = g.outputs) (name : String) :
    g'.Reachable name ↔ g.Reachable name := by
  have same : g'.Needs = g.Needs := by
    funext a b
    rw [eq_iff_iff, needs_iff_wires, needs_iff_wires, wires]
  unfold Reachable
  rw [same, outputs]

/-- Operations that are alike have the same wires. -/
theorem wires_of_alike {ops ops' : List Operation}
    (alike : List.Forall₂ Operation.Alike ops ops') :
    (ops'.map fun op => (op.name, op.inputs.map Tensor.name)) =
      ops.map fun op => (op.name, op.inputs.map Tensor.name) := by
  refine views_of_forall₂ (alike.imp ?_)
  intro op op' both
  rw [both.name, Tensor.names_of_contents both.inputs]

/-! ## Pruned copies -/

/-- A graph with an operation like each one that the outputs of another graph need. -/
structure PrunedCopy (g g' : Graph) : Prop where
  ops : ∃ names : List String, (∀ n, n ∈ names ↔ g.Reachable n) ∧
    List.Forall₂ Operation.Alike (g.ops.filter fun op => op.name ∈ names) g'.ops
  order : g'.order = g.order
  outputs : g'.outputs = g.outputs
  backend : g'.backend = g.backend

/-- Related operations of the same names are kept or dropped together. -/
theorem filter_related {R : Operation → Operation → Prop}
    (names : ∀ op op', R op op' → op'.name = op.name) {ops ops' : List Operation}
    (related : List.Forall₂ R ops ops') (kept : List String) :
    List.Forall₂ R (ops.filter fun op => op.name ∈ kept)
      (ops'.filter fun op => op.name ∈ kept) := by
  induction related with
  | nil => exact .nil
  | @cons op op' ops ops' head tail ih =>
    have same := names op op' head
    by_cases stays : op.name ∈ kept
    · rw [List.filter_cons_of_pos (by simpa using stays),
        List.filter_cons_of_pos (by simpa [same] using stays)]
      exact .cons head ih
    · rw [List.filter_cons_of_neg (by simpa using stays),
        List.filter_cons_of_neg (by simpa [same] using stays)]
      exact ih

theorem prunedCopy_of_pruned {base : Nat} {id : GraphId} {g c g' : Graph}
    (copy : g.copy base id = .ok c) (pruned : c.pruned = .ok g') : g.PrunedCopy g' := by
  have copied := copied_of_copy copy
  obtain ⟨names, search, rfl⟩ := pruned_eq_ok_iff.mp pruned
  refine ⟨⟨names, ?_, filter_related (fun _ _ both => both.name) copied.ops names⟩, copied.order,
    copied.outputs, copied.backend⟩
  intro n
  rw [mem_needed_iff search]
  exact reachable_congr (wires_of_alike copied.ops) copied.outputs n

/-- A needed operation is found in a pruned copy under its name. -/
theorem PrunedCopy.find? {g g' : Graph} (copy : g.PrunedCopy g') {name : String} {op : Operation}
    (reached : g.Reachable name) (found : g.find? name = some op) :
    ∃ op', g'.find? name = some op' ∧ op.Alike op' := by
  obtain ⟨names, listed, alike⟩ := copy.ops
  have kept : (g.ops.filter fun op => op.name ∈ names).find? (fun op => op.name = name) =
      some op := by
    rw [List.find?_filter, ← found]
    unfold Graph.find?
    congr 1
    funext other
    by_cases same : other.name = name
    · simp [same, (listed name).mpr reached]
    · simp [same]
  have related := find?_alike alike name
  rw [kept] at related
  unfold Graph.find?
  cases found' : g'.ops.find? fun op => op.name = name with
  | none =>
    rw [found'] at related
    cases related
  | some op' =>
    rw [found'] at related
    cases related with
    | some both => exact ⟨op', rfl, both⟩

/-- Every operation of a pruned copy is like a needed operation of the graph. -/
theorem PrunedCopy.exists_alike {g g' : Graph} (copy : g.PrunedCopy g') {op' : Operation}
    (member : op' ∈ g'.ops) : ∃ op ∈ g.ops, op.Alike op' ∧ g.Reachable op.name := by
  obtain ⟨names, listed, alike⟩ := copy.ops
  obtain ⟨op, kept, both⟩ := exists_left_of_forall₂ alike member
  rw [List.mem_filter, decide_eq_true_eq] at kept
  exact ⟨op, kept.1, both, (listed op.name).mp kept.2⟩

end Graph

end TensorEmit
