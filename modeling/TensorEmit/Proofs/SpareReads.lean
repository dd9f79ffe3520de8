import TensorEmit.Proofs.Importing
import TensorEmit.Proofs.InPlace
import TensorEmit.Proofs.ReferenceCounts

/-!
# Reads of spare operations

Counting references goes through all operations of a graph, while only those of its order are
evaluated. So the count of a tensor is the number of reads that take place plus the number of reads
of spare operations, which no output needs and nothing removes (`Graph.uses_eq_add`). The notes are
left on the operations of the order that the graph has before it is sorted again; an operation that
only the new order lists has the notes that it had before (`Graph.note_of_counted`).
-/

namespace TensorEmit

/-! ## Kept notes -/

theorem Entries.get?_filter {κ α : Type} [DecidableEq κ] {p : κ → Bool} {k : κ} (kept : p k = true)
    (es : Entries κ α) : Entries.get? (es.filter fun e => p e.1) k = es.get? k := by
  induction es with
  | nil => rfl
  | cons e es ih =>
    obtain ⟨k', v⟩ := e
    by_cases here : k' = k
    · subst here
      rw [List.filter_cons_of_pos (by simpa using kept), Entries.get?, Entries.get?, if_pos rfl,
        if_pos rfl]
    · rw [Entries.get?, if_neg here, ← ih]
      by_cases kept' : p k' = true
      · rw [List.filter_cons_of_pos (by simpa using kept'), Entries.get?, if_neg here]
      · rw [List.filter_cons_of_neg (by simpa using kept')]

/-- A copy has the counts of what it was made of. -/
theorem Operation.Alike.counts_eq {op op' : Operation} (alike : op.Alike op') :
    op'.attrs.get? countsKey = op.attrs.get? countsKey := by
  have marked : Text.startsWith noteMark countsKey = true := by decide
  have notes := alike.notesOf_eq
  unfold notesOf at notes
  rw [← Entries.get?_filter (p := Text.startsWith noteMark) marked, notes,
    Entries.get?_filter (p := Text.startsWith noteMark) marked]

namespace Graph

/-! ## Reads that take place -/

/-- How often the operations of the order read a tensor name. -/
def orderedUses (g : Graph) (name : String) : Nat :=
  (g.orderedOps.flatMap Operation.readNames).count name

/-- The operations that the order does not list. -/
def spareOps (g : Graph) : List Operation := g.ops.filter fun op => op.name ∉ g.order

/-- How often the other operations read it. -/
def spareUses (g : Graph) (name : String) : Nat :=
  (g.spareOps.flatMap Operation.readNames).count name

section Uses

variable {g g' : Graph}

theorem uses_eq_add (distinct : (g.ops.map Operation.name).Nodup) (ordered : g.Ordered g.order)
    (name : String) : g.uses name = g.orderedUses name + g.spareUses name := by
  have both : (g.orderedOps ++ g.spareOps).Perm g.ops := by
    refine ((perm_orderedOps distinct ordered).symm.append_right _).trans ?_
    unfold spareOps
    simp only [decide_not]
    exact List.filter_append_perm _ g.ops
  unfold orderedUses spareUses
  rw [← List.count_append, ← List.flatMap_append]
  exact ((both.flatMap_right Operation.readNames).count_eq name).symm

theorem spareUses_eq_wires (name : String) : g.spareUses name =
    ((g.wires.filter fun wire => wire.1 ∉ g.order).flatMap Prod.snd).count name := by
  unfold spareUses spareOps wires
  rw [List.filter_map, List.flatMap_map]
  rfl

theorem spareUses_congr (wires : g'.wires = g.wires)
    (order : ∀ name, name ∈ g'.order ↔ name ∈ g.order) (name : String) :
    g'.spareUses name = g.spareUses name := by
  rw [spareUses_eq_wires, spareUses_eq_wires, wires]
  simp only [order]

/-- No spare operation reads what an operation of the order makes. -/
def SpareReadsApart (g : Graph) : Prop :=
  ∀ op ∈ g.orderedOps, ∀ t ∈ op.outputs, g.spareUses t.name = 0

/-- The notes of the operations of the order count the reads that take place. -/
def CountsOrdered (g : Graph) : Prop :=
  ∀ op ∈ g.orderedOps, op.attrs.get? countsKey =
    some (.list (op.outputs.map fun t => .int (g.orderedUses t.name)))

/-- Counts with reads of spare operations in them are right if there are no such reads. -/
theorem counts_eq_iff {ts : List Tensor} {a b : String → Nat} :
    Value.list (ts.map fun t => .int ((a t.name + b t.name : Nat) : Int)) =
      .list (ts.map fun t => .int (a t.name)) ↔ ∀ t ∈ ts, b t.name = 0 := by
  rw [Value.list.injEq, List.map_inj_left]
  refine forall₂_congr fun t _ => ?_
  rw [Value.int.injEq]
  omega

end Uses

/-! ## Counting in a graph with spare operations -/

section Counting

variable {g c g₁ g' : Graph}

theorem wires_of_counting (copied : g.Copied c) (counted : c.counted = .ok g₁) :
    g₁.wires = g.wires := by
  rw [wires_of_counted counted, wires, wires_of_alike copied.ops]
  rfl

theorem wires_of_sort (sort : g₁.sort = .ok g') : g'.wires = g₁.wires := by
  obtain ⟨names, _, made⟩ := sort_eq_ok_iff.mp sort
  subst made
  rfl

/-- What counting makes of an operation: if the order lists it, it gets the numbers of all reads of
its outputs, and if not, it keeps its notes. -/
theorem note_of_counted (copied : g.Copied c) (counted : c.counted = .ok g₁) {name : String}
    {op₁ : Operation} (found : g₁.find? name = some op₁) :
    ∃ op, g.find? name = some op ∧
      op₁.outputs.map Tensor.name = op.outputs.map Tensor.name ∧
      op₁.attrs.get? countsKey = if name ∈ g.order then
        some (.list (op₁.outputs.map fun t => .int (g.uses t.name)))
      else op.attrs.get? countsKey := by
  have sameUses : ∀ n, c.uses n = g.uses n := uses_congr (wires_of_alike copied.ops)
  rw [eq_of_counted counted, find?_mapOps] at found
  · obtain ⟨op', found', made⟩ := Option.map_eq_some_iff.mp found
    have related := find?_alike copied.ops name
    unfold find? at found' ⊢
    rw [found'] at related
    cases found₀ : g.ops.find? fun op => op.name = name with
    | none =>
      rw [found₀] at related
      cases related
    | some op =>
      rw [found₀] at related
      cases related with
      | some alike =>
        have named : op'.name = name := find?_name found'
        have outputs : op'.outputs.map Tensor.name = op.outputs.map Tensor.name :=
          Tensor.names_of_contents alike.outputs
        rw [named, copied.order] at made
        subst made
        split
        case isTrue listed =>
          refine ⟨op, rfl, outputs, ?_⟩
          unfold annotate
          dsimp only
          rw [Entries.get?_set_self]
          simp only [sameUses]
        case isFalse => exact ⟨op, rfl, outputs, alike.counts_eq⟩
  · intro op
    split
    · rfl
    · rfl

/-- The counts of an operation that is evaluated after counting are those of all reads, if it was
in the order before. -/
theorem note_of_counting (distinct : (g.ops.map Operation.name).Nodup) (copied : g.Copied c)
    (counted : c.counted = .ok g₁) (sort : g₁.sort = .ok g') {op' : Operation}
    (member : op' ∈ g'.orderedOps) :
    ∃ op, g.find? op'.name = some op ∧
      op'.outputs.map Tensor.name = op.outputs.map Tensor.name ∧
      op'.attrs.get? countsKey = if op'.name ∈ g.order then
        some (.list (op'.outputs.map fun t =>
          .int ((g'.orderedUses t.name + g'.spareUses t.name : Nat) : Int)))
      else op.attrs.get? countsKey := by
  obtain ⟨names, sorted, made⟩ := sort_eq_ok_iff.mp sort
  have ordered : g'.Ordered g'.order := ordered_of_sorted (sorted_of_sort sort)
  have wires := (wires_of_sort sort).trans (wires_of_counting copied counted)
  have distinct' : (g'.ops.map Operation.name).Nodup := by
    rw [names_eq_wires, wires, ← names_eq_wires]
    exact distinct
  have found : g₁.find? op'.name = some op' := by
    have here := (mem_orderedOps.mp member).2
    rw [← made] at here
    exact here
  obtain ⟨op, old, outputs, note⟩ := note_of_counted copied counted found
  refine ⟨op, old, outputs, ?_⟩
  rw [note]
  simp only [← uses_eq_add distinct' ordered, uses_congr wires]

theorem mem_order_of_counting (copied : g.Copied c) (counted : c.counted = .ok g₁)
    (sort : g₁.sort = .ok g') (needed : ∀ name, name ∈ g.order ↔ g.Reachable name)
    (name : String) : name ∈ g'.order ↔ name ∈ g.order := by
  obtain ⟨names, sorted, made⟩ := sort_eq_ok_iff.mp sort
  subst made
  have outputs : g₁.outputs = g.outputs := (outputs_of_counted counted).trans copied.outputs
  rw [needed, ← reachable_congr (wires_of_counting copied counted) outputs]
  exact mem_sorted_iff sorted name

/-- In a graph whose order lists what the outputs need, counting is right exactly if no spare
operation reads what is evaluated. -/
theorem countsOrdered_iff_of_counting (distinct : (g.ops.map Operation.name).Nodup)
    (copied : g.Copied c) (counted : c.counted = .ok g₁) (sort : g₁.sort = .ok g')
    (needed : ∀ name, name ∈ g.order ↔ g.Reachable name) :
    g'.CountsOrdered ↔ g.SpareReadsApart := by
  have order := mem_order_of_counting copied counted sort needed
  have wires := (wires_of_sort sort).trans (wires_of_counting copied counted)
  have ordered : g'.Ordered g'.order := ordered_of_sorted (sorted_of_sort sort)
  -- The note of an operation of the new order, which is one of the old order too.
  have right : ∀ op' ∈ g'.orderedOps, op'.attrs.get? countsKey =
      some (.list (op'.outputs.map fun t => .int (g'.orderedUses t.name))) ↔
        ∀ t ∈ op'.outputs, g.spareUses t.name = 0 := by
    intro op' member
    obtain ⟨_, _, _, note⟩ := note_of_counting distinct copied counted sort member
    rw [note, if_pos ((order op'.name).mp (mem_orderedOps.mp member).1), Option.some_inj,
      counts_eq_iff]
    simp only [spareUses_congr wires order]
  constructor
  · intro counts op member t made
    obtain ⟨listed, found⟩ := mem_orderedOps.mp member
    obtain ⟨op', found'⟩ := ordered.found ((order op.name).mpr listed)
    have name := find?_name found'
    have member' : op' ∈ g'.orderedOps :=
      mem_orderedOps.mpr ⟨name ▸ (order op.name).mpr listed, name ▸ found'⟩
    obtain ⟨op₀, found₀, outputs, _⟩ := note_of_counting distinct copied counted sort member'
    rw [name, found] at found₀
    cases found₀
    have named : t.name ∈ op'.outputs.map Tensor.name := by
      rw [outputs]
      exact List.mem_map_of_mem made
    obtain ⟨t', made', same⟩ := List.mem_map.mp named
    rw [← same]
    exact (right op' member').mp (counts op' member') t' made'
  · intro apart op' member
    obtain ⟨op, found, outputs, _⟩ := note_of_counting distinct copied counted sort member
    refine (right op' member).mpr fun t' made' => ?_
    have named : t'.name ∈ op.outputs.map Tensor.name := by
      rw [← outputs]
      exact List.mem_map_of_mem made'
    obtain ⟨t, made, same⟩ := List.mem_map.mp named
    rw [← same]
    have name := find?_name found
    refine apart op (mem_orderedOps.mpr ?_) t made
    rw [name]
    exact ⟨(order op'.name).mp (mem_orderedOps.mp member).1, found⟩

end Counting

end Graph

/-! ## Counting in a workspace -/

namespace Workspace

/-- Counting gives an operation that is evaluated the number of all reads of its outputs, those that
take place and those of spare operations, if the order listed it before; any other one keeps what
notes it had. So where the order lists what the outputs need, the counts are right exactly if no
spare operation reads what is evaluated. -/
theorem counts_right_iff_spareReadsApart [Importer] {quantizer : Quantizer} {w w' : Workspace}
    {id id' : GraphId} (run : w.runStep quantizer id ⟨.refCount, .bool false⟩ = (w', .ok id'))
    (distinct : ((w.graph id).ops.map Operation.name).Nodup) :
    (∀ op' ∈ (w'.graph id').orderedOps, ∃ op, (w.graph id).find? op'.name = some op ∧
      op'.attrs.get? countsKey = if op'.name ∈ (w.graph id).order then
        some (.list (op'.outputs.map fun t =>
          .int (((w'.graph id').orderedUses t.name + (w'.graph id').spareUses t.name : Nat) : Int)))
      else op.attrs.get? countsKey) ∧
    ((∀ name, name ∈ (w.graph id).order ↔ (w.graph id).Reachable name) →
      ((w'.graph id').CountsOrdered ↔ (w.graph id).SpareReadsApart)) := by
  obtain ⟨g₁, applied, settled⟩ := step_of_runStep run
  cases applied with
  | refCount copied counted =>
    cases settled with
    | sorted _ sort =>
      refine ⟨fun op' member => ?_, ?_⟩
      · obtain ⟨op, found, _, note⟩ := Graph.note_of_counting distinct copied counted sort member
        exact ⟨op, found, note⟩
      · exact Graph.countsOrdered_iff_of_counting distinct copied counted sort
    | pruned keep => cases keep

attribute [local instance] Importer.strict

/-- No operation of the sum of a masked tensor and the tensor itself is spare, and the tensor is
read twice. -/
theorem counts_right_maskedSum : ∃ w' : Workspace,
    maskedSumWorkspace.runStep (fun h => .ok h.nodes) 0 ⟨.refCount, .bool false⟩ = (w', .ok 1) ∧
    (w'.graph 1).CountsOrdered ∧ (w'.graph 1).orderedUses "x:0" = 2 := by
  have run : maskedSumWorkspace.runStep (fun h => .ok h.nodes) 0 ⟨.refCount, .bool false⟩ =
      (_, .ok 1) := Prod.ext rfl rfl
  have sorted : (maskedSumWorkspace.graph 0).sorted = .ok (maskedSumWorkspace.graph 0).order := rfl
  have apart : (maskedSumWorkspace.graph 0).SpareReadsApart := by
    unfold Graph.SpareReadsApart
    decide
  obtain ⟨_, right⟩ := counts_right_iff_spareReadsApart run (by decide)
  exact ⟨_, run, (right (Graph.mem_sorted_iff sorted)).mpr apart, by decide⟩

/-- Two operations read the same tensor, and one of them is no output and needed by none. -/
def spareReaders : Workspace :=
  (Workspace.empty.build tensorBackend ["y"]
    [addition "x" [], addition "y" [("x:0", "x")], addition "spare" [("x:0", "x")]] true).1

/-- The tensor is counted twice, though it is read once. -/
theorem spare_read_counted : ∃ w' op,
    spareReaders.runStep (fun h => .ok h.nodes) 0 ⟨.refCount, .bool false⟩ = (w', .ok 1) ∧
    (w'.graph 1).order = ["x", "y"] ∧ (w'.graph 1).find? "x" = some op ∧
    op.outputs.map Tensor.name = ["x:0"] ∧ op.attrs.get? countsKey = some (.list [.int 2]) ∧
    (w'.graph 1).orderedUses "x:0" = 1 :=
  ⟨_, _, Prod.ext rfl rfl, rfl, rfl, rfl, rfl, rfl⟩

end Workspace

end TensorEmit
