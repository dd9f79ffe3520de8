import TensorEmit.Proofs.Importing
import TensorEmit.Proofs.InPlace

/-!
# When dropout can be removed

Removing dropout replaces a tensor of a scope by the data input of the scope, once. If that data
input is itself a tensor of a scope, or depends on the operation that is to read it, the graph that
is left cannot be sorted. `Graph.Reroutes` says what an operation needs after the replacement, in
terms of the graph before it, and `Graph.Reroutable` that nothing of the kind comes up on the way
from the outputs. On a graph in order whose scopes have one data input each, the removal itself
always succeeds (`Graph.exists_dropoutRemoved`), and what it gives can be sorted exactly if the
graph is reroutable (`Graph.sortable_of_dropoutRemoved_iff`).

A graph is reroutable if no scope reads from another one directly, no output lies in a scope, and
what a scope hands out depends on its data input (`Graph.PlainScopes`).
-/

namespace TensorEmit

open Relation

namespace Graph

/-! ## Data inputs -/

/-- Whether a tensor that an operation of a scope reads is a data input of the scope. -/
def entersAsData (scope : String) (t : Tensor) : Bool :=
  match TensorName.producer t.name with
  | .ok p => dropoutScope? p ≠ some scope && !isKeepProbability p
  | .error _ => false

/-- The data inputs of a scope, as often as its operations read them. -/
def dataInputs (g : Graph) (scope : String) : List Tensor :=
  (g.orderedOps.filter fun op => dropoutScope? op.name = some scope).flatMap fun op =>
    op.inputs.filter (entersAsData scope)

theorem entersAsData_iff {scope : String} {t : Tensor} : entersAsData scope t = true ↔
    ∃ p, TensorName.producer t.name = .ok p ∧ dropoutScope? p ≠ some scope ∧
      isKeepProbability p = false := by
  unfold entersAsData
  cases TensorName.producer t.name with
  | error f => simp
  | ok p => simp

theorem mem_dataInputs {g : Graph} {scope : String} {t : Tensor} :
    t ∈ g.dataInputs scope ↔ g.IsDataInput scope t := by
  unfold dataInputs IsDataInput
  simp only [List.mem_flatMap, List.mem_filter, decide_eq_true_eq, mem_orderedOps,
    entersAsData_iff]
  constructor
  · intro h
    obtain ⟨op, ⟨⟨listed, found⟩, inside⟩, read, data⟩ := h
    exact ⟨op.name, listed, inside, op, found, read, data⟩
  · intro h
    obtain ⟨name, listed, inside, op, found, read, data⟩ := h
    have same := find?_name found
    subst same
    exact ⟨op, ⟨⟨listed, found⟩, inside⟩, read, data⟩

/-- Every dropout scope has exactly one data input, which its operations may read several times. -/
def SingleInputs (g : Graph) : Prop :=
  ∀ name ∈ g.order, ∀ scope, dropoutScope? name = some scope →
    ∃! s, s ∈ (g.dataInputs scope).map Tensor.name

theorem SingleInputs.exists_input {g : Graph} (single : g.SingleInputs) {name scope : String}
    (listed : name ∈ g.order) (inside : dropoutScope? name = some scope) :
    ∃ t, g.IsDataInput scope t := by
  obtain ⟨s, named, _⟩ := single name listed scope inside
  obtain ⟨t, member, _⟩ := List.mem_map.mp named
  exact ⟨t, mem_dataInputs.mp member⟩

theorem SingleInputs.name_eq {g : Graph} (single : g.SingleInputs) {scope : String}
    {t u : Tensor} (first : g.IsDataInput scope t) (second : g.IsDataInput scope u) :
    t.name = u.name := by
  have ⟨name, listed, inside, _⟩ := first
  have one := single name listed scope inside
  exact one.unique (List.mem_map_of_mem (mem_dataInputs.mpr first))
    (List.mem_map_of_mem (mem_dataInputs.mpr second))

/-- The names of the data inputs can be given scope by scope. -/
theorem singleInputs_of_names {g : Graph} (source : String → String)
    (names : ∀ name ∈ g.order, ∀ scope ∈ dropoutScope? name,
      (g.dataInputs scope).map Tensor.name = [source scope]) : g.SingleInputs := by
  intro name listed scope inside
  rw [names name listed scope inside]
  exact ⟨source scope, by simp, by simp⟩

theorem IsDataInput.producer_listed {g : Graph} (ordered : g.Ordered g.order) {scope p : String}
    {t : Tensor} (input : g.IsDataInput scope t) (made : TensorName.producer t.name = .ok p) :
    p ∈ g.order := by
  obtain ⟨name, listed, _, op, found, read, _⟩ := input
  exact ordered.needs listed ⟨op, found, t, read, made⟩

/-! ## The removal succeeds -/

/-- A search among tensors with readable names finds one if there is one to be found. -/
theorem exists_outsideInput? (cluster : List String) {ts : List Tensor}
    (readable : ∀ t ∈ ts, ∃ p, TensorName.producer t.name = .ok p) :
    ∃ found, outsideInput? cluster ts = .ok found ∧
      ∀ t ∈ ts, ∀ p, TensorName.producer t.name = .ok p → p ∉ cluster →
        isKeepProbability p = false → found.isSome = true := by
  induction ts with
  | nil => exact ⟨none, rfl, fun t member => by cases member⟩
  | cons first rest ih =>
    obtain ⟨p, made⟩ := readable first (by simp)
    obtain ⟨found, later, complete⟩ := ih fun t member => readable t (by simp [member])
    rw [outsideInput?, made, ok_bind]
    by_cases outside : p ∉ cluster ∧ (!isKeepProbability p) = true
    · rw [if_pos outside]
      exact ⟨some first, rfl, fun _ _ _ _ _ _ => rfl⟩
    · rw [if_neg outside]
      refine ⟨found, later, fun t member q made' apart data => ?_⟩
      rcases List.mem_cons.mp member with same | inRest
      · subst same
        cases made.symm.trans made'
        exact absurd ⟨apart, by simp [data]⟩ outside
      · exact complete t inRest q made' apart data

/-- An operation of a scope reads a data input of the scope. -/
def EntersAt (g : Graph) (name scope : String) (t : Tensor) : Prop :=
  dropoutScope? name = some scope ∧ ∃ op, g.find? name = some op ∧ t ∈ op.inputs ∧
    ∃ p, TensorName.producer t.name = .ok p ∧ dropoutScope? p ≠ some scope ∧
      isKeepProbability p = false

/-- A round keeps the scopes that have an entry and gives one to the scope of its operation if that
reads a data input. -/
theorem exists_noteDataInput {g : Graph} (ordered : g.Ordered g.order) {name : String}
    (listed : name ∈ g.order) (acc : Entries String Tensor) :
    ∃ acc', g.noteDataInput acc name = .ok acc' ∧
      (∀ scope, (acc.get? scope).isSome = true → (acc'.get? scope).isSome = true) ∧
      ∀ scope t, g.EntersAt name scope t → (acc'.get? scope).isSome = true := by
  unfold noteDataInput
  cases inside : dropoutScope? name with
  | none =>
    refine ⟨acc, rfl, fun _ known => known, fun scope t enters => ?_⟩
    cases inside.symm.trans enters.1
  | some own =>
    obtain ⟨op, found⟩ := ordered.found listed
    obtain ⟨source, search, complete⟩ :=
      exists_outsideInput? ((g.dropoutClusters.get? own).getD [])
        fun t read => ordered.producer listed found read
    dsimp only
    rw [find_eq_ok_iff.mpr found, ok_bind, search, ok_bind]
    -- What is outside of the scope is outside of the cluster that is searched.
    have noted : ∀ scope t, g.EntersAt name scope t → scope = own ∧ source.isSome = true := by
      intro scope t enters
      obtain ⟨same, op', found', read, p, made, apart, data⟩ := enters
      cases inside.symm.trans same
      cases found.symm.trans found'
      refine ⟨rfl, complete t read p made ?_ data⟩
      rw [dropoutClusters_get?]
      simp [apart]
    cases source with
    | none =>
      refine ⟨acc, rfl, fun _ known => known, fun scope t enters => ?_⟩
      cases (noted scope t enters).2
    | some first =>
      refine ⟨acc.set own first, rfl, fun scope known => ?_, fun scope t enters => ?_⟩
      · by_cases here : scope = own
        · rw [here, Entries.get?_set_self]
          rfl
        · rw [Entries.get?_set_of_ne _ _ here]
          exact known
      · rw [(noted scope t enters).1, Entries.get?_set_self]
        rfl

theorem exists_noteDataInputs {g : Graph} (ordered : g.Ordered g.order) {names : List String}
    (part : ∀ name ∈ names, name ∈ g.order) (acc : Entries String Tensor) :
    ∃ acc', names.foldlM g.noteDataInput acc = .ok acc' ∧
      (∀ scope, (acc.get? scope).isSome = true → (acc'.get? scope).isSome = true) ∧
      ∀ name ∈ names, ∀ scope t, g.EntersAt name scope t → (acc'.get? scope).isSome = true := by
  induction names generalizing acc with
  | nil => exact ⟨acc, rfl, fun _ known => known, fun _ member => by cases member⟩
  | cons name rest ih =>
    obtain ⟨mid, first, kept, own⟩ := exists_noteDataInput ordered (part name (by simp)) acc
    obtain ⟨acc', later, kept', others⟩ := ih (fun n member => part n (by simp [member])) mid
    refine ⟨acc', ?_, fun scope known => kept' scope (kept scope known), ?_⟩
    · rw [List.foldlM_cons, first, ok_bind]
      exact later
    · intro n member scope t enters
      rcases List.mem_cons.mp member with same | inRest
      · subst same
        exact kept' scope (own scope t enters)
      · exact others n inRest scope t enters

/-- The search for data inputs gives an entry to every scope that has one. -/
theorem exists_dropoutInputs {g : Graph} (ordered : g.Ordered g.order) :
    ∃ inputs, g.dropoutInputs = .ok inputs ∧
      ∀ scope t, g.IsDataInput scope t → ∃ source, inputs.get? scope = some source := by
  obtain ⟨inputs, run, _, complete⟩ := exists_noteDataInputs ordered (fun _ member => member) []
  refine ⟨inputs, (dropoutInputs_eq g).trans run, fun scope t input => ?_⟩
  obtain ⟨name, listed, enters⟩ := input
  exact Option.isSome_iff_exists.mp (complete name listed scope t enters)

theorem exists_renewed (base : Nat) (owner : GraphId) {ts : List Tensor}
    (shaped : ∀ t ∈ ts, Tensor.checkShape t.shape = .ok ()) :
    ∃ ts', (ts.zipIdx.mapM fun e => renewed (base + e.2) owner e.1) = .ok ts' := by
  rw [exists_mapM_iff]
  intro e member
  have inside : e.1 ∈ ts := List.fst_mem_of_mem_zipIdx member
  exact ⟨_, renewed_eq_ok_iff.mpr ⟨shaped e.1 inside, rfl⟩⟩

/-- If a name lies in a scope, the data input of the scope is known. -/
def Covers (inputs : Entries String Tensor) (name : String) : Prop :=
  ∀ scope, dropoutScope? name = some scope → ∃ source, inputs.get? scope = some source

theorem exists_bypass {inputs : Entries String Tensor} {t : Tensor} {p : String}
    (made : TensorName.producer t.name = .ok p) (covered : Covers inputs p) :
    ∃ t', bypass inputs t = .ok t' := by
  simp only [bypass_eq_ok_iff]
  cases inside : dropoutScope? p with
  | none => exact ⟨t, p, made, .inl ⟨inside, rfl⟩⟩
  | some scope =>
    obtain ⟨source, found⟩ := covered scope inside
    exact ⟨source, p, made, .inr ⟨scope, inside, found⟩⟩

theorem exists_withoutDropout (inputs : Entries String Tensor) (base : Nat) (owner : GraphId)
    {op : Operation} (shaped : op.Shaped) (stored : storedAttrs op.attrs = .ok op.attrs)
    (covered : ∀ t ∈ op.inputs, ∃ p, TensorName.producer t.name = .ok p ∧ Covers inputs p) :
    ∃ op', withoutDropout inputs base owner op = .ok op' := by
  have inputsShaped : ∀ t ∈ op.inputs, Tensor.checkShape t.shape = .ok () :=
    fun t read => shaped t (List.mem_append_left _ read)
  have outputsShaped : ∀ t ∈ op.outputs, Tensor.checkShape t.shape = .ok () :=
    fun t made => shaped t (List.mem_append_right _ made)
  obtain ⟨ins, renewedIns⟩ := exists_renewed base owner inputsShaped
  obtain ⟨outs, renewedOuts⟩ := exists_renewed (base + ins.length) owner outputsShaped
  obtain ⟨ins', bypassed⟩ : ∃ ins', ins.mapM (bypass inputs) = .ok ins' := by
    rw [exists_mapM_iff]
    intro t' member
    obtain ⟨t, read, id, rfl⟩ := exists_left_of_forall₂ (movedTo_of_renewed renewedIns) member
    obtain ⟨p, made, known⟩ := covered t read
    exact exists_bypass made known
  unfold withoutDropout
  rw [renewedIns, ok_bind]
  dsimp only
  rw [renewedOuts, ok_bind, bypassed, ok_bind, stored]
  exact ⟨_, rfl⟩

section Removal

variable {g g' : Graph} {base : Nat} {owner : GraphId} {inputs : Entries String Tensor}

theorem exists_keptOperations (ordered : g.Ordered g.order) (stored : g.Stored) (shaped : g.Shaped)
    (covered : ∀ p ∈ g.order, Covers inputs p) {names : List String}
    (part : ∀ name ∈ names, name ∈ g.order) (base : Nat) (owner : GraphId) :
    ∃ ops, g.keptOperations inputs owner base names = .ok ops := by
  induction names generalizing base with
  | nil => exact ⟨[], rfl⟩
  | cons name rest ih =>
    have later := ih fun n member => part n (by simp [member])
    rw [keptOperations]
    cases inside : dropoutScope? name with
    | some scope =>
      simp only [Option.isSome_some, if_true]
      exact later base
    | none =>
      simp only [Option.isSome_none, Bool.false_eq_true, if_false]
      have listed := part name (by simp)
      obtain ⟨op, found⟩ := ordered.found listed
      have sources : ∀ t ∈ op.inputs,
          ∃ p, TensorName.producer t.name = .ok p ∧ Covers inputs p := by
        intro t read
        obtain ⟨p, producer⟩ := ordered.producer listed found read
        exact ⟨p, producer, covered p (ordered.needs listed ⟨op, found, t, read, producer⟩)⟩
      obtain ⟨op', made⟩ := exists_withoutDropout inputs base owner (shaped op (mem_of_find? found))
        (stored op (mem_of_find? found)) sources
      obtain ⟨ops, others⟩ := later (base + op.inputs.length + op.outputs.length + 1)
      rw [find_eq_ok_iff.mpr found, ok_bind, made, ok_bind, others]
      exact ⟨_, rfl⟩

/-- Dropout can be taken out of a graph in order whose scopes have one data input each. -/
theorem exists_dropoutRemoved (ordered : g.Ordered g.order) (single : g.SingleInputs)
    (stored : g.Stored) (shaped : g.Shaped) (base : Nat) (owner : GraphId) :
    ∃ g', g.dropoutRemoved base owner = .ok g' := by
  obtain ⟨inputs, sources, complete⟩ := exists_dropoutInputs ordered
  have covered : ∀ p ∈ g.order, Covers inputs p := by
    intro p listed scope inside
    obtain ⟨t, input⟩ := single.exists_input listed inside
    exact complete scope t input
  obtain ⟨ops, kept⟩ :=
    exists_keptOperations ordered stored shaped covered (fun _ member => member) base owner
  exact ⟨_, dropoutRemoved_eq_ok_iff.mpr ⟨inputs, sources, ops, kept, rfl⟩⟩

/-- The sizes of what is left are those of tensors that were there. -/
theorem shaped_of_dropoutRemoved (shaped : g.Shaped) (run : g.dropoutRemoved base owner = .ok g') :
    g'.Shaped := by
  refine forall_tensors_of_dropoutRemoved (fun {t t'} same checked => ?_) shaped run
  have shapes := congrArg Tensor.shape same
  exact (congrArg Tensor.checkShape shapes).trans checked

end Removal

/-! ## What is needed after the removal -/

/-- An operation reads a tensor of another one, or a tensor of a scope whose data input the other
one makes. -/
def Reroutes (g : Graph) (name need : String) : Prop :=
  ∃ op, g.find? name = some op ∧ ∃ t ∈ op.inputs, ∃ p, TensorName.producer t.name = .ok p ∧
    ((dropoutScope? p = none ∧ need = p) ∨ ∃ scope u, dropoutScope? p = some scope ∧
      g.IsDataInput scope u ∧ TensorName.producer u.name = .ok need)

/-- The outputs lead to an operation when tensors of scopes are replaced. -/
def Rerouted (g : Graph) (name : String) : Prop :=
  ∃ out ∈ g.outputs, ReflTransGen g.Reroutes out name

/-- What the outputs lead to lies outside of all scopes and does not lead back to itself. -/
def Reroutable (g : Graph) : Prop :=
  ∀ name, g.Rerouted name → dropoutScope? name = none ∧ ¬TransGen g.Reroutes name name

section Removed

variable {g g' : Graph} {base : Nat} {owner : GraphId} {a b : String}

theorem Reroutes.listed (ordered : g.Ordered g.order) (reroutes : g.Reroutes a b)
    (listed : a ∈ g.order) : b ∈ g.order := by
  obtain ⟨op, found, t, read, p, made, ⟨_, same⟩ | ⟨scope, u, _, input, made'⟩⟩ := reroutes
  · subst same
    exact ordered.needs listed ⟨op, found, t, read, made⟩
  · exact input.producer_listed ordered made'

theorem Rerouted.listed (ordered : g.Ordered g.order) (outputs : ∀ out ∈ g.outputs, out ∈ g.order)
    (rerouted : g.Rerouted a) : a ∈ g.order := by
  obtain ⟨out, output, path⟩ := rerouted
  induction path with
  | refl => exact outputs out output
  | tail _ step ih => exact step.listed ordered ih

theorem Rerouted.step (rerouted : g.Rerouted a) (reroutes : g.Reroutes a b) : g.Rerouted b := by
  obtain ⟨out, output, path⟩ := rerouted
  exact ⟨out, output, path.tail reroutes⟩

/-- The operations that are left are those of the order that lie outside of all scopes. -/
theorem find?_of_dropoutRemoved {inputs : Entries String Tensor} (ordered : g.Ordered g.order)
    (sources : g.dropoutInputs = .ok inputs) (run : g.dropoutRemoved base owner = .ok g')
    (listed : a ∈ g.order) (outside : dropoutScope? a = none) :
    ∃ op op', g.find? a = some op ∧ g'.find? a = some op' ∧ op.Bypassed inputs op' := by
  have named : a ∈ g'.ops.map Operation.name := by
    rw [names_of_dropoutRemoved run]
    exact List.mem_filter.mpr ⟨listed, by simp [outside]⟩
  obtain ⟨op', member, same⟩ := List.mem_map.mp named
  subst same
  obtain ⟨_, _, op, found, bypassed⟩ := exists_of_dropoutRemoved sources run member
  exact ⟨op, op', found, find?_of_mem (nodup_of_dropoutRemoved ordered run) member, bypassed⟩

theorem outside_of_find?_dropoutRemoved (run : g.dropoutRemoved base owner = .ok g')
    {op' : Operation} (found : g'.find? a = some op') : dropoutScope? a = none := by
  obtain ⟨inputs, sources, _⟩ := dropoutRemoved_ok run
  have outside := (exists_of_dropoutRemoved sources run (mem_of_find? found)).2.1
  rw [find?_name found] at outside
  exact outside

/-- What an operation needs after the removal it was rerouted to. -/
theorem reroutes_of_needs (ordered : g.Ordered g.order)
    (run : g.dropoutRemoved base owner = .ok g') (needs : g'.Needs a b) : g.Reroutes a b := by
  obtain ⟨inputs, sources, _⟩ := dropoutRemoved_ok run
  obtain ⟨op', found', t', read', made⟩ := needs
  obtain ⟨_, _, op, found, bypassed⟩ := exists_of_dropoutRemoved sources run (mem_of_find? found')
  rw [find?_name found'] at found
  obtain ⟨t, read, p, producer, ⟨outside, same⟩ | ⟨scope, inside, source⟩⟩ :=
    exists_left_of_forall₂ bypassed.inputs read'
  · rw [Tensor.name_of_content same, producer] at made
    exact ⟨op, found, t, read, p, producer, .inl ⟨outside, (Except.ok.inj made).symm⟩⟩
  · have input := dropoutInputs_ok ordered sources source
    exact ⟨op, found, t, read, p, producer, .inr ⟨scope, t', inside, input, made⟩⟩

/-- What an operation is rerouted to it needs after the removal, if it is left. -/
theorem needs_of_reroutes (ordered : g.Ordered g.order) (single : g.SingleInputs)
    (run : g.dropoutRemoved base owner = .ok g') (listed : a ∈ g.order)
    (outside : dropoutScope? a = none) (reroutes : g.Reroutes a b) : g'.Needs a b := by
  obtain ⟨inputs, sources, _⟩ := dropoutRemoved_ok run
  obtain ⟨op, op', found, found', bypassed⟩ :=
    find?_of_dropoutRemoved ordered sources run listed outside
  obtain ⟨op₀, found₀, t, read, p, made, target⟩ := reroutes
  cases found.symm.trans found₀
  obtain ⟨t', read', p', made', replaced⟩ := exists_right_of_forall₂ bypassed.inputs read
  cases made.symm.trans made'
  refine ⟨op', found', t', read', ?_⟩
  rcases replaced with ⟨none, same⟩ | ⟨scope, inside, source⟩
  · rcases target with ⟨_, here⟩ | ⟨scope, _, inside, _⟩
    · rw [Tensor.name_of_content same, made, here]
    · cases none.symm.trans inside
  · rcases target with ⟨none, _⟩ | ⟨scope', u, inside', input, producer⟩
    · cases none.symm.trans inside
    · cases inside.symm.trans inside'
      -- The scope has one data input, so the one that was found is the one that is meant.
      rw [single.name_eq (dropoutInputs_ok ordered sources source) input]
      exact producer

/-- The names that can be reached after the removal are the ones that the outputs lead to, as long
as these are left. -/
theorem reachable_of_rerouted (ordered : g.Ordered g.order) (single : g.SingleInputs)
    (outputs : ∀ out ∈ g.outputs, out ∈ g.order) (run : g.dropoutRemoved base owner = .ok g')
    (found : ∀ name, g'.Reachable name → ∃ op, g'.find? name = some op) (rerouted : g.Rerouted a) :
    g'.Reachable a := by
  obtain ⟨_, _, sameOutputs, _⟩ := dropoutRemoved_ok run
  obtain ⟨out, output, path⟩ := rerouted
  induction path with
  | refl => exact .output (by rw [sameOutputs]; exact output)
  | @tail b c before step ih =>
    obtain ⟨op, here⟩ := found b ih
    have listed := Rerouted.listed ordered outputs ⟨out, output, before⟩
    exact ih.step (needs_of_reroutes ordered single run listed
      (outside_of_find?_dropoutRemoved run here) step)

theorem rerouted_of_reachable (ordered : g.Ordered g.order)
    (run : g.dropoutRemoved base owner = .ok g') (reached : g'.Reachable a) : g.Rerouted a := by
  obtain ⟨_, _, sameOutputs, _⟩ := dropoutRemoved_ok run
  refine reached.induct (fun out output => ?_) fun b c before needs => ?_
  · rw [sameOutputs] at output
    exact ⟨out, output, .refl⟩
  · exact before.step (reroutes_of_needs ordered run needs)

theorem readable_of_dropoutRemoved (run : g.dropoutRemoved base owner = .ok g')
    (ordered : g.Ordered g.order) {op' : Operation} (member : op' ∈ g'.ops) {t' : Tensor}
    (read : t' ∈ op'.inputs) : ∃ p, TensorName.producer t'.name = .ok p := by
  obtain ⟨inputs, sources, _⟩ := dropoutRemoved_ok run
  obtain ⟨_, _, op, _, bypassed⟩ := exists_of_dropoutRemoved sources run member
  obtain ⟨t, _, p, producer, ⟨_, same⟩ | ⟨scope, _, source⟩⟩ :=
    exists_left_of_forall₂ bypassed.inputs read
  · exact ⟨p, by rw [Tensor.name_of_content same]; exact producer⟩
  · obtain ⟨_, _, _, _, _, _, q, made, _⟩ := dropoutInputs_ok ordered sources source
    exact ⟨q, made⟩

/-- The graph without dropout can be sorted exactly if the graph with it is reroutable. -/
theorem sortable_of_dropoutRemoved_iff (ordered : g.Ordered g.order) (single : g.SingleInputs)
    (outputs : ∀ out ∈ g.outputs, out ∈ g.order) (run : g.dropoutRemoved base owner = .ok g') :
    g'.Sortable ↔ g.Reroutable := by
  constructor
  · intro sortable name rerouted
    have reach : ∀ {n}, g.Rerouted n → g'.Reachable n :=
      reachable_of_rerouted ordered single outputs run sortable.found
    have outside : ∀ {n}, g.Rerouted n → dropoutScope? n = none := by
      intro n rerouted'
      obtain ⟨op', found⟩ := sortable.found n (reach rerouted')
      exact outside_of_find?_dropoutRemoved run found
    refine ⟨outside rerouted, fun cycle => sortable.acyclic name (reach rerouted) ?_⟩
    -- All names of the cycle are ones that the outputs lead to, so all its steps are left.
    have lift : ∀ {n}, TransGen g.Reroutes name n → g.Rerouted n ∧ TransGen g'.Needs name n := by
      intro n path
      induction path with
      | single step =>
        refine ⟨rerouted.step step, .single ?_⟩
        exact needs_of_reroutes ordered single run (rerouted.listed ordered outputs)
          (outside rerouted) step
      | tail _ step ih =>
        refine ⟨ih.1.step step, ih.2.tail ?_⟩
        exact needs_of_reroutes ordered single run (ih.1.listed ordered outputs) (outside ih.1) step
    exact (lift cycle).2
  · intro reroutable
    have rerouted : ∀ {n}, g'.Reachable n → g.Rerouted n := rerouted_of_reachable ordered run
    refine ⟨fun name reached => ?_, fun name op' _ found t' read => ?_, fun name reached => ?_⟩
    · obtain ⟨inputs, sources, _⟩ := dropoutRemoved_ok run
      obtain ⟨_, op', _, found, _⟩ := find?_of_dropoutRemoved ordered sources run
        ((rerouted reached).listed ordered outputs) (reroutable name (rerouted reached)).1
      exact ⟨op', found⟩
    · exact readable_of_dropoutRemoved run ordered (mem_of_find? found) read
    · intro cycle
      refine (reroutable name (rerouted reached)).2 (cycle.lift id fun _ _ needs => ?_)
      exact reroutes_of_needs ordered run needs

end Removed

/-! ## Plain scopes -/

/-- No output lies in a scope, no data input of a scope is made in one, and what a scope hands to
operations outside of all scopes depends on its data input. -/
structure PlainScopes (g : Graph) : Prop where
  outputs : ∀ out ∈ g.outputs, dropoutScope? out = none
  apart : ∀ scope u p, g.IsDataInput scope u → TensorName.producer u.name = .ok p →
    dropoutScope? p = none
  through : ∀ name ∈ g.order, dropoutScope? name = none → ∀ p scope, g.Needs name p →
    dropoutScope? p = some scope → ∀ u q, g.IsDataInput scope u →
    TensorName.producer u.name = .ok q → TransGen g.Needs p q

theorem PlainScopes.outside {g : Graph} (plain : g.PlainScopes) {a b : String}
    (reroutes : g.Reroutes a b) : dropoutScope? b = none := by
  obtain ⟨op, _, t, _, p, _, ⟨outside, same⟩ | ⟨scope, u, _, input, made⟩⟩ := reroutes
  · rw [same]
    exact outside
  · exact plain.apart scope u b input made

/-- With plain scopes an operation needs what it is rerouted to. -/
theorem PlainScopes.needs {g : Graph} (plain : g.PlainScopes) {a b : String} (listed : a ∈ g.order)
    (outside : dropoutScope? a = none) (reroutes : g.Reroutes a b) : TransGen g.Needs a b := by
  obtain ⟨op, found, t, read, p, made, ⟨_, same⟩ | ⟨scope, u, inside, input, made'⟩⟩ := reroutes
  · subst same
    exact .single ⟨op, found, t, read, made⟩
  · have first : g.Needs a p := ⟨op, found, t, read, made⟩
    exact .head first (plain.through a listed outside p scope first inside u b input made')

theorem PlainScopes.reroutable {g : Graph} (plain : g.PlainScopes) (ordered : g.Ordered g.order)
    (outputs : ∀ out ∈ g.outputs, out ∈ g.order) : g.Reroutable := by
  intro name rerouted
  have listed := rerouted.listed ordered outputs
  have outside : dropoutScope? name = none := by
    have ⟨_, output, path⟩ := rerouted
    cases path with
    | refl => exact plain.outputs _ output
    | tail _ step => exact plain.outside step
  refine ⟨outside, fun cycle => ?_⟩
  have needed : ∀ {n}, TransGen g.Reroutes name n →
      n ∈ g.order ∧ dropoutScope? n = none ∧ TransGen g.Needs name n := by
    intro n path
    induction path with
    | single step =>
      exact ⟨step.listed ordered listed, plain.outside step, plain.needs listed outside step⟩
    | tail _ step ih =>
      obtain ⟨here, free, needs⟩ := ih
      exact ⟨step.listed ordered here, plain.outside step, needs.trans (plain.needs here free step)⟩
  -- A name of an order stands before itself if it needs itself.
  obtain ⟨before, after, parts⟩ := List.append_of_mem listed
  obtain ⟨_, fresh, _⟩ := ordered.split parts
  exact fresh (ordered.before_of_transGen parts (needed cycle).2.2)

/-- On the way from the outputs an operation reads from a scope whose data input is made in a
scope. -/
def Chained (g : Graph) : Prop :=
  ∃ name p scope, g.Rerouted name ∧ g.Needs name p ∧ dropoutScope? p = some scope ∧
    ∃ u q scope', g.IsDataInput scope u ∧ TensorName.producer u.name = .ok q ∧
      dropoutScope? q = some scope'

theorem Chained.not_reroutable {g : Graph} (chained : g.Chained) : ¬g.Reroutable := by
  intro reroutable
  obtain ⟨name, p, scope, rerouted, ⟨op, found, t, read, made⟩, inside, u, q, scope', input, source,
    inside'⟩ := chained
  have step : g.Reroutes name q :=
    ⟨op, found, t, read, p, made, .inr ⟨scope, u, inside, input, source⟩⟩
  cases inside'.symm.trans (reroutable q (rerouted.step step)).1

end Graph

/-! ## Removing dropout in a workspace -/

namespace Workspace

/-- What follows a pass succeeds exactly if the graph that the pass gives can be sorted. -/
theorem exists_runStep_iff [Importer] {quantizer : Quantizer} {w w₁ : Workspace} {id id₁ : GraphId}
    {s : PassStep} {b : Bool} (applied : w.apply quantizer id s.pass = (w₁, .ok id₁))
    (decided : s.prune.truth? = some b) (stored : (w₁.graph id₁).Stored)
    (shaped : (w₁.graph id₁).Shaped) :
    (∃ w' id', w.runStep quantizer id s = (w', .ok id')) ↔ (w₁.graph id₁).Sortable := by
  rw [← Graph.sorted_ok_iff]
  constructor
  · intro h
    obtain ⟨w', id', run⟩ := h
    cases outcome_of_runStep run with
    | sorted applied' sorts _ =>
      cases applied.symm.trans applied'
      obtain ⟨names, sorted, _⟩ := sort_eq_ok_iff.mp sorts
      exact ⟨names, sorted⟩
    | pruned applied' sorts _ _ =>
      cases applied.symm.trans applied'
      obtain ⟨names, sorted, _⟩ := sort_eq_ok_iff.mp sorts
      exact ⟨names, sorted⟩
  · intro h
    obtain ⟨names, sorted⟩ := h
    obtain ⟨w₂, sorts⟩ : ∃ w₂, w₁.sort id₁ = (w₂, .ok ()) :=
      ⟨_, sort_eq_ok_iff.mpr ⟨names, sorted, rfl⟩⟩
    unfold runStep
    rw [applied]
    dsimp only
    rw [sorts]
    dsimp only
    rw [decided]
    cases b with
    | false => exact ⟨w₂, id₁, rfl⟩
    | true =>
      -- Sorting leaves the operations as they are, so the copy that is pruned can be made.
      have sorts' := graph_of_sort sorts
      obtain ⟨_, _, same⟩ := Graph.sort_eq_ok_iff.mp sorts'
      have stored₂ : (w₂.graph id₁).Stored := same ▸ stored
      have shaped₂ : (w₂.graph id₁).Shaped := same ▸ shaped
      obtain ⟨c, copied⟩ := (Graph.exists_copy_iff stored₂).mpr shaped₂
      obtain ⟨g, pruned, _⟩ := Graph.trims_of_copy (Graph.sorted_of_sort sorts') stored₂ copied
      obtain ⟨w', id', run, _⟩ := exists_prune copied pruned
      exact ⟨w', id', run⟩

section

variable {w : Workspace} {id : GraphId} {prune : Value} {b : Bool}

/-- On a graph in order whose scopes have one data input each, dropout is removed exactly if the
graph is reroutable. That is the case if its scopes are plain, however many operations read from
them, and never if an operation reads from a scope that another one feeds directly. Attributes and
sizes are to be as building or reading a graph leaves them. -/
theorem dropout_removed_iff_reroutable [Importer] (quantizer : Quantizer)
    (decided : prune.truth? = some b) (ordered : (w.graph id).Ordered (w.graph id).order)
    (outputs : ∀ out ∈ (w.graph id).outputs, out ∈ (w.graph id).order)
    (single : (w.graph id).SingleInputs) (stored : (w.graph id).Stored)
    (shaped : (w.graph id).Shaped) :
    ((∃ w' id', w.runStep quantizer id ⟨.dropout, prune⟩ = (w', .ok id')) ↔
      (w.graph id).Reroutable) ∧
    ((w.graph id).PlainScopes →
      ∃ w' id', w.runStep quantizer id ⟨.dropout, prune⟩ = (w', .ok id')) ∧
    ((w.graph id).Chained →
      ∀ w' id', w.runStep quantizer id ⟨.dropout, prune⟩ ≠ (w', .ok id')) := by
  obtain ⟨g, removed⟩ :=
    Graph.exists_dropoutRemoved ordered single stored shaped w.next w.nextGraph
  obtain ⟨w₁, id₁, applied, made⟩ :
      ∃ w₁ id₁, w.apply quantizer id .dropout = (w₁, .ok id₁) ∧ w₁.graph id₁ = g := by
    simp only [apply, removeDropout, removed]
    exact ⟨_, _, rfl, by rw [graph_reserve, graph_add]⟩
  subst made
  have main : (∃ w' id', w.runStep quantizer id ⟨.dropout, prune⟩ = (w', .ok id')) ↔
      (w.graph id).Reroutable := by
    rw [exists_runStep_iff (s := ⟨.dropout, prune⟩) applied decided
      (Graph.stored_of_dropoutRemoved removed)
      (Graph.shaped_of_dropoutRemoved shaped removed)]
    exact Graph.sortable_of_dropoutRemoved_iff ordered single outputs removed
  refine ⟨main, fun plain => main.mpr (plain.reroutable ordered outputs), ?_⟩
  intro chained w' id' run
  exact chained.not_reroutable (main.mp ⟨w', id', run⟩)

end

attribute [local instance] Importer.strict

/-- In the sum of a masked tensor and the tensor itself the scope is plain. -/
theorem dropout_removed_maskedSum : (maskedSumWorkspace.graph 0).SingleInputs ∧
    (maskedSumWorkspace.graph 0).PlainScopes ∧ ∃ w' id', maskedSumWorkspace.runStep
      (fun h => .ok h.nodes) 0 ⟨.dropout, .bool true⟩ = (w', .ok id') := by
  have read : Graph.ofNodes 0 0 maskedSum (.list [.text "y"]) =
      .ok (maskedSumWorkspace.graph 0) := rfl
  have ordered := Graph.ordered_of_ofNodes read
  have names : ∀ name ∈ (maskedSumWorkspace.graph 0).order, ∀ scope ∈ dropoutScope? name,
      ((maskedSumWorkspace.graph 0).dataInputs scope).map Tensor.name = ["x:0"] := by decide
  have single := Graph.singleInputs_of_names (fun _ => "x:0") names
  have source : ∀ {scope u p}, (maskedSumWorkspace.graph 0).IsDataInput scope u →
      TensorName.producer u.name = .ok p → p = "x" := by
    intro scope u p input made
    have ⟨name, listed, inside, _⟩ := input
    have named := List.mem_map_of_mem (f := Tensor.name) (Graph.mem_dataInputs.mpr input)
    rw [names name listed scope inside, List.mem_singleton] at named
    rw [named] at made
    exact (Except.ok.inj made).symm
  have plain : (maskedSumWorkspace.graph 0).PlainScopes := by
    refine ⟨by decide, fun scope u p input made => ?_, ?_⟩
    · rw [source input made]
      rfl
    · intro name listed _ p scope needs inside u q input made
      have only : ∀ p ∈ (maskedSumWorkspace.graph 0).order, ∀ scope ∈ dropoutScope? p,
          p = "dropout/mul" := by decide
      rw [source input made, only p (ordered.needs listed needs) scope inside]
      exact .single ⟨_, rfl, _, List.mem_cons_self, rfl⟩
  have decided : (Value.bool true).truth? = some true := rfl
  obtain ⟨_, removed, _⟩ := dropout_removed_iff_reroutable (fun h => .ok h.nodes) decided ordered
    (by decide) single (Graph.stored_of_ofNodes read (by decide)) (by decide)
  exact ⟨single, plain, removed plain⟩

/-- A tensor is masked twice, one mask right after the other. -/
def maskedTwice : List Node :=
  let node (name type : String) (inputs : List String) : Node :=
    ⟨name, type, inputs, .text "", [], [⟨.float32, some []⟩]⟩
  [node "x" "Placeholder" [], node "keep_prob" "Placeholder" [],
   node "dropout/mul" "Mul" ["x", "keep_prob"],
   node "dropout_1/mul" "Mul" ["dropout/mul", "keep_prob"], node "y" "Relu" ["dropout_1/mul"]]

/-- A workspace with the graph of the two masks. -/
def maskedTwiceWorkspace : Workspace :=
  (Workspace.empty.ofNodes maskedTwice (.list [.text "y"])).1

/-- The scopes stand at the start of their names and have one data input each, but the second mask
is replaced by a tensor of the first one, which is gone. -/
theorem dropout_not_removed_maskedTwice : ∃ w' : Workspace,
    (maskedTwiceWorkspace.graph 0).order =
      ["x", "keep_prob", "dropout/mul", "dropout_1/mul", "y"] ∧
    (maskedTwiceWorkspace.graph 0).Ordered (maskedTwiceWorkspace.graph 0).order ∧
    (maskedTwiceWorkspace.graph 0).outputs = ["y"] ∧
    (maskedTwiceWorkspace.graph 0).SingleInputs ∧ (maskedTwiceWorkspace.graph 0).Stored ∧
    (maskedTwiceWorkspace.graph 0).Shaped ∧
    maskedTwiceWorkspace.runStep (fun h => .ok h.nodes) 0 ⟨.dropout, .bool true⟩ =
      (w', .error (.missing "dropout/mul")) := by
  have read : Graph.ofNodes 0 0 maskedTwice (.list [.text "y"]) =
      .ok (maskedTwiceWorkspace.graph 0) := rfl
  have single : (maskedTwiceWorkspace.graph 0).SingleInputs :=
    Graph.singleInputs_of_names
      (fun scope => if scope = "dropout" then "x:0" else "dropout/mul:0") (by decide)
  exact ⟨_, by decide, Graph.ordered_of_ofNodes read, by decide, single,
    Graph.stored_of_ofNodes read (by decide), by decide, Prod.ext rfl rfl⟩

end Workspace

end TensorEmit
