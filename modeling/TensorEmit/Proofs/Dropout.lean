import TensorEmit.Pass.Dropout
import TensorEmit.Proofs.Copies

/-!
# What removing dropout does to a graph

The operations outside of dropout scopes stay, in the order of evaluation. `Graph.Remade` says how
one of them is made anew, and `Operation.Bypassed` what becomes of its content: its inputs that a
scope made are replaced by the data input that was found for the scope, and nothing else changes.
`Graph.dropoutInputs_ok` says where such a data input comes from.
-/

namespace TensorEmit

namespace Graph

/-! ## Scopes -/

/-- A tensor is a data input of a dropout scope: an operation of the scope reads it, and it comes
from outside of the scope and does not control dropout. -/
def IsDataInput (g : Graph) (scope : String) (t : Tensor) : Prop :=
  ∃ name ∈ g.order, dropoutScope? name = some scope ∧ ∃ op, g.find? name = some op ∧
    t ∈ op.inputs ∧ ∃ p, TensorName.producer t.name = .ok p ∧ dropoutScope? p ≠ some scope ∧
      isKeepProbability p = false

/-- Puts a name into the cluster of its scope. -/
def clustered (clusters : Entries String (List String)) (name : String) :
    Entries String (List String) :=
  (dropoutScope? name).elim clusters fun scope =>
    clusters.set scope ((clusters.get? scope).getD [] ++ [name])

theorem dropoutClusters_eq (g : Graph) : g.dropoutClusters = g.order.foldl clustered [] := by
  unfold dropoutClusters
  refine congrArg (fun step => g.order.foldl step []) ?_
  funext clusters name
  unfold clustered
  cases dropoutScope? name with
  | none => rfl
  | some scope => rfl

/-- The cluster of a scope lists its operations in the order of evaluation. -/
theorem dropoutClusters_get? (g : Graph) (scope : String) :
    (g.dropoutClusters.get? scope).getD [] =
      g.order.filter fun name => dropoutScope? name = some scope := by
  have fold : ∀ (names : List String) (acc : Entries String (List String)),
      ((names.foldl clustered acc).get? scope).getD [] =
      (acc.get? scope).getD [] ++ names.filter fun name => dropoutScope? name = some scope := by
    intro names
    induction names with
    | nil => simp
    | cons name names ih =>
      intro acc
      rw [List.foldl_cons, ih, clustered]
      cases found : dropoutScope? name with
      | none => simp [found]
      | some other =>
        by_cases same : other = scope
        · subst same
          simp [found, Entries.get?_set_self]
        · simp [found, same, Entries.get?_set_of_ne _ _ (Ne.symm same)]
  rw [dropoutClusters_eq, fold]
  rfl

/-- The first outside input of a list of tensors is one of them, and it comes from outside. -/
theorem outsideInput?_ok {cluster : List String} {ts : List Tensor} {t : Tensor}
    (run : outsideInput? cluster ts = .ok (some t)) :
    t ∈ ts ∧ ∃ p, TensorName.producer t.name = .ok p ∧ p ∉ cluster ∧
      isKeepProbability p = false := by
  induction ts with
  | nil => cases run
  | cons first rest ih =>
    rw [outsideInput?] at run
    rw [bind_eq_ok_iff] at run
    obtain ⟨p, made, run⟩ := run
    split at run
    case isTrue outside =>
      cases run
      exact ⟨by simp, p, made, outside.1, by simpa using outside.2⟩
    case isFalse =>
      obtain ⟨member, later⟩ := ih run
      exact ⟨by simp [member], later⟩

/-- The round of the search for data inputs at one operation. -/
def noteDataInput (g : Graph) (acc : Entries String Tensor) (name : String) :
    Except Fault (Entries String Tensor) := do
  match dropoutScope? name with
  | none => return acc
  | some scope =>
    let op ← g.find name
    match ← outsideInput? ((g.dropoutClusters.get? scope).getD []) op.inputs with
    | some t => return acc.set scope t
    | none => return acc

theorem dropoutInputs_eq (g : Graph) : g.dropoutInputs = g.order.foldlM g.noteDataInput [] := rfl

/-- An operation of a scope reads a tensor that the search takes for the scope. -/
def TakenAt (g : Graph) (scope : String) (t : Tensor) (name : String) : Prop :=
  dropoutScope? name = some scope ∧ ∃ op, g.find? name = some op ∧
    outsideInput? ((g.dropoutClusters.get? scope).getD []) op.inputs = .ok (some t)

/-- A round notes nothing, or what is taken at its operation. -/
theorem noteDataInput_ok {g : Graph} {acc acc' : Entries String Tensor} {name : String}
    (run : g.noteDataInput acc name = .ok acc') :
    acc' = acc ∨ ∃ scope t, g.TakenAt scope t name ∧ acc' = acc.set scope t := by
  unfold noteDataInput at run
  cases inScope : dropoutScope? name with
  | none =>
    simp only [inScope, pure_eq_ok_iff] at run
    exact .inl run.symm
  | some scope =>
    simp only [inScope, bind_eq_ok_iff, find_eq_ok_iff] at run
    obtain ⟨op, here, outside, searched, run⟩ := run
    cases outside with
    | none =>
      simp only [pure_eq_ok_iff] at run
      exact .inl run.symm
    | some t =>
      simp only [pure_eq_ok_iff] at run
      exact .inr ⟨scope, t, ⟨inScope, op, here, searched⟩, run.symm⟩

/-- What stands for a scope is taken at an operation of the order. -/
theorem takenAt_of_dropoutInputs {g : Graph} {inputs : Entries String Tensor}
    (run : g.dropoutInputs = .ok inputs) {scope : String} {t : Tensor}
    (found : inputs.get? scope = some t) : ∃ name ∈ g.order, g.TakenAt scope t name := by
  rw [dropoutInputs_eq] at run
  refine foldlM_ok_invariant (fun acc : Entries String Tensor => ∀ scope t,
    acc.get? scope = some t → ∃ name ∈ g.order, g.TakenAt scope t name)
    (by simp [Entries.get?]) ?_ run scope t found
  intro acc acc' name listed earlier step scope t found
  rcases noteDataInput_ok step with rfl | ⟨own, source, taken, rfl⟩
  · exact earlier scope t found
  · by_cases same : scope = own
    · subst same
      rw [Entries.get?_set_self] at found
      cases found
      exact ⟨name, listed, taken⟩
    · rw [Entries.get?_set_of_ne _ _ same] at found
      exact earlier scope t found

/-- What stands for a scope is an input of an operation. -/
theorem read_of_dropoutInputs {g : Graph} {inputs : Entries String Tensor}
    (run : g.dropoutInputs = .ok inputs) {scope : String} {t : Tensor}
    (found : inputs.get? scope = some t) : ∃ op ∈ g.ops, t ∈ op.inputs := by
  obtain ⟨_, _, _, op, here, searched⟩ := takenAt_of_dropoutInputs run found
  exact ⟨op, mem_of_find? here, (outsideInput?_ok searched).1⟩

/-- What stands for a scope is one of its data inputs. -/
theorem dropoutInputs_ok {g : Graph} {inputs : Entries String Tensor}
    (ordered : g.Ordered g.order) (run : g.dropoutInputs = .ok inputs) {scope : String}
    {t : Tensor} (found : inputs.get? scope = some t) : g.IsDataInput scope t := by
  obtain ⟨name, listed, inScope, op, here, searched⟩ := takenAt_of_dropoutInputs run found
  obtain ⟨read, p, made, outside, data⟩ := outsideInput?_ok searched
  refine ⟨name, listed, inScope, op, here, read, p, made, fun inside => outside ?_, data⟩
  -- The producer is in the order, so it is outside of the cluster only if it is outside of the
  -- scope.
  have producer : p ∈ g.order := ordered.needs listed ⟨op, here, t, read, made⟩
  rw [dropoutClusters_get?]
  simp [producer, inside]

end Graph

/-! ## Operations -/

/-- An input after the removal: it is as before, or it is the one that stands for the scope that
made it. -/
def Tensor.Bypassed (inputs : Entries String Tensor) (t t' : Tensor) : Prop :=
  ∃ p, TensorName.producer t.name = .ok p ∧
    ((dropoutScope? p = none ∧ t'.content = t.content) ∨
      ∃ scope, dropoutScope? p = some scope ∧ inputs.get? scope = some t')

/-- A tensor with a number of its own in a graph. -/
def Tensor.MovedTo (graph : GraphId) (t t' : Tensor) : Prop :=
  ∃ id, { t with id := id, owner := graph } = t'

/-- An operation after the removal. -/
structure Operation.Bypassed (inputs : Entries String Tensor) (op op' : Operation) : Prop where
  name : op'.name = op.name
  type : op'.type = op.type
  inputs : List.Forall₂ (Tensor.Bypassed inputs) op.inputs op'.inputs
  outputs : op'.outputs.map Tensor.content = op.outputs.map Tensor.content
  attrs : storedAttrs op.attrs = .ok op'.attrs

namespace Graph

theorem renewed_eq_ok_iff {id : Nat} {owner : GraphId} {t t' : Tensor} :
    renewed id owner t = .ok t' ↔
      Tensor.checkShape t.shape = .ok () ∧ { t with id := id, owner := owner } = t' := by
  unfold renewed
  simp only [bind_eq_ok_iff, pure_eq_ok_iff]
  constructor
  · rintro ⟨_, checked, made⟩
    exact ⟨checked, made⟩
  · rintro ⟨checked, made⟩
    exact ⟨(), checked, made⟩

theorem movedTo_of_renewed {base : Nat} {owner : GraphId} {ts ts' : List Tensor}
    (run : (ts.zipIdx.mapM fun e => renewed (base + e.2) owner e.1) = .ok ts') :
    List.Forall₂ (Tensor.MovedTo owner) ts ts' := by
  have moves : List.Forall₂ (fun e : Tensor × Nat => Tensor.MovedTo owner e.1) ts.zipIdx ts' :=
    (mapM_eq_ok_iff.mp run).imp fun e t' made => ⟨base + e.2, (renewed_eq_ok_iff.mp made).2⟩
  rwa [← List.forall₂_map_left_iff, List.zipIdx_map_fst] at moves

/-- An input is left as it is, or it is replaced by the one that stands for the scope that made
it. -/
theorem bypass_eq_ok_iff {inputs : Entries String Tensor} {t t' : Tensor} :
    bypass inputs t = .ok t' ↔ ∃ p, TensorName.producer t.name = .ok p ∧
      ((dropoutScope? p = none ∧ t = t') ∨
        ∃ scope, dropoutScope? p = some scope ∧ inputs.get? scope = some t') := by
  unfold bypass
  rw [bind_eq_ok_iff]
  refine exists_congr fun p => and_congr_right fun _ => ?_
  cases dropoutScope? p with
  | none => simp
  | some scope =>
    cases found : inputs.get? scope with
    | none => simp [found]
    | some source => simp [found]

/-- What an operation that stays is made of. -/
structure Remade (inputs : Entries String Tensor) (base : Nat) (graph : GraphId)
    (op op' : Operation) : Prop where
  id : base ≤ op'.id
  name : op'.name = op.name
  type : op'.type = op.type
  inputs : List.Forall₂ (fun t t' => ∃ moved, t.MovedTo graph moved ∧ bypass inputs moved = .ok t')
    op.inputs op'.inputs
  outputs : List.Forall₂ (Tensor.MovedTo graph) op.outputs op'.outputs
  attrs : storedAttrs op.attrs = .ok op'.attrs
  owner : op'.owner = graph

theorem remade_of_withoutDropout {inputs : Entries String Tensor} {base : Nat} {owner : GraphId}
    {op op' : Operation} (run : withoutDropout inputs base owner op = .ok op') :
    Remade inputs base owner op op' := by
  unfold withoutDropout at run
  simp only [bind_eq_ok_iff, pure_eq_ok_iff] at run
  obtain ⟨ins, renewedIns, outs, renewedOuts, ins', bypassed, attrs, stored, rfl⟩ := run
  refine ⟨?_, rfl, rfl, ?_, movedTo_of_renewed renewedOuts, stored, rfl⟩
  · show base ≤ base + ins.length + outs.length
    omega
  · refine forall₂_trans ?_ (movedTo_of_renewed renewedIns) (mapM_eq_ok_iff.mp bypassed)
    exact fun t moved t' move made => ⟨moved, move, made⟩

theorem Remade.bypassed {inputs : Entries String Tensor} {base : Nat} {graph : GraphId}
    {op op' : Operation} (remade : Remade inputs base graph op op') : op.Bypassed inputs op' := by
  refine ⟨remade.name, remade.type, remade.inputs.imp ?_, views_of_forall₂ (remade.outputs.imp ?_),
    remade.attrs⟩
  · rintro t t' ⟨_, ⟨id, rfl⟩, made⟩
    obtain ⟨p, producer, ⟨outside, rfl⟩ | source⟩ := bypass_eq_ok_iff.mp made
    · exact ⟨p, producer, .inl ⟨outside, rfl⟩⟩
    · exact ⟨p, producer, .inr source⟩
  · rintro t _ ⟨id, rfl⟩
    rfl

/-- The operations that stay are those outside of dropout scopes, in the order of evaluation, each
made with numbers from the given one on. -/
theorem remade_of_keptOperations {g : Graph} {inputs : Entries String Tensor} {owner : GraphId}
    {base : Nat} {names : List String} {ops : List Operation}
    (run : g.keptOperations inputs owner base names = .ok ops) :
    List.Forall₂ (fun name op' => ∃ op, g.find? name = some op ∧ Remade inputs base owner op op')
      (names.filter fun name => (dropoutScope? name).isNone) ops := by
  induction names generalizing base ops with
  | nil =>
    rw [keptOperations] at run
    cases run
    exact .nil
  | cons name rest ih =>
    rw [keptOperations] at run
    cases inScope : dropoutScope? name with
    | some scope =>
      simp only [inScope, Option.isSome_some, if_true] at run
      rw [List.filter_cons_of_neg (by simp [inScope])]
      exact ih run
    | none =>
      simp only [inScope, Option.isSome_none, Bool.false_eq_true, if_false, bind_eq_ok_iff,
        find_eq_ok_iff, pure_eq_ok_iff] at run
      obtain ⟨op, found, op', made, later, rest', rfl⟩ := run
      rw [List.filter_cons_of_pos (by simp [inScope])]
      refine .cons ⟨op, found, remade_of_withoutDropout made⟩ ((ih rest').imp ?_)
      rintro name op' ⟨op, found, remade⟩
      have above := remade.id
      exact ⟨op, found, { remade with id := by omega }⟩

theorem dropoutRemoved_eq_ok_iff {g g' : Graph} {base : Nat} {owner : GraphId} :
    g.dropoutRemoved base owner = .ok g' ↔ ∃ inputs, g.dropoutInputs = .ok inputs ∧
      ∃ ops, g.keptOperations inputs owner base g.order = .ok ops ∧
        ⟨ops, [], g.outputs, g.backend⟩ = g' := by
  unfold dropoutRemoved
  simp only [bind_eq_ok_iff, pure_eq_ok_iff]

/-- The graph after the removal has the operations that stay, each made for it. -/
theorem remade_of_dropoutRemoved {g g' : Graph} {base : Nat} {owner : GraphId}
    (run : g.dropoutRemoved base owner = .ok g') :
    ∃ inputs, g.dropoutInputs = .ok inputs ∧
      List.Forall₂ (fun name op' => ∃ op, g.find? name = some op ∧ Remade inputs base owner op op')
        (g.order.filter fun name => (dropoutScope? name).isNone) g'.ops := by
  obtain ⟨inputs, found, ops, kept, rfl⟩ := dropoutRemoved_eq_ok_iff.mp run
  exact ⟨inputs, found, remade_of_keptOperations kept⟩

theorem exists_remade {g g' : Graph} {base : Nat} {owner : GraphId}
    (run : g.dropoutRemoved base owner = .ok g') {op' : Operation} (member : op' ∈ g'.ops) :
    ∃ inputs op, Remade inputs base owner op op' := by
  obtain ⟨inputs, _, kept⟩ := remade_of_dropoutRemoved run
  obtain ⟨_, _, op, _, remade⟩ := exists_left_of_forall₂ kept member
  exact ⟨inputs, op, remade⟩

/-- The graph after the removal has the operations that stay. -/
theorem dropoutRemoved_ok {g g' : Graph} {base : Nat} {owner : GraphId}
    (run : g.dropoutRemoved base owner = .ok g') :
    ∃ inputs, g.dropoutInputs = .ok inputs ∧ g'.outputs = g.outputs ∧
      List.Forall₂ (fun name op' => ∃ op, g.find? name = some op ∧ op.Bypassed inputs op')
        (g.order.filter fun name => (dropoutScope? name).isNone) g'.ops := by
  obtain ⟨inputs, found, ops, kept, rfl⟩ := dropoutRemoved_eq_ok_iff.mp run
  refine ⟨inputs, found, rfl, (remade_of_keptOperations kept).imp ?_⟩
  rintro name op' ⟨op, here, remade⟩
  exact ⟨op, here, remade.bypassed⟩

/-- The names of the operations that stay when dropout is removed. -/
theorem names_of_dropoutRemoved {g g' : Graph} {base : Nat} {owner : GraphId}
    (run : g.dropoutRemoved base owner = .ok g') :
    g'.ops.map Operation.name = g.order.filter fun name => (dropoutScope? name).isNone := by
  obtain ⟨inputs, _, _, kept⟩ := dropoutRemoved_ok run
  have same : g'.ops.map Operation.name =
      (g.order.filter fun name => (dropoutScope? name).isNone).map id := by
    refine views_of_forall₂ (kept.imp ?_)
    rintro name op' ⟨op, found, bypassed⟩
    exact bypassed.name.trans (find?_name found)
  rw [same, List.map_id]

/-- What is left after the removal of dropout: an operation outside of all scopes. -/
theorem exists_of_dropoutRemoved {g g' : Graph} {base : Nat} {owner : GraphId}
    {inputs : Entries String Tensor} (sources : g.dropoutInputs = .ok inputs)
    (run : g.dropoutRemoved base owner = .ok g') {op' : Operation} (member : op' ∈ g'.ops) :
    op'.name ∈ g.order ∧ dropoutScope? op'.name = none ∧
      ∃ op, g.find? op'.name = some op ∧ op.Bypassed inputs op' := by
  obtain ⟨inputs', sources', _, kept⟩ := dropoutRemoved_ok run
  rw [sources] at sources'
  cases sources'
  obtain ⟨name, inside, op, found, bypassed⟩ := exists_left_of_forall₂ kept member
  obtain ⟨listed, outside⟩ := List.mem_filter.mp inside
  have same : op'.name = name := bypassed.name.trans (find?_name found)
  rw [same]
  exact ⟨listed, by simpa using outside, op, found, bypassed⟩

/-- What holds of all tensors of a graph and is a matter of their contents holds without dropout. -/
theorem forall_tensors_of_dropoutRemoved {P : Tensor → Prop}
    (content : ∀ {t t' : Tensor}, t'.content = t.content → P t → P t') {g g' : Graph} {base : Nat}
    {owner : GraphId} (each : ∀ op ∈ g.ops, ∀ t ∈ op.tensors, P t)
    (run : g.dropoutRemoved base owner = .ok g') : ∀ op ∈ g'.ops, ∀ t ∈ op.tensors, P t := by
  intro op' member
  obtain ⟨inputs, sources, _⟩ := dropoutRemoved_ok run
  obtain ⟨_, _, op, here, bypassed⟩ := exists_of_dropoutRemoved sources run member
  obtain ⟨read, made⟩ := Operation.forall_tensors_iff.mp (each op (mem_of_find? here))
  refine Operation.forall_tensors_iff.mpr
    ⟨fun t' listed => ?_, Tensor.forall_of_contents content bypassed.outputs made⟩
  obtain ⟨t, inside, _, _, ⟨_, same⟩ | ⟨scope, _, source⟩⟩ :=
    exists_left_of_forall₂ bypassed.inputs listed
  · exact content same (read t inside)
  · obtain ⟨reader, here', input⟩ := read_of_dropoutInputs sources source
    exact (Operation.forall_tensors_iff.mp (each reader here')).1 t' input

end Graph

end TensorEmit
