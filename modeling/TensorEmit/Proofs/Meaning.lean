import Mathlib.Logic.Function.Basic
import TensorEmit.Proofs.Importing
import TensorEmit.Proofs.Passes

/-!
# What a graph computes

An interpretation says what operations compute. `Graph.values` runs through the order of evaluation
once and gives every output of every operation a value; in a graph that is in order the value of an
operation is what its interpretation makes of the values of its inputs (`Graph.values_eq`).

Removing dropout keeps the values of the outputs under every interpretation in which dropout does
nothing (`Workspace.dropout_keeps_values`).
-/

namespace TensorEmit

/-- What operations compute: from the type, the attributes and the values of the inputs the value of
each output by its place. -/
abbrev Interpretation (V : Type) := String → Entries String Value → List V → Int → V

/-- The values of the outputs of operations, by the name of the operation and the place. -/
abbrev Valuation (V : Type) := String → Int → V

variable {V : Type} [Inhabited V]

/-- The value of a tensor is that of the output which its name speaks of. -/
def Tensor.value (env : Valuation V) (t : Tensor) : V :=
  match TensorName.parse t.name with
  | .ok n => env n.op n.index
  | .error _ => default

/-- Only the producer of a tensor matters for its value. -/
theorem Tensor.value_congr {env env' : Valuation V} {t t' : Tensor} {p : String}
    (name : t'.name = t.name) (producer : TensorName.producer t.name = .ok p)
    (agree : env' p = env p) : t'.value env' = t.value env := by
  unfold TensorName.producer at producer
  rw [map_eq_ok_iff] at producer
  obtain ⟨n, parsed, rfl⟩ := producer
  unfold Tensor.value
  rw [name, parsed]
  exact congrFun agree n.index

theorem Tensor.map_value_content (env : Valuation V) (ts : List Tensor) :
    (ts.map Tensor.content).map (Tensor.value env) = ts.map (Tensor.value env) := by
  rw [List.map_map]
  rfl

namespace Graph

/-- The valuation after one more operation. -/
def evaluate (I : Interpretation V) (g : Graph) (env : Valuation V) (name : String) :
    Valuation V :=
  match g.find? name with
  | none => env
  | some op => Function.update env name (I op.type op.attrs (op.inputs.map (Tensor.value env)))

/-- The values after the operations of some names. -/
def valuesAfter (I : Interpretation V) (g : Graph) (names : List String) : Valuation V :=
  names.foldl (g.evaluate I) fun _ _ => default

/-- The values of all operations of the order. -/
def values (I : Interpretation V) (g : Graph) : Valuation V := g.valuesAfter I g.order

theorem valuesAfter_append (I : Interpretation V) (g : Graph) (names : List String)
    (name : String) :
    g.valuesAfter I (names ++ [name]) = g.evaluate I (g.valuesAfter I names) name := by
  unfold valuesAfter
  rw [List.foldl_append]
  rfl

/-- The value of an operation that was evaluated comes from those of its inputs. -/
theorem valuesAfter_eq {I : Interpretation V} {g : Graph} {names : List String}
    (ordered : g.Ordered names) {name : String} (listed : name ∈ names) {op : Operation}
    (found : g.find? name = some op) :
    g.valuesAfter I names name =
      I op.type op.attrs (op.inputs.map (Tensor.value (g.valuesAfter I names))) := by
  induction ordered generalizing name op with
  | nil => cases listed
  | @snoc names last lastOp ordered fresh here inputs ih =>
    -- What is evaluated last is no producer of anything in the order up to it.
    have agree : ∀ p ∈ names,
        g.valuesAfter I (names ++ [last]) p = g.valuesAfter I names p := by
      intro p earlier
      rw [valuesAfter_append, evaluate, here]
      refine Function.update_of_ne ?_ _ _
      rintro rfl
      exact fresh earlier
    have sameInputs : ∀ {op : Operation},
        (∀ t ∈ op.inputs, ∃ p ∈ names, TensorName.producer t.name = .ok p) →
        op.inputs.map (Tensor.value (g.valuesAfter I (names ++ [last]))) =
          op.inputs.map (Tensor.value (g.valuesAfter I names)) := by
      intro op known
      refine List.map_congr_left fun t read => ?_
      obtain ⟨p, earlier, producer⟩ := known t read
      exact Tensor.value_congr rfl producer (agree p earlier)
    rcases List.mem_append.mp listed with earlier | isLast
    · rw [agree name earlier, ih earlier found, sameInputs]
      intro t read
      obtain ⟨p, producer⟩ := ordered.producer earlier found read
      exact ⟨p, ordered.needs earlier ⟨op, found, t, read, producer⟩, producer⟩
    · cases List.mem_singleton.mp isLast
      rw [here] at found
      cases found
      rw [sameInputs inputs, valuesAfter_append, evaluate, here]
      exact Function.update_self _ _ _

/-- In a graph that is in order, the value of an operation comes from those of its inputs. -/
theorem values_eq {I : Interpretation V} {g : Graph} (ordered : g.Ordered g.order) {name : String}
    (listed : name ∈ g.order) {op : Operation} (found : g.find? name = some op) :
    g.values I name = I op.type op.attrs (op.inputs.map (Tensor.value (g.values I))) :=
  valuesAfter_eq ordered listed found

/-! ## Removing dropout -/

/-- All attributes are in the form in which an operation stores them when it is made. -/
def Stored (g : Graph) : Prop := ∀ op ∈ g.ops, storedAttrs op.attrs = .ok op.attrs

/-- The attributes of a graph that was read are in this form. -/
theorem stored_of_ofNodes [Importer] {base : Nat} {id : GraphId} {nodes : List Node}
    {outputs : Value} {g : Graph} (run : Graph.ofNodes base id nodes outputs = .ok g)
    (devices : ∀ n ∈ nodes, n.device.isNeutral) : g.Stored := by
  intro op member
  obtain ⟨n, inside, read⟩ := read_of_mem_ofNodes run member
  obtain ⟨attrs, stored, same⟩ := read.attrs
  rw [same]
  exact storedAttrs_set (storedAttrs_idempotent stored) (devices n inside)

theorem stored_of_dropoutRemoved {base : Nat} {owner : GraphId} {g g' : Graph}
    (run : g.dropoutRemoved base owner = .ok g') : g'.Stored := by
  obtain ⟨inputs, sources, _⟩ := dropoutRemoved_ok run
  intro op' member
  obtain ⟨_, _, op, _, bypassed⟩ := exists_of_dropoutRemoved sources run member
  exact storedAttrs_idempotent bypassed.attrs

/-- Under an interpretation dropout does nothing: a tensor that a scope makes and that is read
outside of it has the value of the data input of the scope. -/
def DropoutInert (g : Graph) (I : Interpretation V) : Prop :=
  ∀ name ∈ g.order, ∀ op, g.find? name = some op → ∀ t ∈ op.inputs, ∀ p scope,
    TensorName.producer t.name = .ok p → dropoutScope? p = some scope →
    dropoutScope? name ≠ some scope → ∀ u, g.IsDataInput scope u →
    t.value (g.values I) = u.value (g.values I)

/-- What is left of an operation reads the values that the operation read. -/
theorem values_of_bypassed {I : Interpretation V} {g : Graph} {inputs : Entries String Tensor}
    (ordered : g.Ordered g.order) (inert : g.DropoutInert I)
    (sources : g.dropoutInputs = .ok inputs)
    {name : String} (listed : name ∈ g.order) (kept : dropoutScope? name = none)
    {op op' : Operation} (found : g.find? name = some op) (bypassed : op.Bypassed inputs op') :
    op'.inputs.map (Tensor.value (g.values I)) = op.inputs.map (Tensor.value (g.values I)) := by
  refine views_of_forall₂ ?_
  refine List.forall₂_iff_zip.mpr ⟨bypassed.inputs.length_eq, fun {t t'} pair => ?_⟩
  obtain ⟨p, producer, ⟨_, same⟩ | ⟨scope, inside, source⟩⟩ :=
    (List.forall₂_iff_zip.mp bypassed.inputs).2 pair
  · exact Tensor.value_congr (Tensor.name_of_content same) producer rfl
  · have input := dropoutInputs_ok ordered sources source
    have outside : dropoutScope? name ≠ some scope := by simp [kept]
    have read : t ∈ op.inputs := (List.of_mem_zip pair).1
    exact (inert name listed op found t read p scope producer inside outside t' input).symm

section Removal

variable {I : Interpretation V} {g g₁ g' : Graph} {base : Nat} {owner : GraphId} {prune : Value}

/-- One operation of the graph without dropout has its old value if its producers have. -/
theorem value_of_settled_removal (ordered : g.Ordered g.order) (stored : g.Stored)
    (inert : g.DropoutInert I) (removed : g.dropoutRemoved base owner = .ok g₁)
    (settled : g₁.Settled prune g') {name : String} (listed : name ∈ g'.order)
    (earlier : ∀ p, g'.Needs name p → g'.values I p = g.values I p) :
    g'.values I name = g.values I name := by
  obtain ⟨inputs, sources, _⟩ := dropoutRemoved_ok removed
  obtain ⟨op₁, op', found₁, found', alike⟩ := settled.find? listed
  obtain ⟨listed', kept, op, found, bypassed⟩ :=
    exists_of_dropoutRemoved sources removed (mem_of_find? found₁)
  rw [find?_name found₁] at listed' kept found
  have readsOld := values_of_bypassed ordered inert sources listed' kept found bypassed
  have readsSame : op'.inputs.map (Tensor.value (g'.values I)) =
      op₁.inputs.map (Tensor.value (g.values I)) := by
    rw [← Tensor.map_value_content (g.values I), ← alike.inputs, Tensor.map_value_content]
    refine List.map_congr_left fun t read => ?_
    obtain ⟨p, producer⟩ := settled.ordered.producer listed found' read
    exact Tensor.value_congr rfl producer (earlier p ⟨op', found', t, read, producer⟩)
  have attrs₁ : op₁.attrs = op.attrs := by
    have again := bypassed.attrs
    rw [stored op (mem_of_find? found)] at again
    exact (Except.ok.inj again).symm
  have attrs : op'.attrs = op.attrs := by
    rw [← attrs₁]
    refine alike.attrs_eq ?_
    rw [attrs₁]
    exact stored op (mem_of_find? found)
  rw [values_eq settled.ordered listed found', values_eq ordered listed' found, readsSame, readsOld,
    attrs, alike.type, bypassed.type]

/-- Every operation of the graph without dropout has its old value. -/
theorem values_of_settled_removal (ordered : g.Ordered g.order) (stored : g.Stored)
    (inert : g.DropoutInert I) (removed : g.dropoutRemoved base owner = .ok g₁)
    (settled : g₁.Settled prune g') {names : List String} (sorted : g'.Ordered names)
    (part : ∀ name ∈ names, name ∈ g'.order) :
    ∀ name ∈ names, g'.values I name = g.values I name := by
  induction sorted with
  | nil => simp
  | @snoc names last op before _ found inputs ih =>
    have known := ih fun name member => part name (by simp [member])
    intro name member
    rcases List.mem_append.mp member with earlier | isLast
    · exact known name earlier
    · cases List.mem_singleton.mp isLast
      refine value_of_settled_removal ordered stored inert removed settled (part last (by simp)) ?_
      rintro p ⟨op', found', t, read, producer⟩
      rw [found] at found'
      cases found'
      obtain ⟨p', earlier, producer'⟩ := inputs t read
      rw [producer] at producer'
      cases producer'
      exact known p earlier

end Removal

end Graph

/-- Removing dropout leaves no operation of a dropout scope and the same outputs, and each output
keeps its value under every interpretation in which dropout does nothing. -/
theorem Workspace.dropout_keeps_values [Importer] {quantizer : Quantizer} {w w' : Workspace}
    {id id' : GraphId} {prune : Value}
    (run : w.runStep quantizer id ⟨.dropout, prune⟩ = (w', .ok id'))
    (ordered : (w.graph id).Ordered (w.graph id).order) (stored : (w.graph id).Stored) :
    (∀ op ∈ (w'.graph id').ops, dropoutScope? op.name = none) ∧
    (w'.graph id').outputs = (w.graph id).outputs ∧
    ∀ (V : Type) [Inhabited V] (I : Interpretation V), (w.graph id).DropoutInert I →
      ∀ out ∈ (w.graph id).outputs, ∃ op op', (w.graph id).find? out = some op ∧
        (w'.graph id').find? out = some op' ∧
        op'.outputs.map Tensor.content = op.outputs.map Tensor.content ∧
        (w'.graph id').values I out = (w.graph id).values I out := by
  obtain ⟨g₁, applied, settled⟩ := step_of_runStep run
  generalize w.graph id = g at ordered stored applied
  generalize w'.graph id' = g' at settled
  cases applied with
  | dropout removed =>
    obtain ⟨inputs, sources, outputs, _⟩ := Graph.dropoutRemoved_ok removed
    refine ⟨fun op' member => ?_, settled.outputs_eq.trans outputs,
      fun V _ I inert out output => ?_⟩
    · obtain ⟨op₁, inside, alike⟩ := settled.exists_alike member
      obtain ⟨_, outside, _⟩ := Graph.exists_of_dropoutRemoved sources removed inside
      rw [alike.name]
      exact outside
    · have listed : out ∈ g'.order := by
        rw [Graph.mem_sorted_iff settled.sorted_eq]
        exact .output (by rw [outputs]; exact output)
      obtain ⟨op₁, op', found₁, found', alike⟩ := settled.find? listed
      obtain ⟨_, _, op, found, bypassed⟩ :=
        Graph.exists_of_dropoutRemoved sources removed (Graph.mem_of_find? found₁)
      rw [Graph.find?_name found₁] at found
      refine ⟨op, op', found, found', alike.outputs.trans bypassed.outputs, ?_⟩
      exact Graph.values_of_settled_removal ordered stored inert removed settled settled.ordered
        (fun _ member => member) out listed

/-- The sum of an input and its masked form. -/
def maskedSum : List Node :=
  let node (name type : String) (inputs : List String) : Node :=
    ⟨name, type, inputs, .text "", [], [⟨.float32, some []⟩]⟩
  [node "x" "Placeholder" [], node "keep_prob" "Placeholder" [],
   node "dropout/mul" "Mul" ["x", "keep_prob"], node "y" "Add" ["dropout/mul", "x"]]

attribute [local instance] Importer.strict

/-- A workspace with the graph of this sum. -/
def maskedSumWorkspace : Workspace := (Workspace.empty.ofNodes maskedSum (.list [.text "y"])).1

/-- A sum adds, and all else is three. -/
def maskedSumMeaning : Interpretation Int := fun type _ ins _ =>
  if type = "Add" then ins.foldr (fun x y => x + y) 0 else 3

theorem Workspace.dropout_keeps_values_maskedSum : ∃ w' : Workspace,
    maskedSumWorkspace.runStep (fun h => .ok h.nodes) 0 ⟨.dropout, .bool true⟩ = (w', .ok 2) ∧
    (maskedSumWorkspace.graph 0).DropoutInert maskedSumMeaning ∧
    (∀ op ∈ (w'.graph 2).ops, dropoutScope? op.name = none) ∧
    (w'.graph 2).outputs = ["y"] ∧ (w'.graph 2).values maskedSumMeaning "y" 0 = 6 := by
  have done : (maskedSumWorkspace.runStep (fun h => .ok h.nodes) 0
      ⟨.dropout, .bool true⟩).2 = .ok 2 := rfl
  obtain ⟨w', run⟩ : ∃ w', maskedSumWorkspace.runStep (fun h => .ok h.nodes) 0
      ⟨.dropout, .bool true⟩ = (w', .ok 2) := ⟨_, Prod.ext rfl done⟩
  have read : Graph.ofNodes 0 0 maskedSum (.list [.text "y"]) =
      .ok (maskedSumWorkspace.graph 0) := rfl
  have ordered := Graph.ordered_of_ofNodes read
  have stored := Graph.stored_of_ofNodes read (by decide)
  have sources : ∀ op ∈ (maskedSumWorkspace.graph 0).orderedOps, ∀ t ∈ op.inputs,
      ∃ q ∈ (maskedSumWorkspace.graph 0).orderedOps,
        TensorName.parse t.name = .ok ⟨q.name, 0⟩ ∧ q.type ≠ "Add" := by decide
  have three : ∀ {name op}, name ∈ (maskedSumWorkspace.graph 0).order →
      (maskedSumWorkspace.graph 0).find? name = some op → ∀ t ∈ op.inputs,
      t.value ((maskedSumWorkspace.graph 0).values maskedSumMeaning) = 3 := by
    intro name op listed found t input
    obtain ⟨q, producer, parsed, other⟩ :=
      sources op (List.mem_filterMap.mpr ⟨name, listed, found⟩) t input
    obtain ⟨listed', found'⟩ := Graph.mem_orderedOps.mp producer
    simp [Tensor.value, parsed, Graph.values_eq ordered listed' found', maskedSumMeaning, other]
  have inert : (maskedSumWorkspace.graph 0).DropoutInert maskedSumMeaning := by
    rintro name listed op found t input p scope _ _ _ u ⟨name', listed', _, op', found', input', _⟩
    rw [three listed found t input, three listed' found' u input']
  obtain ⟨removed, outputs, keeps⟩ := Workspace.dropout_keeps_values run ordered stored
  obtain ⟨op, _, found, _, _, same⟩ := keeps Int maskedSumMeaning inert "y" (by decide)
  have sum := congrFun (Graph.values_eq (I := maskedSumMeaning) ordered (by decide) found) 0
  rw [List.map_congr_left (three (by decide) found)] at sum
  cases found
  exact ⟨w', run, inert, removed, outputs, (congrFun same 0).trans sum⟩

end TensorEmit
