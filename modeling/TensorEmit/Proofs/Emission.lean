import TensorEmit.Generate
import TensorEmit.Proofs.Passes

/-!
# Runs of emission

A step of emission reads and changes a state and can fail. The lemmas of the first section take a
successful run of such a step apart, as those on `Except` do for steps without a state.
`transformedGraph_ok` says what the graph is that reaches emission: it was read from the nodes of
the graph file and went through the passes that were asked for.
-/

namespace TensorEmit

namespace Emit

variable {α β : Type}

/-! ## Steps -/

/-- A step with a continuation succeeds if both do, one on the state that the other leaves. -/
@[simp] theorem runOn_bind_ok_iff {x : Emit α} {f : α → Emit β} {e e' : Emission} {b : β} :
    (x >>= f).runOn e = (e', .ok b) ↔
      ∃ a e₁, x.runOn e = (e₁, .ok a) ∧ (f a).runOn e₁ = (e', .ok b) := by
  have unfolded : (x >>= f).runOn e =
      match x.runOn e with
      | (e₁, .ok a) => (f a).runOn e₁
      | (e₁, .error fault) => (e₁, .error fault) := by
    simp only [runOn, ExceptT.run_bind, StateT.run_bind]
    cases x.run.run e with
    | mk r e₁ =>
      cases r with
      | ok a => rfl
      | error fault => rfl
  rw [unfolded]
  cases ran : x.runOn e with
  | mk e₁ r =>
    cases r with
    | error fault => simp
    | ok a => simp

@[simp] theorem runOn_pure_ok_iff {e e' : Emission} {a b : α} :
    (pure a : Emit α).runOn e = (e', .ok b) ↔ e = e' ∧ a = b := by
  constructor
  · intro h
    cases h
    exact ⟨rfl, rfl⟩
  · rintro ⟨rfl, rfl⟩
    rfl

@[simp] theorem runOn_throw_ne_ok {e e' : Emission} {f : Fault} {b : α} :
    (throw f : Emit α).runOn e ≠ (e', .ok b) := by
  intro h
  cases h

/-- A step that only computes leaves the state. -/
@[simp] theorem runOn_lift_ok_iff {r : Except Fault α} {e e' : Emission} {a : α} :
    (lift r).runOn e = (e', .ok a) ↔ e = e' ∧ r = .ok a := by
  cases r with
  | error f => simp [lift]
  | ok b => simp [lift]

@[simp] theorem runOn_get_ok_iff {e e' s : Emission} :
    (get : Emit Emission).runOn e = (e', .ok s) ↔ e = e' ∧ e = s := by
  constructor
  · intro h
    cases h
    exact ⟨rfl, rfl⟩
  · rintro ⟨rfl, rfl⟩
    rfl

@[simp] theorem runOn_set_ok_iff {e e' s : Emission} {u : PUnit} :
    (set s : Emit PUnit).runOn e = (e', .ok u) ↔ s = e' := by
  constructor
  · intro h
    cases h
    rfl
  · rintro rfl
    rfl

@[simp] theorem runOn_modify_ok_iff {e e' : Emission} {f : Emission → Emission} {u : PUnit} :
    (modify f : Emit PUnit).runOn e = (e', .ok u) ↔ f e = e' := by
  constructor
  · intro h
    cases h
    rfl
  · rintro rfl
    rfl

/-- A step on the disk changes nothing but the disk and the log. -/
@[simp] theorem runOn_onSite_ok_iff {job : Job α} {e e' : Emission} {a : α} :
    (onSite job).runOn e = (e', .ok a) ↔
      ∃ site, job.runOn e.site = (site, .ok a) ∧ { e with site } = e' := by
  unfold onSite
  simp only [runOn_bind_ok_iff, runOn_get_ok_iff]
  constructor
  · rintro ⟨_, _, ⟨rfl, rfl⟩, rest⟩
    cases ran : job.runOn e.site with
    | mk site r =>
      rw [ran] at rest
      simp only [runOn_set_ok_iff, runOn_lift_ok_iff] at rest
      obtain ⟨_, _, rfl, rfl, rfl⟩ := rest
      exact ⟨site, rfl, rfl⟩
  · rintro ⟨site, ran, rfl⟩
    refine ⟨e, e, ⟨rfl, rfl⟩, ?_⟩
    rw [ran]
    simp

/-- Behind a step that is made only if asked for, the rest goes on. -/
theorem rest_of_optional {asked : Bool} {first : Emit PUnit} {rest : PUnit → Emit β}
    {e e' : Emission} {b : β}
    (run : (if asked then first >>= rest else rest ()).runOn e = (e', .ok b)) :
    ∃ e₁, (rest ()).runOn e₁ = (e', .ok b) := by
  cases asked with
  | false => exact ⟨e, run⟩
  | true =>
    rw [if_pos rfl, runOn_bind_ok_iff] at run
    obtain ⟨_, e₁, _, later⟩ := run
    exact ⟨e₁, later⟩

end Emit

namespace Code

/-- The variables of a tensor that is loaded from a given file and has no handle. -/
theorem loadTensorVariables_ok {dir tensor type count handle eval : Value} {file : String}
    {vars : Variables}
    (run : loadTensorVariables dir tensor type count (.text file) handle (.bool false) eval =
      .ok vars) :
    ∃ names set, tensorType type = .ok names ∧ setIfTrue "ref_count" count = .ok set ∧
      vars = set ++ [("idx_path", .text (dir.formatted ++ "/" ++ (Value.text file).formatted)),
        ("tensor_name", tensor), ("importer_dtype", .text names.importer), ("to_eval", eval)] := by
  simp only [loadTensorVariables, handleVariables, bind_eq_ok_iff, pure_eq_ok_iff] at run
  obtain ⟨_, _, names, known, _, named, set, isSet, _, ⟨_, unwanted, rfl⟩, rfl⟩ := run
  cases unwanted
  cases named
  exact ⟨names, set, known, isSet, List.append_assoc set [] _⟩

/-- The variables of a tensor over an array that has no handle. -/
theorem binaryTensorVariables_ok {tensor type shape count handle array eval : Value}
    {vars : Variables}
    (run : binaryTensorVariables tensor type shape count handle array (.bool false) eval =
      .ok vars) :
    ∃ names set text length, tensorType type = .ok names ∧
      setIfTrue "ref_count" count = .ok set ∧ shapeText shape = .ok text ∧
      extent shape = .ok length ∧
      vars = set ++ [("tensor_type", .text "BinaryTensor"), ("tensor_name", tensor),
        ("tensor_shape", text), ("tensor_length", length), ("dtype", .text names.element),
        ("to_eval", eval), ("inline_name", array)] := by
  simp only [binaryTensorVariables, handleVariables, bind_eq_ok_iff, pure_eq_ok_iff] at run
  obtain ⟨_, _, names, known, set, isSet, _, ⟨_, unwanted, rfl⟩, text, shown, length, total, rfl⟩ :=
    run
  cases unwanted
  exact ⟨names, set, text, length, known, isSet, shown, total, List.append_assoc set [] _⟩

end Code

/-- A constant is saved in the directory of data and becomes a tensor that is loaded from its
file. -/
theorem emitConst_spec {target : Target} {op : Operation} {f : Code.Fragment} {e e' : Emission}
    (run : (emitConst target op).runOn e = (e', .ok f)) :
    ∃ out count place dir vars a site, op.output 0 = .ok out ∧ op.useCount = .ok count ∧
      target.dataDir = some place ∧ place.asText = .ok dir ∧
      Code.loadTensorVariables (target.embedDir.getD (.text (Path.join boardRoot dir)))
        (.text out.name) (.type out.type) count (.text (flatName out.name ++ ".idx")) .none
        (.bool false) (.bool false) = .ok vars ∧
      (op.attr "value" >>= heldValue >>= heldArray) = .ok a ∧
      (do
        Job.writeArray (Path.join dir (flatName out.name ++ ".idx")) a.atLeastOneDimension
        Job.info ("saving " ++ Path.join dir (flatName out.name ++ ".idx"))).runOn e.site =
          (site, .ok ()) ∧
      e' = { e with site } ∧ f = .of .loadTensor vars := by
  unfold emitConst at run
  simp only [Emit.runOn_bind_ok_iff, Emit.runOn_lift_ok_iff] at run
  obtain ⟨out, _, ⟨rfl, found⟩, count, _, ⟨rfl, counted⟩, run⟩ := run
  split at run
  case h_1 => exact absurd run Emit.runOn_throw_ne_ok
  case h_2 place placed =>
    simp only [Emit.runOn_bind_ok_iff, Emit.runOn_lift_ok_iff, Emit.runOn_onSite_ok_iff,
      Emit.runOn_pure_ok_iff] at run
    obtain ⟨dir, _, ⟨rfl, isDir⟩, vars, _, ⟨rfl, loaded⟩, a, _, ⟨rfl, valued⟩, _, _,
      ⟨site, saved, rfl⟩, rfl, rfl⟩ := run
    exact ⟨out, count, place, dir, vars, a, site, found, counted, placed, isDir, loaded, valued,
      saved, rfl, rfl⟩

/-- An inlined constant adds an array with its value and becomes a tensor over this array. The shape
of its output goes into both. -/
theorem emitInline_spec {target : Target} {op : Operation} {f : Code.Fragment} {e e' : Emission}
    (run : (emitInline target op).runOn e = (e', .ok f)) :
    ∃ out count a shape vars weight sets, op.output 0 = .ok out ∧ op.useCount = .ok count ∧
      (op.attr "value" >>= heldValue >>= heldArray) = .ok a ∧
      (∀ vs, out.shape = some vs → shape = .list vs) ∧
      Code.binaryTensorVariables (.text out.name) (.type out.type) shape count
        (.text (flatName out.name)) (.text (arrayName out.name)) (.bool false) (.bool false) =
          .ok vars ∧
      Code.weightVariables (.text (arrayName out.name)) (.type out.type) shape
        (.array a.flatten) = .ok weight ∧
      e' = { e with sets, weights := e.weights ++ [.of .weight weight] } ∧
      f = .of .binaryTensor vars := by
  unfold emitInline at run
  simp only [Emit.runOn_bind_ok_iff, Emit.runOn_lift_ok_iff] at run
  obtain ⟨out, _, ⟨rfl, found⟩, count, _, ⟨rfl, counted⟩, a, _, ⟨rfl, valued⟩, vars, _,
    ⟨rfl, built⟩, weight, _, ⟨rfl, weighed⟩, run⟩ := run
  split at run
  · simp only [Emit.runOn_bind_ok_iff] at run
    obtain ⟨_, _, fails, _⟩ := run
    exact absurd fails Emit.runOn_throw_ne_ok
  · simp only [Emit.addWeight, Emit.runOn_bind_ok_iff, Emit.runOn_pure_ok_iff,
      Emit.runOn_get_ok_iff, Emit.runOn_lift_ok_iff, Emit.runOn_set_ok_iff] at run
    obtain ⟨_, _, ⟨_, _, ⟨rfl, rfl⟩, _, _, ⟨rfl, _⟩, rfl⟩, rfl, rfl⟩ := run
    refine ⟨out, count, a, _, vars, weight, _, found, counted, valued, ?_, built, weighed, rfl, rfl⟩
    intro vs shaped
    rw [shaped]

/-- The state in which a graph file is there and nothing else. -/
def Emission.withModel (nodes : List Node) : Emission :=
  .start ⟨⟨[], [(["m.pb"], .model nodes)]⟩, []⟩

/-- A request for outputs of this graph file after some passes. -/
def Request.ofModel (methods outputs : List String) : Request where
  model := .text "m.pb"
  dataDir := .text "data"
  embedDir := .text "data"
  methods := .list (methods.map Value.text)
  outputs := .list (outputs.map Value.text)
  saveGraph := false
  comments := false
  options := []

/-- The target of code that finds its files where they are written. -/
def Target.inData : Target := ⟨some (.text "data"), some (.text "data"), true⟩

/-! ## The graph that reaches emission -/

theorem onWorkspace_ok {w w' : Workspace} {id : GraphId}
    {step : Workspace → Workspace × Except Fault GraphId} {e e' : Emission}
    (run : (onWorkspace w step).runOn e = (e', .ok (w', id))) :
    step w = (w', .ok id) ∧ e'.site = e.site := by
  unfold onWorkspace at run
  cases stepped : step w with
  | mk w₁ r =>
    rw [stepped] at run
    simp only [Emit.runOn_bind_ok_iff, Emit.runOn_modify_ok_iff, Emit.runOn_lift_ok_iff,
      Emit.runOn_pure_ok_iff, Prod.mk.injEq] at run
    obtain ⟨_, e₁, noted, id₁, e₂, ⟨rfl, made⟩, rfl, rfl, rfl⟩ := run
    rw [made]
    refine ⟨rfl, ?_⟩
    rw [← noted]

/-- The graph that reaches emission was read from the graph file and went through the passes. -/
theorem transformedGraph_ok [Importer] {quantizer : Quantizer} {r : Request} {model : String}
    {e e' : Emission} {g : Graph} {methods : List String}
    (run : (transformedGraph quantizer r model).runOn e = (e', .ok (g, methods))) :
    ∃ site nodes base owner g₀ pipeline, (loadModel model).runOn e.site = (site, .ok nodes) ∧
      Graph.ofNodes base owner nodes r.outputs = .ok g₀ ∧
      Pipeline.ofMethods r.methods r.options = .ok pipeline ∧
      Graph.Runs quantizer g₀ pipeline g := by
  unfold transformedGraph at run
  rw [Emit.runOn_bind_ok_iff] at run
  obtain ⟨nodes, e₁, loaded, run⟩ := run
  rw [Emit.runOn_onSite_ok_iff] at loaded
  obtain ⟨site, loaded, _⟩ := loaded
  obtain ⟨e₂, run⟩ := Emit.rest_of_optional run
  simp only [Emit.runOn_bind_ok_iff] at run
  obtain ⟨⟨w, id⟩, e₃, read, _, e₄, _, _, e₅, _, _, e₆, _, pipeline, e₇, configured, ⟨w', id'⟩, e₈,
    ran, _, e₉, _, made⟩ := run
  rw [Emit.runOn_lift_ok_iff] at configured
  rw [Emit.runOn_pure_ok_iff] at made
  obtain ⟨_, made⟩ := made
  cases made
  have first := Workspace.graph_of_ofNodes (onWorkspace_ok read).1
  have runs := Workspace.runs_of_run (onWorkspace_ok ran).1
  exact ⟨site, nodes, _, _, w.graph id, pipeline, loaded, first, configured.2, runs⟩

/-- What operations have when they are read, and no pass breaks, they have when they reach
emission. -/
theorem Graph.OperationInvariant.reaches [Importer] {quantizer : Quantizer} {P : Operation → Prop}
    (invariant : OperationInvariant quantizer P)
    (start : ∀ {nodes n op}, Importer.accept nodes = .ok () → n ∈ nodes → n.Read nodes op → P op)
    {r : Request} {model : String} {e e' : Emission} {g : Graph} {methods : List String}
    (run : (transformedGraph quantizer r model).runOn e = (e', .ok (g, methods))) :
    ∀ op ∈ g.ops, P op := by
  obtain ⟨_, nodes, _, _, g₀, pipeline, _, read, _, runs⟩ := transformedGraph_ok run
  obtain ⟨_, _, _, taken, _⟩ := ofNodes_ok read
  refine runs.forall_ops invariant (ordered_of_ofNodes read) fun op member => ?_
  obtain ⟨n, inside, made⟩ := read_of_mem_ofNodes read member
  exact start taken inside made

end TensorEmit
