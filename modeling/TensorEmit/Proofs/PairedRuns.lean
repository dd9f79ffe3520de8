import TensorEmit.Proofs.Parallel
import TensorEmit.Proofs.WholeRuns

/-!
# Whole runs side by side

A pairing that is lawful for single steps is kept by whole runs, as long as the graphs that the two
runs emit cannot be told apart by emission. `Pairing.Lawful.generate` takes two runs up to the point
where they write their programs; what they write there depends on the pairing.
`Pairing.Lawful.generate_alike` does so for two runs that differ in their passes.
-/

namespace TensorEmit

open Code

/-- Two graphs that are emitted alike. -/
def Graph.SameEmission (g g' : Graph) : Prop :=
  ∀ target comments d, addOperations target comments g' 0 d g'.order =
    addOperations target comments g 0 d g.order

theorem methodNames_of_transformedGraph [Importer] {quantizer : Quantizer} {r : Request}
    {model : String} {e e' : Emission} {made : Graph × List String}
    (run : (transformedGraph quantizer r model).runOn e = (e', .ok made)) :
    r.methodNames = .ok made.2 := by
  unfold transformedGraph at run
  rw [Emit.runOn_bind_ok_iff] at run
  obtain ⟨nodes, e₁, _, run⟩ := run
  obtain ⟨e₂, run⟩ := Emit.rest_of_optional run
  simp only [Emit.runOn_bind_ok_iff] at run
  obtain ⟨_, _, _, _, _, _, methods, _, named, _, _, _, _, _, _, _, _, _, _, _, _, run⟩ := run
  rw [Emit.runOn_lift_ok_iff] at named
  rw [Emit.runOn_pure_ok_iff] at run
  obtain ⟨_, rfl⟩ := run
  exact named.2

namespace Pairing

variable {p : Pairing} {α : Type} {E : Emission × Fault → Emission × Fault → Prop}
  {R : Emission → Emission → Prop}

theorem Steps.within {S : α → α → Prop} {x y : Emit α} (steps : p.Steps S x y)
    (faults : ∀ a b, p.Failures a b → E a b) : Parallel E p.States p.States S x y :=
  steps.imp faults (fun _ _ states => states) (fun _ _ same => same)

/-- Steps that leave the files alone are paired if their results are. -/
theorem Steps.of_sameFiles {S : α → α → Prop} {x y : Emit α}
    (reads : ∀ e e' e₁ e₁', p.States e e' → e.SameFiles e₁ → e'.SameFiles e₁' → p.States e₁ e₁')
    (left : ∀ e : Emission, e.SameFiles (outcome x e).1)
    (right : ∀ e : Emission, e.SameFiles (outcome y e).1)
    (results : ∀ e e', p.States e e' →
      (∃ f f', (outcome x e).2 = .error f ∧ (outcome y e').2 = .error f' ∧ p.fault f f') ∨
        ∃ a b, (outcome x e).2 = .ok a ∧ (outcome y e').2 = .ok b ∧ S a b) : p.Steps S x y := by
  intro e e' paired
  have states := reads _ _ _ _ paired (left e) (right e')
  have ends := results e e' paired
  revert states ends
  rcases outcome x e with ⟨e₁, r⟩
  rcases outcome y e' with ⟨e₁', r'⟩
  rintro states (⟨f, f', rfl, rfl, faults⟩ | ⟨a, b, rfl, rfl, related⟩)
  · exact .error ⟨states, faults⟩
  · exact .ok states related

/-! ## Before the inlined constants are started anew -/

/-- The pairing before a run starts its inlined constants anew. -/
def beforeWeights (p : Pairing) : Pairing := { p with weights := fun _ _ => True }

theorem Lawful.beforeWeights (lawful : p.Lawful) : p.beforeWeights.Lawful where
  owned := lawful.owned
  addAll := lawful.addAll
  push _ _ _ _ := trivial
  refl := lawful.refl
  logged := lawful.logged
  write := lawful.write

theorem Failures.beforeWeights {x y : Emission × Fault} (failed : p.Failures x y) :
    p.beforeWeights.Failures x y :=
  ⟨⟨failed.1.site, failed.1.sets, trivial⟩, failed.2⟩

/-! ## Up to writing the program -/

theorem Lawful.saveSnapshot (lawful : p.Lawful) (graph : String) :
    p.Jobs Eq (TensorEmit.saveSnapshot graph) (TensorEmit.saveSnapshot graph) := by
  unfold TensorEmit.saveSnapshot
  refine (lawful.info _).bind fun _ _ _ => ?_
  refine (lawful.write _ _).bind fun _ _ _ => ?_
  exact lawful.info _

/-- Two runs, the second one with other passes, transform their graphs into ones that are emitted
alike. -/
def TransformsAlike [Importer] (p : Pairing) (quantizer : Quantizer) (r : Request) (methods : Value)
    (model : String) : Prop :=
  p.Steps
    (fun x y => x.1.SameEmission y.1 ∧
      y.2.contains Pass.inline.method = x.2.contains Pass.inline.method)
    (transformedGraph quantizer r model) (transformedGraph quantizer { r with methods } model)

/-- Two runs transform their graphs into ones that are emitted alike. -/
def Transforms [Importer] (p : Pairing) (quantizer : Quantizer) (r : Request)
    (model : String) : Prop :=
  p.Steps (fun x y => x.1.SameEmission y.1 ∧ x.2 = y.2) (transformedGraph quantizer r model)
    (transformedGraph quantizer r model)

theorem Transforms.alike [Importer] {quantizer : Quantizer} {r : Request} {model : String}
    (transforms : p.Transforms quantizer r model) :
    p.TransformsAlike quantizer r r.methods model :=
  transforms.imp (fun _ _ failed => failed) (fun _ _ states => states)
    fun _ _ same => ⟨same.1, congrArg (List.contains · Pass.inline.method) same.2.symm⟩

section Writing

variable {quantizer : Quantizer} {r : Request} {source : Value}

/-- Two runs from a graph file, the second one with other passes, stay paired until they write their
programs. -/
theorem Lawful.generateFromModel_alike [Importer] (lawful : p.Lawful) (none : p.weights [] [])
    (faults : ∀ a b, p.beforeWeights.Failures a b → E a b) {methods' : Value}
    {dataDir embedDir model path : String}
    (transforms : p.TransformsAlike quantizer r methods' model)
    (writes : ∀ methods d, r.methodNames = .ok methods →
      let write := writeAll (methods.contains Pass.inline.method) (.of model path) d
      Parallel E p.States R Eq write write) :
    Parallel E p.beforeWeights.States R Eq
      (TensorEmit.generateFromModel quantizer r dataDir embedDir model path)
      (TensorEmit.generateFromModel quantizer { r with methods := methods' } dataDir embedDir model
        path) := by
  have faults' : ∀ a b, p.Failures a b → E a b := fun a b failed => faults a b failed.beforeWeights
  unfold TensorEmit.generateFromModel
  have begun : Parallel E p.beforeWeights.States p.States Eq
      (modify (Emission.begun (.of model path)) : Emit PUnit)
      (modify (Emission.begun (.of model path))) :=
    .update fun e e' paired => ⟨paired.site, lawful.addAll _ _ .context _ paired.sets rfl, none⟩
  refine begun.bind fun _ _ _ => ?_
  have transformed := transforms.and fun _ _ _ run => methodNames_of_transformedGraph run
  refine (transformed.within faults').bind fun ⟨g, methods⟩ ⟨g', methods'⟩ results => ?_
  obtain ⟨⟨alike, same⟩, named⟩ := results
  dsimp only at alike same named
  refine .optional (((lawful.saveSnapshot _).onSite).within faults') fun _ => ?_
  have emitted := lawful.addOperations ⟨some (.text dataDir), some (.text embedDir), true⟩
    r.comments g 0 .empty g.order
  dsimp only
  rw [alike, same]
  refine (emitted.within faults').bind fun d _ equal => ?_
  subst equal
  exact writes methods d named

/-- Two runs, the second one with other passes, stay paired until they write their programs. -/
theorem Lawful.generate_alike [Importer] (lawful : p.Lawful) (none : p.weights [] [])
    (faults : ∀ a b, p.beforeWeights.Failures a b → E a b) {methods' : Value}
    (dirs : ∀ path, p.Jobs Eq (Job.ensureDirs path) (Job.ensureDirs path))
    (transforms : ∀ model, p.TransformsAlike quantizer r methods' model)
    (writes : ∀ model path methods d, r.model = .text model → source = .text path →
      r.methodNames = .ok methods →
      let write := writeAll (methods.contains Pass.inline.method) (.of model path) d
      Parallel E p.States R Eq write write) :
    Parallel E p.beforeWeights.States R Eq (TensorEmit.generate quantizer r source)
      (TensorEmit.generate quantizer { r with methods := methods' } source) := by
  have before := lawful.beforeWeights
  have made : ∀ path, p.beforeWeights.Keeps (Emit.onSite (Job.ensureDirs path)) :=
    fun path => Jobs.onSite (p := p.beforeWeights) (dirs path)
  unfold TensorEmit.generate
  refine ((before.lift _).within faults).bind fun _ _ _ => ?_
  refine ((before.lift _).within faults).bind fun dataDir _ same => ?_
  subst same
  refine ((made dataDir).within faults).bind fun _ _ _ => ?_
  refine ((before.lift _).within faults).bind fun embedDir _ same => ?_
  subst same
  have modelled := (before.lift r.modelPath).and
    fun _ _ _ run => modelPath_ok (Emit.runOn_lift_ok_iff.mp run).2
  refine (modelled.within faults).bind fun model _ found => ?_
  obtain ⟨rfl, isModel⟩ := found
  have sourced := (before.lift source.asText).and
    fun _ _ _ run => asText_eq_ok_iff.mp (Emit.runOn_lift_ok_iff.mp run).2
  refine (sourced.within faults).bind fun path _ found => ?_
  obtain ⟨rfl, isSource⟩ := found
  exact lawful.generateFromModel_alike none faults (transforms model)
    fun methods d named => writes model path methods d isModel isSource named

/-- Two runs of one request stay paired until they write their programs. -/
theorem Lawful.generate [Importer] (lawful : p.Lawful) (none : p.weights [] [])
    (faults : ∀ a b, p.beforeWeights.Failures a b → E a b)
    (dirs : ∀ path, p.Jobs Eq (Job.ensureDirs path) (Job.ensureDirs path))
    (transforms : ∀ model, p.Transforms quantizer r model)
    (writes : ∀ model path methods d, r.model = .text model → source = .text path →
      r.methodNames = .ok methods →
      let write := writeAll (methods.contains Pass.inline.method) (.of model path) d
      Parallel E p.States R Eq write write) :
    let run := TensorEmit.generate quantizer r source
    Parallel E p.beforeWeights.States R Eq run run :=
  lawful.generate_alike none faults dirs (fun model => (transforms model).alike) writes

end Writing

/-! ## Writing the program -/

/-- The header of the weights is written, or it is taken out of the headers of the entry point. -/
theorem Lawful.writeWeights (lawful : p.Lawful) (same : p.weights = Eq)
    {T : HeaderSets → HeaderSets → Prop} {inlined : Bool} {names : OutputNames}
    (kept : inlined = true → ∀ hs hs', p.sets hs hs' → T hs hs')
    (dropped : inlined = false → ∀ hs hs', p.sets hs hs' →
      T (hs.drop (.builtIn .context) (includedName names.weightHeader))
        (hs'.drop (.builtIn .context) (includedName names.weightHeader))) :
    Parallel p.Failures p.States ({ p with sets := T } : Pairing).States Eq
      (TensorEmit.writeWeights inlined names) (TensorEmit.writeWeights inlined names) := by
  refine Parallel.state.bind fun e e' paired => ?_
  have weights : e.weights = e'.weights := same ▸ paired.weights
  cases inlined with
  | true =>
    rw [weights, if_pos rfl, if_pos rfl]
    have written := (lawful.info ("Generate weight file: " ++ names.weightHeader)).bind
      fun _ _ _ => lawful.writeText names.weightHeader (weightsText e'.weights)
    refine (Jobs.onSite written).imp (fun _ _ failed => failed) ?_ (fun _ _ same => same)
    exact fun _ _ states => ⟨states.site, kept rfl _ _ states.sets, states.weights⟩
  | false =>
    rw [if_neg Bool.false_ne_true, if_neg Bool.false_ne_true]
    exact .put ⟨paired.site, dropped rfl _ _ paired.sets, paired.weights⟩

/-- The same headers and the same entry point make the same program. -/
theorem Lawful.writeProgram (lawful : p.Lawful) (same : ∀ hs hs', p.sets hs hs' → hs = hs')
    (names : OutputNames) (d : Draft) : p.Keeps (TensorEmit.writeProgram names d) := by
  refine Parallel.state.bind fun e e' paired => ?_
  rw [same _ _ paired.sets]
  have written := (lawful.info ("Generate header file: " ++ names.header)).bind fun _ _ _ =>
    (lawful.writeText names.header (d.header names)).bind fun _ _ _ =>
      (lawful.info ("Generate source file: " ++ names.source)).bind fun _ _ _ =>
        lawful.writeText names.source (d.source names.graph (e'.sets.of (.builtIn .context)))
  exact Jobs.onSite written

/-- Runs with the same headers and inlined constants write the same program. -/
theorem Lawful.writeAll (lawful : p.Lawful) (sets : p.sets = Eq) (weights : p.weights = Eq)
    (inlined : Bool) (names : OutputNames) (d : Draft) :
    p.Keeps (TensorEmit.writeAll inlined names d) := by
  have weighed : p.Keeps (TensorEmit.writeWeights inlined names) := by
    refine lawful.writeWeights weights (fun _ _ _ same => same) fun _ hs hs' same => ?_
    rw [sets] at same ⊢
    rw [same]
  refine weighed.bind fun _ _ _ => ?_
  exact lawful.writeProgram (fun _ _ same => sets ▸ same) names d

end Pairing

end TensorEmit
