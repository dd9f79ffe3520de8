import TensorEmit.Proofs.EntryPoint
import TensorEmit.Proofs.Files

/-!
# Whole runs

A run that succeeds goes through its steps one after the other. `generate_ok_iff` and
`generateFromModel_ok_iff` name the states between them: after the directory for data is there,
after the passes, after the emission of the graph, and at the end. `writeProgram_ok_iff` says what
is on the disk then.

Reading and transforming a graph changes neither the disk nor the sets of headers, and what comes of
it depends on the nodes of the graph file alone (`transformedGraph_spec`).
-/

namespace TensorEmit

open Code

/-! ## Reading and transforming -/

/-- The nodes of a graph file. -/
def Content.nodes : Content → Except Fault (List Node)
  | .model nodes | .savedModel nodes => .ok nodes
  | _ => .error .unfit

/-- A workspace with one of its graphs, if there is one. -/
def Workspace.reached (result : Workspace × Except Fault GraphId) :
    Except Fault (Workspace × GraphId) := do
  return (result.1, ← result.2)

/-- The graph that comes of some nodes, with the names of its passes. -/
def passedGraph [Importer] (quantizer : Quantizer) (r : Request) (nodes : List Node) :
    Except Fault (Graph × List String) := do
  let (w, id) ← Workspace.reached (Workspace.empty.ofNodes nodes r.outputs)
  let methods ← r.methodNames
  let pipeline ← Pipeline.ofMethods r.methods r.options
  let (w, id) ← Workspace.reached (w.run quantizer id pipeline)
  return (w.graph id, methods)

/-- Two states have the same files, headers and inlined constants. -/
structure Emission.SameFiles (e e' : Emission) : Prop where
  disk : e'.site.disk = e.site.disk
  sets : e'.sets = e.sets
  weights : e'.weights = e.weights

/-- A step leaves the files, headers and inlined constants alone, and its result does not depend on
them. -/
def Computes {α : Type} (x : Emit α) (r : Except Fault α) : Prop :=
  ∀ e, e.SameFiles (outcome x e).1 ∧ (outcome x e).2 = r

namespace Computes

variable {α β : Type}

theorem pure (a : α) : Computes (Pure.pure a) (.ok a) := fun _ => ⟨⟨rfl, rfl, rfl⟩, rfl⟩

theorem lift (r : Except Fault α) : Computes (Emit.lift r) r := by
  intro e
  rw [outcome_lift]
  exact ⟨⟨rfl, rfl, rfl⟩, rfl⟩

theorem bind {x : Emit α} {f : α → Emit β} {r : Except Fault α} {g : α → Except Fault β}
    (first : Computes x r) (rest : ∀ a, Computes (f a) (g a)) : Computes (x >>= f) (r >>= g) := by
  intro e
  obtain ⟨same, rfl⟩ := first e
  rw [outcome_bind]
  revert same
  rcases outcome x e with ⟨e₁, r⟩
  intro same
  cases r with
  | error fault => exact ⟨same, rfl⟩
  | ok a =>
    obtain ⟨same', made'⟩ := rest a e₁
    refine ⟨⟨same'.disk.trans same.disk, same'.sets.trans same.sets,
      same'.weights.trans same.weights⟩, made'⟩

theorem log (level : LogLevel) (text : String) :
    Computes (Emit.onSite (modify fun s => s.logged level text)) (.ok ()) :=
  fun _ => ⟨⟨rfl, rfl, rfl⟩, rfl⟩

theorem optional {asked : Bool} {x : Emit PUnit} {f : PUnit → Emit α} {r : Except Fault α}
    (first : Computes x (.ok ())) (rest : Computes (f ()) r) :
    Computes (if asked then x >>= f else f ()) r := by
  cases asked with
  | false => exact rest
  | true => exact first.bind (g := fun _ => r) fun _ => rest

theorem onWorkspace (w : Workspace) (step : Workspace → Workspace × Except Fault GraphId) :
    Computes (TensorEmit.onWorkspace w step) (Workspace.reached (step w)) := by
  have noted : Computes (modify fun e => { e with
      handovers := e.handovers ++ (step w).1.handovers.drop w.handovers.length } : Emit PUnit)
      (.ok ()) := fun _ => ⟨⟨rfl, rfl, rfl⟩, rfl⟩
  exact noted.bind (g := fun _ => Workspace.reached (step w)) fun _ =>
    (lift (step w).2).bind fun id => pure ((step w).1, id)

end Computes

theorem outcome_loadModel (path : String) (s : Site) :
    outcome (loadModel path) s = (s, s.disk.read path >>= Content.nodes) := by
  unfold loadModel
  rw [outcome_bind]
  have read : outcome (Job.read path) s = (s, s.disk.read path) := by
    unfold Job.read
    rw [outcome_bind]
    show outcome (Job.lift (s.disk.read path)) s = _
    cases s.disk.read path with
    | ok c => rfl
    | error f => rfl
  rw [read]
  cases s.disk.read path with
  | error f => rfl
  | ok c =>
    cases c with
    | model nodes => rfl
    | savedModel nodes => rfl
    | text s => rfl
    | bytes bs => rfl
    | snapshot => rfl

/-- Reading and transforming leaves the files alone, and its result depends on the nodes only. -/
theorem transformedGraph_spec [Importer] (quantizer : Quantizer) (r : Request) (model : String)
    (e : Emission) :
    e.SameFiles (outcome (transformedGraph quantizer r model) e).1 ∧
      (outcome (transformedGraph quantizer r model) e).2 =
        (e.site.disk.read model >>= Content.nodes) >>= passedGraph quantizer r := by
  have rest : ∀ nodes, Computes (do
      let (w, id) ← onWorkspace Workspace.empty fun w => w.ofNodes nodes r.outputs
      Emit.onSite (Job.info ("Transforming graph: " ++ model))
      let methods ← Emit.lift r.methodNames
      Emit.onSite (Job.info ("Transform pipeline: " ++ " -> ".intercalate methods))
      let pipeline ← Emit.lift (Pipeline.ofMethods r.methods r.options)
      let (w, id) ← onWorkspace w fun w => w.run quantizer id pipeline
      Emit.onSite (Job.info "Graph transormation done")
      return (w.graph id, methods)) (passedGraph quantizer r nodes) := by
    intro nodes
    refine (Computes.onWorkspace _ _).bind fun read => ?_
    refine (Computes.log _ _).bind (g := fun _ => _) fun _ => ?_
    refine (Computes.lift _).bind fun methods => ?_
    refine (Computes.log _ _).bind (g := fun _ => _) fun _ => ?_
    refine (Computes.lift _).bind fun pipeline => ?_
    refine (Computes.onWorkspace _ _).bind fun ran => ?_
    exact (Computes.log _ _).bind (g := fun _ => _) fun _ => .pure _
  unfold transformedGraph
  rw [outcome_bind, outcome_onSite, outcome_loadModel]
  cases e.site.disk.read model >>= Content.nodes with
  | error f => exact ⟨⟨rfl, rfl, rfl⟩, rfl⟩
  | ok nodes => exact (Computes.optional (Computes.log _ _) (rest nodes)) _

theorem passedGraph_of_transformedGraph [Importer] {quantizer : Quantizer} {r : Request}
    {model : String} {e e' : Emission} {made : Graph × List String}
    (run : (transformedGraph quantizer r model).runOn e = (e', .ok made)) :
    ∃ nodes, (e.site.disk.read model >>= Content.nodes) = .ok nodes ∧
      passedGraph quantizer r nodes = .ok made := by
  have result := (transformedGraph_spec quantizer r model e).2
  exact bind_eq_ok_iff.mp (result.symm.trans (congrArg Prod.snd run))

/-! ## The steps of a run -/

/-- The state in which a run starts to emit. -/
def Emission.begun (names : OutputNames) (e : Emission) : Emission :=
  { e with
    weights := []
    sets := e.sets.addAll (.builtIn .context)
      [includedName names.header, includedName names.weightHeader] }

/-- The last steps of a run: the files of a program. -/
def writeAll (inlined : Bool) (names : OutputNames) (d : Draft) : Emit Unit := do
  writeWeights inlined names
  writeProgram names d

/-- The step that saves the graph if that is asked for. -/
def saveIfAsked (asked : Bool) (graph : String) : Emit Unit :=
  if asked then Emit.onSite (saveSnapshot graph) else pure ()

/-- The text of a source file. -/
def sourceText (hs : Headers) (body : List Statement) : String :=
  banner ++ composed (Headers.addAll [] hs) [textOf body]

theorem modelPath_ok {r : Request} {model : String} (run : r.modelPath = .ok model) :
    r.model = .text model := by
  unfold Request.modelPath at run
  split at run
  · rename_i s given
    split at run
    · cases run
      exact given
    · cases run
  · cases run
  · cases run

theorem asText_eq_ok_iff {v : Value} {s : String} : v.asText = .ok s ↔ v = .text s := by
  constructor
  · intro run
    unfold Value.asText Value.text? at run
    cases v with
    | text s' =>
      cases run
      rfl
    | _ => cases run
  · rintro rfl
    rfl

variable {e e' : Emission}

/-- Writing a program puts its header and its source on the disk. -/
theorem writeProgram_ok_iff {names : OutputNames} {d : Draft} {u : Unit} :
    (writeProgram names d).runOn e = (e', .ok u) ↔
      ∃ h p body q, d.header names = .ok h ∧ e.site.disk.Takes names.header p ∧
        d.statements names.graph = .ok body ∧ e.site.disk.Takes names.source q ∧
        { e with site := ⟨(e.site.disk.put p (.text (banner ++ h))).put q
              (.text (sourceText (e.sets.of (.builtIn .context)) body)),
            e.site.log ++ [⟨.info, "Generate header file: " ++ names.header⟩] ++
              [⟨.info, "Generate source file: " ++ names.source⟩]⟩ } = e' := by
  unfold writeProgram
  simp only [Emit.runOn_bind_ok_iff, Emit.runOn_get_ok_iff, Emit.runOn_onSite_ok_iff,
    Job.runOn_bind_ok_iff, Job.runOn_info_ok_iff, Job.runOn_writeText_ok_iff]
  constructor
  · rintro ⟨_, _, ⟨rfl, rfl⟩, _, ⟨_, _, rfl, _, _, ⟨h, p, made, takes, rfl⟩, _, _, rfl, _, q,
      written, takes', rfl⟩, rfl⟩
    simp only [Draft.source, bind_eq_ok_iff, pure_eq_ok_iff] at written
    obtain ⟨body, stated, rfl⟩ := written
    exact ⟨h, p, body, q, made, takes, stated, takes'.congr fun _ => rfl, rfl⟩
  · rintro ⟨h, p, body, q, made, takes, stated, takes', rfl⟩
    refine ⟨_, _, ⟨rfl, rfl⟩, _, ⟨(), _, rfl, (), _, ⟨h, p, made, takes, rfl⟩, (), _, rfl, _, q, ?_,
      takes'.put p _, rfl⟩, rfl⟩
    unfold Draft.source
    rw [stated]
    rfl

/-- Without inlined constants the header of the weights is taken out of those of the entry point. -/
theorem writeAll_ok_iff_of_files {names : OutputNames} {d : Draft} {u : Unit} :
    (writeAll false names d).runOn e = (e', .ok u) ↔
      (writeProgram names d).runOn
        { e with sets := e.sets.drop (.builtIn .context) (includedName names.weightHeader) } =
          (e', .ok u) := by
  unfold writeAll writeWeights
  simp only [Emit.runOn_bind_ok_iff, Emit.runOn_get_ok_iff, if_neg Bool.false_ne_true,
    Emit.runOn_set_ok_iff]
  constructor
  · rintro ⟨_, _, ⟨_, _, ⟨rfl, rfl⟩, rfl⟩, run⟩
    exact run
  · intro run
    exact ⟨(), _, ⟨_, _, ⟨rfl, rfl⟩, rfl⟩, run⟩

/-- With inlined constants the header of the weights is written before the program. -/
theorem writeAll_ok_iff_of_weights {names : OutputNames} {d : Draft} {u : Unit} :
    (writeAll true names d).runOn e = (e', .ok u) ↔
      ∃ t p, weightsText e.weights = .ok t ∧ e.site.disk.Takes names.weightHeader p ∧
        (writeProgram names d).runOn { e with
          site := ⟨e.site.disk.put p (.text (banner ++ t)),
            e.site.log ++ [⟨.info, "Generate weight file: " ++ names.weightHeader⟩]⟩ } =
          (e', .ok u) := by
  unfold writeAll writeWeights
  simp only [Emit.runOn_bind_ok_iff, Emit.runOn_get_ok_iff, if_true, Emit.runOn_onSite_ok_iff,
    Job.runOn_bind_ok_iff, Job.runOn_info_ok_iff, Job.runOn_writeText_ok_iff]
  constructor
  · rintro ⟨_, _, ⟨_, _, ⟨rfl, rfl⟩, _, ⟨_, _, rfl, t, p, made, takes, rfl⟩, rfl⟩, run⟩
    exact ⟨t, p, made, takes, run⟩
  · rintro ⟨t, p, made, takes, run⟩
    exact ⟨(), _, ⟨_, _, ⟨rfl, rfl⟩, _, ⟨(), _, rfl, t, p, made, takes, rfl⟩, rfl⟩, run⟩

/-- The states of a run from a graph file that succeeds. -/
theorem generateFromModel_ok_iff [Importer] {quantizer : Quantizer} {r : Request}
    {dataDir embedDir model path : String} {u : Unit} :
    (generateFromModel quantizer r dataDir embedDir model path).runOn e = (e', .ok u) ↔
      ∃ g methods e₁ e₂ d e₃,
        (transformedGraph quantizer r model).runOn (e.begun (.of model path)) =
          (e₁, .ok (g, methods)) ∧
        (saveIfAsked r.saveGraph (OutputNames.of model path).graph).runOn e₁ = (e₂, .ok ()) ∧
        (addOperations ⟨some (.text dataDir), some (.text embedDir), true⟩ r.comments g 0 .empty
          g.order).runOn e₂ = (e₃, .ok d) ∧
        (writeAll (methods.contains Pass.inline.method) (.of model path) d).runOn e₃ =
          (e', .ok u) := by
  have optional : ∀ (asked : Bool) (x : Emit PUnit) (rest : PUnit → Emit Unit) (e : Emission),
      (if asked then x >>= rest else rest ()).runOn e = (e', .ok u) ↔
        ∃ e₁, (if asked then x else pure ()).runOn e = (e₁, .ok ()) ∧
          (rest ()).runOn e₁ = (e', .ok u) := by
    intro asked x rest e
    cases asked with
    | true =>
      rw [if_pos rfl, if_pos rfl, Emit.runOn_bind_ok_iff]
      exact ⟨fun ⟨_, e₁, first, later⟩ => ⟨e₁, first, later⟩,
        fun ⟨e₁, first, later⟩ => ⟨(), e₁, first, later⟩⟩
    | false => simp
  unfold generateFromModel
  simp only [Emit.runOn_bind_ok_iff, Emit.runOn_modify_ok_iff, optional]
  constructor
  · rintro ⟨_, _, rfl, ⟨g, methods⟩, e₁, transformed, e₂, saved, d, e₃, added, _, e₄, weighed,
      written⟩
    refine ⟨g, methods, e₁, e₂, d, e₃, transformed, saved, added, ?_⟩
    exact Emit.runOn_bind_ok_iff.mpr ⟨_, e₄, weighed, written⟩
  · rintro ⟨g, methods, e₁, e₂, d, e₃, transformed, saved, added, wrote⟩
    obtain ⟨_, e₄, weighed, written⟩ := Emit.runOn_bind_ok_iff.mp wrote
    exact ⟨(), _, rfl, ⟨g, methods⟩, e₁, transformed, e₂, saved, d, e₃, added, _, e₄, weighed,
      written⟩

/-- A run that succeeds makes the directory for data and goes on from the graph file. -/
theorem generate_ok_iff [Importer] {quantizer : Quantizer} {r : Request} {source : Value}
    {u : Unit} : (generate quantizer r source).runOn e = (e', .ok u) ↔
      ∃ dataDir site embedDir model path,
        r.checkOptions = .ok () ∧ r.dataDir = .text dataDir ∧
        (Job.ensureDirs dataDir).runOn e.site = (site, .ok ()) ∧ r.embedPath = .ok embedDir ∧
        r.modelPath = .ok model ∧ source = .text path ∧
        (generateFromModel quantizer r dataDir embedDir model path).runOn { e with site } =
          (e', .ok u) := by
  unfold generate
  simp only [Emit.runOn_bind_ok_iff, Emit.runOn_onSite_ok_iff, Emit.runOn_lift_ok_iff,
    asText_eq_ok_iff]
  constructor
  · rintro ⟨_, _, ⟨rfl, checked⟩, dataDir, _, ⟨rfl, isDir⟩, _, _, ⟨site, made, rfl⟩, embedDir, _,
      ⟨rfl, embedded⟩, model, _, ⟨rfl, found⟩, path, _, ⟨rfl, isPath⟩, run⟩
    exact ⟨dataDir, site, embedDir, model, path, checked, isDir, made, embedded, found, isPath, run⟩
  · rintro ⟨dataDir, site, embedDir, model, path, checked, isDir, made, embedded, found, isPath,
      run⟩
    exact ⟨(), e, ⟨rfl, checked⟩, dataDir, e, ⟨rfl, isDir⟩, (), _, ⟨site, made, rfl⟩, embedDir, _,
      ⟨rfl, embedded⟩, model, _, ⟨rfl, found⟩, path, _, ⟨rfl, isPath⟩, run⟩

/-- The graph of a graph file reaches emission if it can be read and the passes can be made. -/
theorem transformedGraph_ofModel [Importer] {quantizer : Quantizer} {methods outputs : List String}
    {nodes : List Node} {g : Graph} (read : (e.site.disk.read "m.pb" >>= Content.nodes) = .ok nodes)
    (passed : passedGraph quantizer (.ofModel methods outputs) nodes = .ok (g, methods)) :
    ∃ e₁, e.SameFiles e₁ ∧
      outcome (transformedGraph quantizer (.ofModel methods outputs) "m.pb") e =
        (e₁, .ok (g, methods)) := by
  obtain ⟨same, reached⟩ := transformedGraph_spec quantizer (.ofModel methods outputs) "m.pb" e
  rw [read, ok_bind, passed] at reached
  exact ⟨_, same, Prod.ext rfl reached⟩

/-- A run succeeds if its graph can be emitted and its files can be written. -/
theorem generate_ofModel_of_writeAll [Importer] {quantizer : Quantizer}
    {methods outputs : List String} {path : String} {nodes : List Node} {g : Graph} {site : Site}
    {names : OutputNames} (named : OutputNames.of "m.pb" path = names)
    (prepared : (Job.ensureDirs "data").runOn e.site = (site, .ok ()))
    (read : (site.disk.read "m.pb" >>= Content.nodes) = .ok nodes)
    (passed : passedGraph quantizer (.ofModel methods outputs) nodes = .ok (g, methods)) :
    ∃ e₁, (Emission.begun names { e with site }).SameFiles e₁ ∧
      ∀ e₃ d e', (addOperations .inData false g 0 .empty g.order).runOn e₁ = (e₃, .ok d) →
        (writeAll (methods.contains Pass.inline.method) names d).runOn e₃ = (e', .ok ()) →
        (generate quantizer (.ofModel methods outputs) (.text path)).runOn e = (e', .ok ()) := by
  subst named
  obtain ⟨e₁, same, reached⟩ := transformedGraph_ofModel
    (e := Emission.begun (.of "m.pb" path) { e with site }) read passed
  refine ⟨e₁, same, fun e₃ d e' added written => ?_⟩
  have ran := generateFromModel_ok_iff.mpr
    ⟨g, methods, e₁, _, d, e₃, reached, rfl, added, written⟩
  exact generate_ok_iff.mpr ⟨"data", site, "data", "m.pb", path, rfl, rfl, prepared, rfl, rfl, rfl,
    ran⟩

/-- A run without inlined constants succeeds if its graph can be emitted and its files can be
written. -/
theorem generate_ofModel [Importer] {quantizer : Quantizer} {methods outputs : List String}
    {path : String} {nodes : List Node} {g : Graph} {site : Site} {names : OutputNames}
    (named : OutputNames.of "m.pb" path = names)
    (prepared : (Job.ensureDirs "data").runOn e.site = (site, .ok ()))
    (read : (site.disk.read "m.pb" >>= Content.nodes) = .ok nodes)
    (passed : passedGraph quantizer (.ofModel methods outputs) nodes = .ok (g, methods))
    (files : methods.contains Pass.inline.method = false) :
    ∃ e₁, (Emission.begun names { e with site }).SameFiles e₁ ∧
      ∀ e₃ d body p q,
        (addOperations .inData false g 0 .empty g.order).runOn e₁ = (e₃, .ok d) →
        d.statements names.graph = .ok body →
        e₃.site.disk.Takes names.header p → e₃.site.disk.Takes names.source q →
        ∃ e' h, (generate quantizer (.ofModel methods outputs) (.text path)).runOn e =
          (e', .ok ()) ∧
          e'.sets = e₃.sets.drop (.builtIn .context) (includedName names.weightHeader) ∧
          e'.site.disk = (e₃.site.disk.put p (.text (banner ++ h))).put q
            (.text (sourceText (e'.sets.of (.builtIn .context)) body)) := by
  obtain ⟨e₁, same, emits⟩ := generate_ofModel_of_writeAll named prepared read passed
  refine ⟨e₁, same, fun e₃ d body p q added stated header source => ?_⟩
  obtain ⟨h, made⟩ := d.header_ok names
  have written := (writeAll_ok_iff_of_files (u := ())).mpr (writeProgram_ok_iff.mpr
    ⟨h, p, body, q, made, header, stated, source, rfl⟩)
  rw [← files] at written
  exact ⟨_, h, emits e₃ d _ added written, rfl, rfl⟩

/-! ## Runs from a lone graph file -/

theorem ensureDirs_withModel (nodes : List Node) :
    (Job.ensureDirs "data").runOn (Emission.withModel nodes).site =
      (⟨⟨[["data"]], [(["m.pb"], .model nodes)]⟩, []⟩, .ok ()) := rfl

/-- The names of the files of a run that is asked for `m.cpp`. -/
theorem outputNames_withModel :
    OutputNames.of "m.pb" "m.cpp" = ⟨"m", "m", "m.cpp", "m.hpp", "m_weight.hpp"⟩ := by
  decide

section LoneGraphFile

variable [Importer] {quantizer : Quantizer} {methods outputs : List String} {nodes : List Node}
  {g : Graph} {d : Draft} {body : List Statement}

/-- A run without inlined constants succeeds if its graph can be emitted without touching the
disk. -/
theorem generate_withModel
    (passed : passedGraph quantizer (.ofModel methods outputs) nodes = .ok (g, methods))
    (files : methods.contains Pass.inline.method = false)
    (added : ∀ e, ∃ e₃, (addOperations .inData false g 0 .empty g.order).runOn e = (e₃, .ok d) ∧
      e₃.site.disk = e.site.disk)
    (stated : d.statements "m" = .ok body) :
    ∃ e' hs, (generate quantizer (.ofModel methods outputs) (.text "m.cpp")).runOn
        (.withModel nodes) = (e', .ok ()) ∧
      e'.site.disk.files.get? ["m.cpp"] = some (.text (sourceText hs body)) := by
  obtain ⟨e₁, same, emits⟩ := generate_ofModel outputNames_withModel (ensureDirs_withModel nodes)
    rfl passed files
  obtain ⟨e₃, run, disk⟩ := added e₁
  rw [same.disk] at disk
  obtain ⟨e', h, ran, _, written⟩ := emits e₃ d body ["m.hpp"] ["m.cpp"] run stated
    (by rw [disk]; exact ⟨rfl, rfl, rfl⟩) (by rw [disk]; exact ⟨rfl, rfl, rfl⟩)
  exact ⟨e', _, ran, by rw [written, Disk.get?_put_self]⟩

/-- With inlined constants the run writes their arrays into a header of their own as well. -/
theorem generate_withModel_of_weights {weights : List Fragment} {t : String}
    (passed : passedGraph quantizer (.ofModel methods outputs) nodes = .ok (g, methods))
    (inlines : methods.contains Pass.inline.method = true)
    (added : ∀ e, ∃ e₃, (addOperations .inData false g 0 .empty g.order).runOn e = (e₃, .ok d) ∧
      e₃.site.disk = e.site.disk ∧ e₃.weights = e.weights ++ weights)
    (stated : d.statements "m" = .ok body) (weighed : weightsText weights = .ok t) :
    ∃ e' hs, (generate quantizer (.ofModel methods outputs) (.text "m.cpp")).runOn
        (.withModel nodes) = (e', .ok ()) ∧
      e'.site.disk.files.get? ["m.cpp"] = some (.text (sourceText hs body)) ∧
      e'.site.disk.files.get? ["m_weight.hpp"] = some (.text (banner ++ t)) := by
  obtain ⟨e₁, same, emits⟩ := generate_ofModel_of_writeAll outputNames_withModel
    (ensureDirs_withModel nodes) rfl passed
  obtain ⟨e₃, run, disk, kept⟩ := added e₁
  rw [same.disk] at disk
  have none : e₁.weights = [] := same.weights
  rw [none, List.nil_append] at kept
  obtain ⟨h, made⟩ := d.header_ok ⟨"m", "m", "m.cpp", "m.hpp", "m_weight.hpp"⟩
  have written := (writeAll_ok_iff_of_weights (u := ())).mpr ⟨t, ["m_weight.hpp"],
    (congrArg weightsText kept).trans weighed, by rw [disk]; exact ⟨rfl, rfl, rfl⟩,
    writeProgram_ok_iff.mpr ⟨h, ["m.hpp"], body, ["m.cpp"], made,
      by rw [disk]; exact ⟨rfl, rfl, rfl⟩, stated, by rw [disk]; exact ⟨rfl, rfl, rfl⟩, rfl⟩⟩
  rw [← inlines] at written
  refine ⟨_, _, emits e₃ d _ run written, Disk.get?_put_self _ _ _, ?_⟩
  rw [Disk.get?_put_of_ne _ _ (by decide), Disk.get?_put_of_ne _ _ (by decide),
    Disk.get?_put_self]

end LoneGraphFile

end TensorEmit
