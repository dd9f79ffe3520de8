import TensorEmit.Proofs.ContentEmission
import TensorEmit.Proofs.LiveNodes

/-!
# Programs and the live part of a graph file

If dropout is removed first, a program depends on those nodes of the graph file alone that the
outputs need. Two runs on disks that differ in nothing but the graph file, where both files hold the
same needed nodes, both fail or write the same files.

The import has to take the other nodes too: one that names an input that is not there makes a run
fail, even if nothing needs it.
-/

namespace TensorEmit

open Code

/-! ## Passes -/

theorem Workspace.LinkedBy.reached {R : Graph → Graph → Prop}
    {x y : Workspace × Except Fault GraphId} (linked : LinkedBy R x y) :
    Agrees (fun a b => R (a.1.graph a.2) (b.1.graph b.2)) (Workspace.reached x)
      (Workspace.reached y) := by
  unfold Workspace.reached
  exact linked.bind fun _ _ related => .ok related

/-- A pipeline that removes dropout first. -/
theorem Pipeline.ofMethods_dropout {methods : Value} {given : Entries String Value}
    {rest : List Value} {pipeline : Pipeline}
    (first : methods.members? = some (.text Pass.dropout.method :: rest))
    (run : Pipeline.ofMethods methods given = .ok pipeline) :
    ∃ prune steps, pipeline = ⟨.dropout, prune⟩ :: steps := by
  unfold Pipeline.ofMethods at run
  rw [first] at run
  dsimp only at run
  rw [List.mapM_cons, bind_eq_ok_iff] at run
  obtain ⟨step, configured, run⟩ := run
  rw [bind_eq_ok_iff] at run
  obtain ⟨steps, _, made⟩ := run
  cases made
  have isDropout : (Pass.dropout.configure given) = .ok step := configured
  unfold Pass.configure at isDropout
  dsimp only at isDropout
  split at isDropout
  · cases isDropout
  · cases isDropout
    exact ⟨_, steps, rfl⟩

section Passes

variable {nodes nodes' : List Node} {outputs : List String}

/-- Two files with the same needed nodes pass to graphs with the same operations in the same order,
if dropout is removed first. -/
theorem agrees_passedGraph [Importer] (resolves : Importer.Resolves) {r : Request}
    {rest : List Value} (first : r.methods.members? = some (.text Pass.dropout.method :: rest))
    (asked : r.outputs = .list (outputs.map Value.text)) (frozen : Node.Frozen outputs nodes)
    (frozen' : Node.Frozen outputs nodes') (same : Node.SameNeeded outputs nodes nodes')
    (taken : Importer.accept nodes = .ok () ↔ Importer.accept nodes' = .ok ())
    (quantizer : Quantizer) :
    Agrees (fun x y => x.1.SameLive y.1 ∧ x.2 = y.2) (passedGraph quantizer r nodes)
      (passedGraph quantizer r nodes') := by
  unfold passedGraph
  rw [asked]
  have read := Graph.agrees_ofNodes_needed resolves Workspace.empty.next Workspace.empty.next
    Workspace.empty.nextGraph Workspace.empty.nextGraph frozen frozen' same taken
  have linked := Workspace.linkedBy_adding read .empty .empty (Node.numbersOf nodes)
    (Node.numbersOf nodes')
  refine linked.reached.bind fun ⟨w, id⟩ ⟨w', id'⟩ live => ?_
  refine (Agrees.self r.methodNames).bind fun methods _ equal => ?_
  subst equal
  cases configured : Pipeline.ofMethods r.methods r.options with
  | error f => exact .error f f
  | ok pipeline =>
    obtain ⟨prune, steps, rfl⟩ := Pipeline.ofMethods_dropout first configured
    have ran := Workspace.linked_run_dropout quantizer live prune steps
    refine ran.reached.bind fun a b renumbered => ?_
    obtain ⟨k, k', renumbered⟩ := renumbered
    exact .ok ⟨renumbered.sameLive, rfl⟩

end Passes

/-! ## Disks that differ in a graph file -/

/-- Two files have the same content, or they are the two graph files. -/
def Content.Twin (nodes nodes' : List Node) (c c' : Content) : Prop :=
  c = c' ∨ c = .model nodes ∧ c' = .model nodes'

/-- Two disks have the same directories, and files with the same content at the same places. Only
where one of them has the first graph file may the other have the second one. -/
structure Disk.Twin (nodes nodes' : List Node) (d d' : Disk) : Prop where
  dirs : d'.dirs = d.dirs
  files : ∀ p, Option.Rel (Content.Twin nodes nodes') (d.files.get? p) (d'.files.get? p)

namespace Disk

/-- Two disks after a step, with the same outcome. -/
def TwinAfter (nodes nodes' : List Node) (x y : Disk × Except Fault Unit) : Prop :=
  x.1.Twin nodes nodes' y.1 ∧ y.2 = x.2

namespace Twin

variable {nodes nodes' : List Node} {d d' : Disk}

theorem isDir (twin : d.Twin nodes nodes' d') (p : Place) : d'.isDir p = d.isDir p := by
  unfold Disk.isDir
  rw [twin.dirs]

theorem isFile (twin : d.Twin nodes nodes' d') (p : Place) : d'.isFile p = d.isFile p := by
  unfold Disk.isFile Entries.has
  rcases cases_of_rel (twin.files p) with ⟨none, none'⟩ | ⟨c, c', found, found', _⟩
  · rw [none, none']
  · rw [found, found']
    rfl

theorem walk (twin : d.Twin nodes nodes' d') (path : String) (p : Place) (names : List String) :
    d'.walk path p names = d.walk path p names := by
  induction names generalizing p with
  | nil => rfl
  | cons name rest ih =>
    rw [Disk.walk, Disk.walk, Disk.checkDir, Disk.checkDir, twin.isDir, twin.isFile, ih]

theorem placeOf (twin : d.Twin nodes nodes' d') (path : String) :
    d'.placeOf path = d.placeOf path := by
  unfold Disk.placeOf
  rw [twin.walk]

theorem leads (twin : d.Twin nodes nodes' d') (path : String) : d'.leads path = d.leads path := by
  unfold Disk.leads
  rw [twin.placeOf]
  cases d.placeOf path with
  | error f => rfl
  | ok p =>
    dsimp only
    rw [twin.isDir, twin.isFile]

theorem put (twin : d.Twin nodes nodes' d') (p : Place) (c : Content) :
    (d.put p c).Twin nodes nodes' (d'.put p c) := by
  refine ⟨twin.dirs, fun q => ?_⟩
  by_cases here : q = p
  · subst here
    rw [get?_put_self, get?_put_self]
    exact .some (.inl rfl)
  · rw [get?_put_of_ne d c here, get?_put_of_ne d' c here]
    exact twin.files q

/-- A text is on both disks. -/
theorem text (twin : d.Twin nodes nodes' d') {p : Place} {s : String}
    (here : d.files.get? p = some (.text s)) : d'.files.get? p = some (.text s) := by
  rcases cases_of_rel (twin.files p) with ⟨none, _⟩ | ⟨c, c', found, found', both⟩
  · rw [here] at none
    cases none
  · rw [here] at found
    cases found
    rcases both with rfl | ⟨isModel, _⟩
    · exact found'
    · cases isModel

theorem write (twin : d.Twin nodes nodes' d') (path : String) (c : Content) :
    TwinAfter nodes nodes' (d.after (d.write path c)) (d'.after (d'.write path c)) := by
  unfold Disk.write
  rw [twin.placeOf]
  cases d.placeOf path with
  | error f => exact ⟨twin, rfl⟩
  | ok p =>
    rw [ok_bind, ok_bind, twin.isDir]
    split
    · exact ⟨twin, rfl⟩
    · exact ⟨twin.put p c, rfl⟩

theorem read (twin : d.Twin nodes nodes' d') (path : String) :
    Agrees (Content.Twin nodes nodes') (d.read path) (d'.read path) := by
  unfold Disk.read
  rw [twin.placeOf]
  refine (Agrees.self (d.placeOf path)).bind fun p _ equal => ?_
  subst equal
  rw [twin.isDir]
  dsimp only
  split
  · exact .error _ _
  rcases cases_of_rel (twin.files p) with ⟨none, none'⟩ | ⟨c, c', found, found', both⟩
  · rw [none, none']
    exact .error _ _
  · rw [found, found']
    dsimp only
    split
    · exact .error _ _
    · exact .ok both

theorem makeDir (twin : d.Twin nodes nodes' d') (path : String) :
    TwinAfter nodes nodes' (d.after (d.makeDir path)) (d'.after (d'.makeDir path)) := by
  unfold Disk.makeDir
  rw [twin.placeOf]
  cases d.placeOf path with
  | error f => exact ⟨twin, rfl⟩
  | ok p =>
    rw [ok_bind, ok_bind, twin.isDir, twin.isFile]
    split
    · exact ⟨twin, rfl⟩
    · exact ⟨⟨congrArg (· ++ [p]) twin.dirs, twin.files⟩, rfl⟩

theorem makeChain (twin : d.Twin nodes nodes' d') (chain : List (String × String)) :
    TwinAfter nodes nodes' (d.makeChain chain) (d'.makeChain chain) := by
  induction chain with
  | nil => exact ⟨twin, rfl⟩
  | cons inner outer ih =>
    cases outer with
    | nil => exact twin.makeDir inner.1
    | cons above outer =>
      rw [Disk.makeChain, Disk.makeChain, twin.leads]
      split
      · exact twin.makeDir inner.1
      revert ih
      generalize d.makeChain (above :: outer) = x, d'.makeChain (above :: outer) = y
      rcases x with ⟨d₁, r⟩
      rcases y with ⟨d₁', r'⟩
      rintro ⟨twin₁, same⟩
      dsimp only at twin₁ same
      subst same
      -- What is there already is no fault, and the directory itself is made then.
      have goesOn : TwinAfter nodes nodes'
          (if inner.2 = "." then (d₁, .ok ()) else d₁.after (d₁.makeDir inner.1))
          (if inner.2 = "." then (d₁', .ok ()) else d₁'.after (d₁'.makeDir inner.1)) := by
        split
        · exact ⟨twin₁, rfl⟩
        · exact twin₁.makeDir inner.1
      cases r' with
      | ok _ => exact goesOn
      | error f =>
        cases f with
        | fileExists => exact goesOn
        | _ => exact ⟨twin₁, rfl⟩

theorem ensureDirs (twin : d.Twin nodes nodes' d') (path : String) :
    TwinAfter nodes nodes' (d.ensureDirs path) (d'.ensureDirs path) := by
  unfold Disk.ensureDirs
  rw [twin.leads]
  split
  · exact ⟨twin, rfl⟩
  · exact twin.makeChain _

end Twin

end Disk

/-! ## Runs from two graph files -/

namespace Pairing

/-- Two runs on disks that differ in a graph file. Their faults may differ. -/
def twin (nodes nodes' : List Node) : Pairing where
  site s s' := s.disk.Twin nodes nodes' s'.disk
  sets := Eq
  weights := Eq
  fault _ _ := True

variable {nodes nodes' : List Node}

theorem twin_onDisk {f : Disk → Disk × Except Fault Unit}
    (each : ∀ d d', d.Twin nodes nodes' d' → Disk.TwinAfter nodes nodes' (f d) (f d')) :
    (twin nodes nodes').Jobs Eq (Job.onDisk f) (Job.onDisk f) := by
  intro s s' paired
  rw [← Job.runOn_eq_outcome, ← Job.runOn_eq_outcome, Job.runOn_onDisk, Job.runOn_onDisk]
  obtain ⟨kept, same⟩ := each _ _ paired
  rw [same]
  cases (f s.disk).2 with
  | ok _ => exact .ok kept rfl
  | error fault => exact .error ⟨kept, trivial⟩

theorem twin_lawful : (twin nodes nodes').Lawful where
  toLawfulSets := .of_eq rfl rfl
  refl _ := trivial
  logged _ _ _ _ kept := kept
  write path c := twin_onDisk fun _ _ twin => twin.write path c

/-- Both runs read their graph file, or both read the same other file. -/
theorem twin_transforms [Importer] {quantizer : Quantizer} {r : Request}
    (passed : Agrees (fun x y => x.1.SameLive y.1 ∧ x.2 = y.2) (passedGraph quantizer r nodes)
      (passedGraph quantizer r nodes')) (model : String) :
    (twin nodes nodes').Transforms quantizer r model := by
  refine Steps.of_sameFiles ?_ (fun e => (transformedGraph_spec quantizer r model e).1)
    (fun e => (transformedGraph_spec quantizer r model e).1) fun e e' paired => ?_
  · intro e e' e₁ e₁' paired kept kept'
    refine ⟨?_, ?_, ?_⟩
    · show Disk.Twin nodes nodes' _ _
      rw [kept.disk, kept'.disk]
      exact paired.site
    · exact kept.sets.trans (paired.sets.trans kept'.sets.symm)
    · exact kept.weights.trans (paired.weights.trans kept'.weights.symm)
  · have loaded : Agrees (fun ns ns' => ns = ns' ∨ ns = nodes ∧ ns' = nodes')
        (e.site.disk.read model >>= Content.nodes) (e'.site.disk.read model >>= Content.nodes) := by
      refine (Disk.Twin.read paired.site model).bind fun c c' both => ?_
      rcases both with rfl | ⟨rfl, rfl⟩
      · exact (Agrees.self c.nodes).imp fun _ _ same => .inl same
      · exact .ok (.inr ⟨rfl, rfl⟩)
    have agree : Agrees (fun x y => x.1.SameLive y.1 ∧ x.2 = y.2)
        (outcome (transformedGraph quantizer r model) e).2
        (outcome (transformedGraph quantizer r model) e').2 := by
      rw [(transformedGraph_spec quantizer r model e).2,
        (transformedGraph_spec quantizer r model e').2]
      refine loaded.bind fun ns ns' both => ?_
      rcases both with rfl | ⟨rfl, rfl⟩
      · refine (Agrees.self (passedGraph quantizer r ns)).imp fun x y same => ?_
        subst same
        exact ⟨⟨fun _ _ => rfl, rfl, rfl, rfl⟩, rfl⟩
      · exact passed
    revert agree
    generalize (outcome (transformedGraph quantizer r model) e).2 = x,
      (outcome (transformedGraph quantizer r model) e').2 = y
    intro agree
    cases agree with
    | error f f' => exact .inl ⟨f, f', rfl, rfl, trivial⟩
    | ok related => exact .inr ⟨_, _, rfl, rfl, related.1.sameEmission, related.2⟩

end Pairing

/-- If dropout is removed first, two runs from graph files with the same needed nodes, both or
neither of which the import takes, both fail or both succeed, and all files that they write are the
same. -/
theorem generated_from_needed_nodes [Importer] (resolves : Importer.Resolves) {r : Request}
    {rest : List Value} {outputs : List String} {nodes nodes' : List Node} {e e' : Emission}
    (first : r.methods.members? = some (.text Pass.dropout.method :: rest))
    (asked : r.outputs = .list (outputs.map Value.text)) (frozen : Node.Frozen outputs nodes)
    (frozen' : Node.Frozen outputs nodes') (same : Node.SameNeeded outputs nodes nodes')
    (taken : Importer.accept nodes = .ok () ↔ Importer.accept nodes' = .ok ())
    (disks : e.site.disk.Twin nodes nodes' e'.site.disk) (sets : e.sets = e'.sets)
    (quantizer : Quantizer) (source : Value) :
    let run := (generate quantizer r source).runOn e
    let run' := (generate quantizer r source).runOn e'
    run.1.site.disk.Twin nodes nodes' run'.1.site.disk ∧
      ((∃ f f', run.2 = .error f ∧ run'.2 = .error f') ∨ run.2 = .ok () ∧ run'.2 = .ok ()) := by
  intro run run'
  have passed := agrees_passedGraph resolves first asked frozen frozen' same taken quantizer
  have lawful : (Pairing.twin nodes nodes').Lawful := Pairing.twin_lawful
  have both : Parallel (Pairing.twin nodes nodes').beforeWeights.Failures
      (Pairing.twin nodes nodes').beforeWeights.States (Pairing.twin nodes nodes').States Eq
      (generate quantizer r source) (generate quantizer r source) := by
    refine lawful.generate rfl (fun _ _ failed => failed) (fun path => ?_)
      (Pairing.twin_transforms passed) fun model path methods d _ _ _ => ?_
    · exact Pairing.twin_onDisk fun _ _ twin => twin.ensureDirs path
    · exact (lawful.writeAll rfl rfl _ (.of model path) d).within
        fun _ _ failed => failed.beforeWeights
  have ended := both e e' ⟨disks, sets, trivial⟩
  change Matched _ _ _ run run' at ended
  revert ended
  generalize run = x, run' = y
  intro ended
  cases ended with
  | ok states _ => exact ⟨states.site, .inr ⟨rfl, rfl⟩⟩
  | error failed => exact ⟨failed.1.site, .inl ⟨_, _, rfl, rfl⟩⟩

/-! ## Nodes that nothing needs -/

/-- A node with one output of one element, whose type stands under a key. -/
def smallNode (name type key : String) (inputs : List String) : Node :=
  ⟨name, type, inputs, .text "", [(key, .wireAttr (some "type") (.int 1))],
    [⟨.float32, some [.int 1]⟩]⟩

/-- The sum of an input and itself. -/
def doubledInput : List Node :=
  [smallNode "x" "Placeholder" "dtype" [], smallNode "y" "Add" "T" ["x", "x"]]

/-- These nodes in another order, and between them one of a type that cannot be emitted. -/
def mixedInput : List Node :=
  [smallNode "y" "Add" "T" ["x", "x"], smallNode "z" "Relu" "T" ["y"],
   smallNode "x" "Placeholder" "dtype" []]

/-- These nodes and one that reads from a node that is not there. -/
def brokenInput : List Node := doubledInput ++ [smallNode "z" "Relu" "T" ["gone"]]

attribute [local instance] Importer.strict

/-- A run for the sum, after dropout is removed. -/
def doubledRun (nodes : List Node) : Emission × Except Fault Unit :=
  (generate (fun h => .ok h.nodes) (.ofModel [Pass.dropout.method] ["y"]) (.text "m.cpp")).runOn
    (.withModel nodes)

theorem twin_withModel (nodes nodes' : List Node) :
    (Emission.withModel nodes).site.disk.Twin nodes nodes'
      (Emission.withModel nodes').site.disk := by
  refine ⟨rfl, fun p => ?_⟩
  show Option.Rel _ (if ["m.pb"] = p then some (Content.model nodes) else none)
    (if ["m.pb"] = p then some (Content.model nodes') else none)
  split
  · exact .some (.inr ⟨rfl, rfl⟩)
  · exact .none

/-- Of nodes among which these two are, only these two are needed. -/
theorem needed_doubledInput {nodes : List Node} {out : NodeOutput}
    (source : Node.source nodes "x" = .ok (smallNode "x" "Placeholder" "dtype" [], out, 0))
    (inside : smallNode "y" "Add" "T" ["x", "x"] ∈ nodes)
    (only : ∀ n ∈ nodes, n.name = "y" ∨ n.name = "x" → n ∈ doubledInput) (name : String) :
    Node.Needed nodes ["y"] name ↔ name = "y" ∨ name = "x" := by
  constructor
  · rintro ⟨start, output, path⟩
    cases List.mem_singleton.mp output
    induction path with
    | refl => exact .inl rfl
    | tail _ reads ih =>
      obtain ⟨n, member, rfl, s, read, m, out, i, found, rfl⟩ := reads
      rcases List.mem_cons.mp (only n member ih) with rfl | isSum
      · cases read
      · cases List.mem_singleton.mp isSum
        have isInput : s = "x" := by simpa using List.mem_pair.mp read
        rw [isInput, source] at found
        cases found
        exact .inr rfl
  · have start : Node.Needed nodes ["y"] "y" := ⟨"y", by simp, .refl⟩
    have read : "x" ∈ (smallNode "y" "Add" "T" ["x", "x"]).dataInputs := List.mem_cons_self
    rintro (rfl | rfl)
    · exact start
    · exact start.step (n := smallNode "y" "Add" "T" ["x", "x"]) inside read source

theorem sameNeeded_doubledInput {nodes : List Node} {out : NodeOutput}
    (source : Node.source nodes "x" = .ok (smallNode "x" "Placeholder" "dtype" [], out, 0))
    (inside : ∀ n ∈ doubledInput, n ∈ nodes)
    (only : ∀ n ∈ nodes, n.name = "y" ∨ n.name = "x" → n ∈ doubledInput) :
    Node.SameNeeded ["y"] doubledInput nodes := by
  have sum : smallNode "y" "Add" "T" ["x", "x"] ∈ doubledInput := List.mem_cons_of_mem _ (by simp)
  intro n
  rw [needed_doubledInput rfl sum fun _ member _ => member,
    needed_doubledInput source (inside _ sum) only]
  constructor
  · rintro ⟨member, named⟩
    exact ⟨inside n member, named⟩
  · rintro ⟨member, named⟩
    exact ⟨only n member named, named⟩

theorem sameNeeded_mixedInput : Node.SameNeeded ["y"] doubledInput mixedInput := by
  refine sameNeeded_doubledInput rfl ?_ ?_
  · intro n member
    simp only [doubledInput, List.mem_cons, List.not_mem_nil, or_false] at member
    rcases member with rfl | rfl
    · simp [mixedInput]
    · simp [mixedInput]
  · intro n member named
    simp only [mixedInput, List.mem_cons, List.not_mem_nil, or_false] at member
    rcases member with rfl | rfl | rfl
    · simp [doubledInput]
    · simp [smallNode] at named
    · simp [doubledInput]

theorem sameNeeded_brokenInput : Node.SameNeeded ["y"] doubledInput brokenInput := by
  refine sameNeeded_doubledInput rfl (fun n member => List.mem_append_left _ member) ?_
  intro n member named
  rcases List.mem_append.mp member with inside | last
  · exact inside
  · cases List.mem_singleton.mp last
    simp [smallNode] at named

theorem frozen_doubledInput : Node.Frozen ["y"] doubledInput := by
  refine ⟨by decide, rfl, fun n member _ => ?_⟩
  rcases List.mem_pair.mp member with rfl | rfl
  · exact ⟨_, rfl⟩
  · exact ⟨_, rfl⟩

theorem frozen_mixedInput : Node.Frozen ["y"] mixedInput := by
  refine ⟨by decide, rfl, fun n member _ => ?_⟩
  simp only [mixedInput, List.mem_cons, List.not_mem_nil, or_false] at member
  rcases member with rfl | rfl | rfl
  · exact ⟨_, rfl⟩
  · exact ⟨_, rfl⟩
  · exact ⟨_, rfl⟩

/-- The graph of the sum, without dropout. -/
def doubledGraph : Graph :=
  let tensor (id : Nat) (name : String) : Tensor :=
    ⟨id, name ++ ":0", name, .float32, some [.int 1], 2⟩
  let attrs (key : String) : Entries String Value :=
    [(key, .attr "type" (.int 1)), (deviceKey, .text "")]
  ⟨[⟨19, "x", "Placeholder", [], [tensor 18 "x"], attrs "dtype", 2⟩,
    ⟨23, "y", "Add", [tensor 20 "x", tensor 21 "x"], [tensor 22 "y"], attrs "T", 2⟩],
   ["x", "y"], ["y"], tensorBackend⟩

/-- What is emitted for this graph. -/
def doubledDraft : Draft :=
  ⟨[.text "x:0"], [.int 0],
   [.of .add [("in_dtype", .text "float"), ("out_dtype", .text "float"),
      ("inputs", .list [.text "x:0", .text "x:0"]), ("output", .text "y:0"),
      ("to_eval", .bool false)]]⟩

theorem doubledRun_ok : ∃ e' text, doubledRun doubledInput = (e', .ok ()) ∧
    e'.site.disk.files.get? ["m.cpp"] = some (.text text) := by
  obtain ⟨body, stated⟩ : ∃ body, doubledDraft.statements "m" = .ok body := by
    simp only [doubledDraft, Draft.statements_eq, List.mapM_cons, Fragment.statements_eq]
    exact ⟨_, rfl⟩
  have passed : passedGraph (fun h => .ok h.nodes) (.ofModel [Pass.dropout.method] ["y"])
      doubledInput = .ok (doubledGraph, [Pass.dropout.method]) := rfl
  obtain ⟨e', _, run, source⟩ := generate_withModel (d := doubledDraft) passed rfl
    (fun _ => ⟨_, Prod.ext rfl rfl, rfl⟩) stated
  exact ⟨e', _, run, source⟩

theorem generated_from_needed_nodes_mixedInput :
    Importer.Resolves ∧
    Importer.accept doubledInput = .ok () ∧ Importer.accept mixedInput = .ok () ∧
    Node.Frozen ["y"] doubledInput ∧ Node.Frozen ["y"] mixedInput ∧
    Node.SameNeeded ["y"] doubledInput mixedInput ∧
    (doubledRun doubledInput).2 = .ok () ∧ (doubledRun mixedInput).2 = .ok () ∧
    ∃ text, (doubledRun doubledInput).1.site.disk.files.get? ["m.cpp"] = some (.text text) ∧
      (doubledRun mixedInput).1.site.disk.files.get? ["m.cpp"] = some (.text text) := by
  have taken : Importer.accept doubledInput = .ok () := rfl
  have taken' : Importer.accept mixedInput = .ok () := rfl
  have both := generated_from_needed_nodes Importer.strict_resolves
    (r := .ofModel [Pass.dropout.method] ["y"]) rfl rfl frozen_doubledInput frozen_mixedInput
    sameNeeded_mixedInput (iff_of_true taken taken') (twin_withModel doubledInput mixedInput) rfl
    (fun h => .ok h.nodes) (.text "m.cpp")
  obtain ⟨e', text, run, source⟩ := doubledRun_ok
  unfold doubledRun at run ⊢
  dsimp only at both
  rw [run] at both ⊢
  revert both
  generalize (generate _ _ _).runOn (Emission.withModel mixedInput) = mixed
  rintro ⟨twin, ⟨_, _, failed, _⟩ | ⟨_, succeeds⟩⟩
  · cases failed
  · exact ⟨Importer.strict_resolves, taken, taken', frozen_doubledInput, frozen_mixedInput,
      sameNeeded_mixedInput, rfl, succeeds, text, source, twin.text source⟩

/-- A node that reads from nothing makes a run fail, although nothing needs it and its attributes
can be stored. -/
theorem spare_node_without_source_fails :
    (doubledInput.map Node.name).Nodup ∧ (brokenInput.map Node.name).Nodup ∧
    brokenInput.any Node.isVariable = false ∧
    Node.SameNeeded ["y"] doubledInput brokenInput ∧
    (∀ n ∈ brokenInput, ∃ attrs, storedAttrs n.attrs = .ok attrs) ∧
    (doubledRun doubledInput).2 = .ok () ∧ ∃ f, (doubledRun brokenInput).2 = .error f := by
  have stored : ∀ n ∈ brokenInput, ∃ attrs, storedAttrs n.attrs = .ok attrs := by
    intro n member
    simp only [brokenInput, doubledInput, List.mem_append, List.mem_cons, List.not_mem_nil,
      or_false] at member
    rcases member with (rfl | rfl) | rfl
    · exact ⟨_, rfl⟩
    · exact ⟨_, rfl⟩
    · exact ⟨_, rfl⟩
  have fails : ∀ e', doubledRun brokenInput ≠ (e', .ok ()) := by
    intro e' run
    unfold doubledRun at run
    obtain ⟨_, site, _, _, _, _, isDir, prepared, _, isModel, _, run⟩ := generate_ok_iff.mp run
    obtain ⟨g, methods, _, _, _, _, transformed, _⟩ := generateFromModel_ok_iff.mp run
    obtain ⟨nodes, read, passed⟩ := passedGraph_of_transformedGraph transformed
    cases isDir
    cases modelPath_ok isModel
    cases prepared
    cases read
    cases passed
  obtain ⟨_, _, run, _⟩ := doubledRun_ok
  refine ⟨by decide, by decide, rfl, sameNeeded_brokenInput, stored, congrArg Prod.snd run, ?_⟩
  rcases ended : doubledRun brokenInput with ⟨e', result⟩
  cases result with
  | ok _ => exact absurd ended (fails e')
  | error f => exact ⟨f, rfl⟩

end TensorEmit
