import TensorEmit.Proofs.Importing
import TensorEmit.Proofs.PairedRuns

/-!
# Later runs

The sets of headers outlive a run. A run adds to two of them, those of the two containers, and
takes nothing out of them but the header of its own weights. So a later run finds the headers that
the entry points of earlier runs needed.

This module says what comes of it. Everything but the source file is as if the run had been the
first one, and so is the source file below its lines for headers; these are the lines that it would
have had, and one for each header left over.
-/

namespace TensorEmit

open Code

/-! ## Sets of headers -/

namespace Code

theorem Headers.mem_add {hs : Headers} {h x : String} : x ∈ hs.add h ↔ x ∈ hs ∨ x = h := by
  unfold Headers.add
  split
  · rename_i known
    constructor
    · exact .inl
    · rintro (inside | rfl)
      · exact inside
      · exact known
  · rw [List.mem_append, List.mem_singleton]

theorem Headers.mem_addAll {hs more : Headers} {x : String} :
    x ∈ hs.addAll more ↔ x ∈ hs ∨ x ∈ more := by
  unfold Headers.addAll
  induction more generalizing hs with
  | nil => simp
  | cons h rest ih => rw [List.foldl_cons, ih, mem_add, List.mem_cons, or_assoc]

namespace HeaderSets

variable {sets : HeaderSets} {o other : HeaderOwner}

theorem of_addAll (more : Headers) : (sets.addAll o more).of o = (sets.of o).addAll more := by
  unfold addAll
  rw [of, Entries.get?_set_self]
  rfl

theorem of_addAll_of_ne (more : Headers) (differs : other ≠ o) :
    (sets.addAll o more).of other = sets.of other := by
  unfold addAll of
  rw [Entries.get?_set_of_ne _ _ differs]

theorem of_drop (h : String) : (sets.drop o h).of o = (sets.of o).filter fun x => x ≠ h := by
  unfold drop
  rw [of, Entries.get?_set_self]
  rfl

theorem of_drop_of_ne (h : String) (differs : other ≠ o) :
    (sets.drop o h).of other = sets.of other := by
  unfold drop of
  rw [Entries.get?_set_of_ne _ _ differs]

/-- Sets of which only those of containers may have changed. -/
def Untouched (sets : HeaderSets) : Prop :=
  ∀ t, t.isContainer = false → sets.of (.builtIn t) = t.headers

theorem builtIn_ne {t container : Template} (plain : t.isContainer = false)
    (isContainer : container.isContainer = true) :
    HeaderOwner.builtIn t ≠ .builtIn container := by
  intro same
  cases same
  rw [plain] at isContainer
  cases isContainer

end HeaderSets

end Code

/-! ## Runs on one disk -/

namespace Pairing

/-- Two runs on the same disk with the same faults. -/
structure OnOneDisk (p : Pairing) : Prop extends p.LawfulSets where
  site : p.site = Eq
  fault : p.fault = Eq

variable {p : Pairing} {α : Type}

theorem OnOneDisk.job (oneDisk : p.OnOneDisk) (x : Job α) : p.Jobs Eq x x := by
  unfold Jobs
  rw [oneDisk.site, oneDisk.fault]
  exact (Parallel.self x).imp (fun _ _ same => same ▸ ⟨rfl, rfl⟩) (fun _ _ same => same)
    (fun _ _ same => same)

theorem OnOneDisk.lawful (oneDisk : p.OnOneDisk) : p.Lawful where
  toLawfulSets := oneDisk.toLawfulSets
  refl f := by rw [oneDisk.fault]
  logged s s' level text same := by
    rw [oneDisk.site] at same ⊢
    rw [same]
  write path c := oneDisk.job _

theorem OnOneDisk.onSite (oneDisk : p.OnOneDisk) (x : Job α) : p.Keeps (Emit.onSite x) :=
  (oneDisk.job x).onSite

theorem Lawful.onWorkspace (lawful : p.Lawful) (w : Workspace)
    (step : Workspace → Workspace × Except Fault GraphId) :
    p.Keeps (TensorEmit.onWorkspace w step) := by
  unfold TensorEmit.onWorkspace
  have noted : p.Keeps (modify fun e => { e with
      handovers := e.handovers ++ (step w).1.handovers.drop w.handovers.length }) :=
    .update fun e e' paired => ⟨paired.site, paired.sets, paired.weights⟩
  refine noted.bind fun _ _ _ => ?_
  refine (lawful.lift _).bind fun id _ same => ?_
  exact same ▸ .pure rfl

theorem OnOneDisk.transformedGraph [Importer] (oneDisk : p.OnOneDisk) (quantizer : Quantizer)
    (r : Request) (model : String) : p.Keeps (TensorEmit.transformedGraph quantizer r model) := by
  have lawful := oneDisk.lawful
  unfold TensorEmit.transformedGraph
  refine (oneDisk.onSite _).bind fun nodes _ same => ?_
  subst same
  refine .optional (oneDisk.onSite _) fun _ => ?_
  refine (lawful.onWorkspace _ _).bind fun read _ same => ?_
  subst same
  refine (oneDisk.onSite _).bind fun _ _ _ => ?_
  refine (lawful.lift _).bind fun methods _ same => ?_
  subst same
  refine (oneDisk.onSite _).bind fun _ _ _ => ?_
  refine (lawful.lift _).bind fun pipeline _ same => ?_
  subst same
  refine (lawful.onWorkspace _ _).bind fun ran _ same => ?_
  subst same
  exact (oneDisk.onSite _).bind fun _ _ _ => .pure rfl

/-- Runs on one disk stay paired until they write their programs. -/
theorem OnOneDisk.generate [Importer] (oneDisk : p.OnOneDisk) (none : p.weights [] [])
    {E : Emission × Fault → Emission × Fault → Prop} {R : Emission → Emission → Prop}
    (faults : ∀ a b, p.beforeWeights.Failures a b → E a b) (quantizer : Quantizer) (r : Request)
    (source : Value)
    (writes : ∀ model path methods d, r.model = .text model → source = .text path →
      r.methodNames = .ok methods →
      let write := writeAll (methods.contains Pass.inline.method) (.of model path) d
      Parallel E p.States R Eq write write) :
    let run := TensorEmit.generate quantizer r source
    Parallel E p.beforeWeights.States R Eq run run := by
  refine oneDisk.lawful.generate none faults (fun path => oneDisk.job _) (fun model => ?_) writes
  refine (oneDisk.transformedGraph quantizer r model).imp (fun _ _ failed => failed)
    (fun _ _ states => states) fun x y same => ?_
  subst same
  exact ⟨fun _ _ _ => rfl, rfl⟩

end Pairing

/-! ## What a run does to the sets -/

/-- One run beside itself, as long as it leaves the sets of all but containers alone. -/
def Pairing.alone : Pairing where
  site := Eq
  sets hs hs' := hs = hs' ∧ hs.Untouched
  weights := Eq
  fault := Eq

theorem Pairing.alone_onOneDisk : alone.OnOneDisk where
  owned hs hs' t paired plain := by rw [paired.1]
  addAll hs hs' t more paired isContainer := by
    obtain ⟨rfl, untouched⟩ := paired
    refine ⟨rfl, fun t' plain => ?_⟩
    rw [HeaderSets.of_addAll_of_ne more (HeaderSets.builtIn_ne plain isContainer)]
    exact untouched t' plain
  push ws ws' f same := congrArg (· ++ [f]) same
  site := rfl
  fault := rfl

theorem Pairing.alone_writeAll (inlined : Bool) (names : OutputNames) (d : Draft) :
    alone.Keeps (writeAll inlined names d) := by
  have weighed : alone.Keeps (TensorEmit.writeWeights inlined names) := by
    refine alone_onOneDisk.lawful.writeWeights rfl (fun _ _ _ paired => paired) ?_
    rintro - hs _ ⟨rfl, untouched⟩
    refine ⟨rfl, fun t plain => ?_⟩
    rw [HeaderSets.of_drop_of_ne _ (HeaderSets.builtIn_ne plain rfl)]
    exact untouched t plain
  refine weighed.bind fun _ _ _ => ?_
  exact alone_onOneDisk.lawful.writeProgram (fun _ _ paired => paired.1) names d

/-- A run leaves the sets of all but containers alone, whether it fails or not. -/
theorem untouched_of_generate [Importer] (quantizer : Quantizer) (r : Request) (source : Value)
    {e : Emission} (untouched : e.sets.Untouched) :
    ((generate quantizer r source).runOn e).1.sets.Untouched := by
  have both := Pairing.alone_onOneDisk.generate (E := Pairing.alone.beforeWeights.Failures)
    (R := Pairing.alone.States) rfl (fun _ _ failed => failed) quantizer r source
    fun model path methods d _ _ _ =>
      (Pairing.alone_writeAll _ _ d).within fun _ _ failed => failed.beforeWeights
  have ended := both e e ⟨rfl, ⟨rfl, untouched⟩, trivial⟩
  show (outcome (generate quantizer r source) e).1.sets.Untouched
  revert ended
  generalize outcome (generate quantizer r source) e = r'
  intro ended
  cases ended with
  | ok states _ => exact states.sets.2
  | error failed => exact failed.1.sets.2

/-- The state after some runs, of which each may have failed. -/
def Emission.afterRuns [Importer] (quantizer : Quantizer) (e : Emission)
    (runs : List (Request × Value)) :
    Emission :=
  runs.foldl (fun e run => ((generate quantizer run.1 run.2).runOn e).1) e

theorem untouched_afterRuns [Importer] (quantizer : Quantizer) (runs : List (Request × Value))
    {e : Emission}
    (untouched : e.sets.Untouched) : (e.afterRuns quantizer runs).sets.Untouched := by
  unfold Emission.afterRuns
  induction runs generalizing e with
  | nil => exact untouched
  | cons run rest ih => exact ih (untouched_of_generate quantizer run.1 run.2 untouched)

/-! ## A later run beside a first one -/

/-- A run that finds some headers left over, beside one that does not. -/
def Pairing.leaving (left : String → Prop) : Pairing where
  site := Eq
  sets hs hs' := (∀ t, t.isContainer = false → hs.of (.builtIn t) = hs'.of (.builtIn t)) ∧
    ∀ h, h ∈ hs.of (.builtIn .context) ↔ h ∈ hs'.of (.builtIn .context) ∨ left h
  weights := Eq
  fault := Eq

theorem Pairing.leaving_onOneDisk (left : String → Prop) : (leaving left).OnOneDisk where
  owned hs hs' t paired plain := paired.1 t plain
  addAll hs hs' t more paired isContainer := by
    refine ⟨fun t' plain => ?_, fun h => ?_⟩
    · have differs := HeaderSets.builtIn_ne plain isContainer
      rw [HeaderSets.of_addAll_of_ne more differs, HeaderSets.of_addAll_of_ne more differs]
      exact paired.1 t' plain
    · by_cases same : HeaderOwner.builtIn .context = .builtIn t
      · rw [← same, HeaderSets.of_addAll, HeaderSets.of_addAll, Headers.mem_addAll,
          Headers.mem_addAll, paired.2 h]
        exact or_right_comm
      · rw [HeaderSets.of_addAll_of_ne more same, HeaderSets.of_addAll_of_ne more same]
        exact paired.2 h
  push ws ws' f same := congrArg (· ++ [f]) same
  site := rfl
  fault := rfl

/-- Two disks differ in nothing but the lines for headers of the source file at a path, where the
first one has some more. -/
def DiffersInHeaders (path : String) (more : String → Prop) (s s' : Site) : Prop :=
  ∃ (before : Site) (p : Place) (hs hs' : Headers) (body : List Statement),
    before.disk.Takes path p ∧
    s = { before with disk := before.disk.put p (.text (sourceText hs body)) } ∧
    s' = { before with disk := before.disk.put p (.text (sourceText hs' body)) } ∧
    ∀ h, h ∈ hs ↔ h ∈ hs' ∨ more h

/-- A source file is written with the headers that are there, or fails whatever they are. -/
theorem matched_writeSource {d : Draft} {graph path : String} {hs hs' : Headers}
    {more : String → Prop} (s : Site) (related : ∀ h, h ∈ hs ↔ h ∈ hs' ∨ more h) :
    Matched Eq (DiffersInHeaders path more) Eq
      ((writeText path (d.source graph hs)).runOn s)
      ((writeText path (d.source graph hs')).runOn s) := by
  rcases Job.runOn_writeText_cases path s with ⟨f, fails⟩ | ⟨p, takes, refuses, writes⟩
  · rw [fails, fails]
    exact .error rfl
  cases stated : d.statements graph with
  | error f =>
    have missing : ∀ hs, d.source graph hs = .error f := by
      intro hs
      unfold Draft.source
      rw [stated]
      rfl
    rw [missing, missing, refuses]
    exact .error rfl
  | ok body =>
    have made : ∀ hs, d.source graph hs = .ok (composed (Headers.addAll [] hs) [textOf body]) := by
      intro hs
      unfold Draft.source
      rw [stated]
      rfl
    rw [made, made, writes, writes, ← sourceText, ← sourceText]
    exact .ok ⟨s, p, hs, hs', body, takes, rfl, rfl, related⟩ rfl

/-- How a run that fails ends, apart from the sets of headers. -/
def SameFailure (x y : Emission × Fault) : Prop := x.1.site = y.1.site ∧ x.2 = y.2

/-- The headers that a run takes over from earlier ones: all, or all but that of its own weights. -/
def TakenOver (left : String → Prop) (inlined : Bool) (names : OutputNames) (h : String) : Prop :=
  left h ∧ (inlined = true ∨ h ≠ includedName names.weightHeader)

theorem Pairing.leaving_writeWeights (left : String → Prop) (inlined : Bool) (names : OutputNames) :
    Parallel (leaving left).Failures (leaving left).States
      (leaving (TakenOver left inlined names)).States Eq
      (TensorEmit.writeWeights inlined names) (TensorEmit.writeWeights inlined names) := by
  refine (leaving_onOneDisk left).lawful.writeWeights rfl ?_ ?_
  · intro isInlined hs hs' paired
    refine ⟨paired.1, fun h => ?_⟩
    rw [paired.2 h]
    simp [TakenOver, isInlined]
  · intro isFile hs hs' paired
    refine ⟨fun t plain => ?_, fun h => ?_⟩
    · have differs : HeaderOwner.builtIn t ≠ .builtIn .context := HeaderSets.builtIn_ne plain rfl
      rw [HeaderSets.of_drop_of_ne _ differs, HeaderSets.of_drop_of_ne _ differs]
      exact paired.1 t plain
    · rw [HeaderSets.of_drop, HeaderSets.of_drop]
      simp only [List.mem_filter, paired.2 h, TakenOver, isFile, decide_eq_true_eq,
        Bool.false_eq_true, false_or, or_and_right]

theorem Pairing.leaving_writeProgram (left : String → Prop) (names : OutputNames) (d : Draft) :
    Parallel SameFailure (leaving left).States
      (fun e e' => DiffersInHeaders names.source left e.site e'.site) Eq
      (writeProgram names d) (writeProgram names d) := by
  refine Parallel.state.bind fun e e' paired => ?_
  have written : Parallel Eq Eq (DiffersInHeaders names.source left) Eq
      (writeText names.source (d.source names.graph (e.sets.of (.builtIn .context))))
      (writeText names.source (d.source names.graph (e'.sets.of (.builtIn .context)))) := by
    intro s s' same
    subst same
    rw [← Job.runOn_eq_outcome, ← Job.runOn_eq_outcome]
    exact matched_writeSource s paired.sets.2
  refine Parallel.onSite ((Parallel.self _).bind fun _ _ _ => (Parallel.self _).bind fun _ _ _ =>
    (Parallel.self _).bind fun _ _ _ => written) ?_ ?_ ?_
  · exact fun _ _ states => states.site
  · exact fun _ _ _ _ _ differ => differ
  · exact fun _ _ _ _ _ _ _ same => Prod.mk.inj same

theorem Pairing.leaving_writeAll (left : String → Prop) (inlined : Bool) (names : OutputNames)
    (d : Draft) :
    Parallel SameFailure (leaving left).States
      (fun e e' => DiffersInHeaders names.source (TakenOver left inlined names) e.site e'.site) Eq
      (writeAll inlined names d) (writeAll inlined names d) := by
  have weighed : Parallel SameFailure (leaving left).States
      (leaving (TakenOver left inlined names)).States Eq
      (TensorEmit.writeWeights inlined names) (TensorEmit.writeWeights inlined names) :=
    (leaving_writeWeights left inlined names).imp (fun _ _ failed => ⟨failed.1.site, failed.2⟩)
      (fun _ _ states => states) (fun _ _ same => same)
  exact weighed.bind fun _ _ _ => leaving_writeProgram _ names d

/-- Two disks after a run that succeeded, the first of which found some headers left over. -/
def ApartByLeftover (left : String → Prop) (r : Request) (source : Value) (s s' : Site) : Prop :=
  ∃ model path methods,
    r.model = .text model ∧ source = .text path ∧ r.methodNames = .ok methods ∧
    DiffersInHeaders path
      (TakenOver left (methods.contains Pass.inline.method) (.of model path)) s s'

/-- After any earlier runs, a run fails as it fails when it is the first one, with the same disk and
log, or it writes what it writes then, but for the lines for headers of the source file: there it
has in addition those that the earlier runs left over. -/
theorem later_run_takes_over_headers [Importer] (quantizer : Quantizer)
    (earlier : List (Request × Value)) (start site : Site) (r : Request) (source : Value) :
    let e := (Emission.start start).afterRuns quantizer earlier
    let later := (generate quantizer r source).runOn { e with site := site }
    let first := (generate quantizer r source).runOn (.start site)
    (∃ f, later.2 = .error f ∧ first.2 = .error f ∧ later.1.site = first.1.site) ∨
      (later.2 = .ok () ∧ first.2 = .ok () ∧
        ApartByLeftover (· ∈ e.sets.of (.builtIn .context)) r source later.1.site
          first.1.site) := by
  intro e later first
  have untouched : e.sets.Untouched := untouched_afterRuns quantizer earlier fun _ _ => rfl
  have both := (Pairing.leaving_onOneDisk (· ∈ e.sets.of (.builtIn .context))).generate
    (E := SameFailure)
    (R := fun e₁ e₂ =>
      ApartByLeftover (· ∈ e.sets.of (.builtIn .context)) r source e₁.site e₂.site)
    rfl (fun _ _ failed => ⟨failed.1.site, failed.2⟩) quantizer r source
    fun model path methods d isModel isSource named =>
      (Pairing.leaving_writeAll _ _ (.of model path) d).imp (fun _ _ failed => failed)
        (fun _ _ differ => ⟨model, path, methods, isModel, isSource, named, differ⟩)
        (fun _ _ same => same)
  have ended := both { e with site := site } (.start site)
    ⟨rfl, ⟨untouched, fun h => (or_iff_right List.not_mem_nil).symm⟩, trivial⟩
  change Matched _ _ _ later first at ended
  revert ended
  generalize later = later', first = first'
  intro ended
  cases ended with
  | ok differ _ => exact .inr ⟨rfl, rfl, differ⟩
  | error failed => exact .inl ⟨_, rfl, congrArg Except.error failed.2.symm, failed.1⟩

/-! ## Headers that are left over show -/

theorem includeOrder_perm (hs : Headers) : (includeOrder hs).Perm hs := by
  have sorted : ∀ l : Headers, l.sorted.Perm l := fun l => List.mergeSort_perm l _
  refine (List.Perm.append (sorted _) (sorted _)).trans ?_
  exact List.perm_append_comm.trans (List.filter_append_perm isStandard hs)

/-- How long a source file is depends on its headers, but not on their order. -/
theorem length_sourceText (hs : Headers) (body : List Statement) :
    (sourceText hs body).length = banner.length +
      ((Number.total ((Headers.addAll [] hs).map fun h => h.length + 10) + 2) +
        (textOf body).length) := by
  have total : ∀ ns : List Nat, Number.total ns = ns.sum := by
    intro ns
    induction ns with
    | nil => rfl
    | cons n rest ih => rw [Number.total, ih, List.sum_cons]
  have line : ∀ h : String, ("#include " ++ h ++ "\n").length = h.length + 10 := by
    intro h
    have ends : "#include ".length = 9 ∧ "\n".length = 1 := ⟨rfl, rfl⟩
    rw [String.length_append, String.length_append]
    omega
  have lines : (includeLines (Headers.addAll [] hs)).length =
      ((Headers.addAll [] hs).map fun h => h.length + 10).sum := by
    unfold includeLines
    rw [String.length_join, List.map_map]
    refine (((includeOrder_perm _).map _).sum_nat).trans (congrArg List.sum ?_)
    exact List.map_congr_left fun h _ => line h
  unfold sourceText composed
  rw [String.length_append, String.length_append, String.length_append, lines, String.length_join,
    total]
  rfl

/-- A graph that is an input and nothing else. -/
def loneInput : List Node := [⟨"x", "Placeholder", [], .text "", [], [⟨.float32, some [.int 1]⟩]⟩]

/-- A disk with this graph on it. -/
def loneInputSite : Site := ⟨⟨[["data"]], [(["m.pb"], .model loneInput)]⟩, []⟩

/-- The graph as it is read. -/
def loneInputGraph : Graph :=
  ⟨[⟨1, "x", "Placeholder", [], [⟨0, "x:0", "x", .float32, some [.int 1], 0⟩],
      [(deviceKey, .text "")], 0⟩], ["x"], ["x"], tensorBackend⟩

/-- What is emitted for this graph. -/
def loneInputDraft : Draft := Draft.empty.addInput "x:0" (.int 0)

attribute [local instance] Importer.strict

theorem generate_loneInput (quantizer : Quantizer) {e : Emission} {path : String}
    {names : OutputNames} (named : OutputNames.of "m.pb" path = names) (graph : names.graph = "m")
    (dirs : e.site.disk.dirs = [["data"]])
    (file : e.site.disk.files.get? ["m.pb"] = some (.model loneInput))
    (header : e.site.disk.Takes names.header [names.header])
    (source : e.site.disk.Takes names.source [names.source]) :
    ∃ e' h body,
      (generate quantizer (.ofModel [] ["x"]) (.text path)).runOn e = (e', .ok ()) ∧
      loneInputDraft.statements "m" = .ok body ∧
      e'.sets = (e.begun names).sets.drop (.builtIn .context) (includedName names.weightHeader) ∧
      e'.site.disk = (e.site.disk.put [names.header] (.text (banner ++ h))).put [names.source]
        (.text (sourceText (e'.sets.of (.builtIn .context)) body)) := by
  obtain ⟨body, stated⟩ : ∃ body, loneInputDraft.statements "m" = .ok body := by
    simp only [loneInputDraft, Draft.statements_eq]
    exact ⟨_, rfl⟩
  have read : e.site.disk.read "m.pb" = .ok (.model loneInput) := by
    have notDir : e.site.disk.isDir ["m.pb"] = false := by
      unfold Disk.isDir
      rw [dirs]
      decide
    unfold Disk.read
    rw [show e.site.disk.placeOf "m.pb" = .ok ["m.pb"] from rfl, ok_bind, notDir, file]
    rfl
  have prepared : (Job.ensureDirs "data").runOn e.site = (e.site, .ok ()) := by
    have leads : e.site.disk.leads "data" = true := by
      unfold Disk.leads
      rw [show e.site.disk.placeOf "data" = .ok ["data"] from rfl]
      simp [Disk.isDir, dirs]
    rw [Job.ensureDirs, Job.runOn_onDisk, Disk.ensureDirs, leads]
    rfl
  have passed : passedGraph quantizer (.ofModel [] ["x"]) loneInput = .ok (loneInputGraph, []) :=
    rfl
  obtain ⟨e₁, same, emits⟩ := generate_ofModel named prepared (by rw [read]; rfl) passed rfl
  have dirs' : ∀ p, e₁.site.disk.isDir p = e.site.disk.isDir p := by
    intro p
    rw [same.disk]
    rfl
  obtain ⟨e', h, run, sets, disk⟩ := emits e₁ loneInputDraft body _ _ rfl (by rw [graph, stated])
    (header.congr dirs') (source.congr dirs')
  rw [same.sets] at sets
  rw [same.disk] at disk
  exact ⟨e', h, body, run, stated, sets, disk⟩

/-- The source of a second run names the header of the first one. -/
theorem second_source_names_first_header :
    let quantizer : Quantizer := fun h => .ok h.nodes
    let e := (Emission.start loneInputSite).afterRuns quantizer
      [(.ofModel [] ["x"], .text "a.cpp")]
    let later := (generate quantizer (.ofModel [] ["x"]) (.text "b.cpp")).runOn e
    let first := (generate quantizer (.ofModel [] ["x"]) (.text "b.cpp")).runOn (.start e.site)
    ∃ body,
      later.1.site.disk.files.get? ["b.cpp"] =
        some (.text (sourceText ["\"a.hpp\"", "\"b.hpp\""] body)) ∧
      first.1.site.disk.files.get? ["b.cpp"] = some (.text (sourceText ["\"b.hpp\""] body)) ∧
      sourceText ["\"a.hpp\"", "\"b.hpp\""] body ≠ sourceText ["\"b.hpp\""] body := by
  intro quantizer e later first
  have namedA : OutputNames.of "m.pb" "a.cpp" = ⟨"m", "a", "a.cpp", "a.hpp", "a_weight.hpp"⟩ := by
    decide
  have namedB : OutputNames.of "m.pb" "b.cpp" = ⟨"m", "b", "b.cpp", "b.hpp", "b_weight.hpp"⟩ := by
    decide
  obtain ⟨e₁, h₁, body₁, run₁, stated₁, sets₁, disk₁⟩ :=
    generate_loneInput (e := .start loneInputSite) quantizer namedA rfl rfl rfl ⟨rfl, rfl, rfl⟩
      ⟨rfl, rfl, rfl⟩
  have reached : e = e₁ := by
    show List.foldl _ _ _ = _
    rw [List.foldl_cons, List.foldl_nil, run₁]
  have left : e₁.sets.of (.builtIn .context) = ["\"a.hpp\""] := by
    rw [sets₁]
    decide
  obtain ⟨dirs, file, header, source⟩ : e₁.site.disk.dirs = [["data"]] ∧
      e₁.site.disk.files.get? ["m.pb"] = some (.model loneInput) ∧
      e₁.site.disk.Takes "b.hpp" ["b.hpp"] ∧ e₁.site.disk.Takes "b.cpp" ["b.cpp"] := by
    rw [disk₁]
    exact ⟨rfl, rfl, ⟨rfl, rfl, rfl⟩, ⟨rfl, rfl, rfl⟩⟩
  obtain ⟨e₂, h₂, body, run₂, stated, sets₂, disk₂⟩ :=
    generate_loneInput quantizer namedB rfl dirs file header source
  obtain ⟨e₃, h₃, body₃, run₃, stated₃, sets₃, disk₃⟩ :=
    generate_loneInput (e := .start e₁.site) quantizer namedB rfl dirs file header source
  have same : body₃ = body := Except.ok.inj (stated₃.symm.trans stated)
  subst same
  refine ⟨body₃, ?_, ?_, ?_⟩
  · have own : e₂.sets.of (.builtIn .context) = ["\"a.hpp\"", "\"b.hpp\""] := by
      rw [sets₂, HeaderSets.of_drop, Emission.begun, HeaderSets.of_addAll, left]
      decide
    have ended : later = (e₂, .ok ()) := by
      show (generate _ _ _).runOn e = _
      rw [reached]
      exact run₂
    rw [ended, disk₂, Disk.get?_put_self, own]
  · have own : e₃.sets.of (.builtIn .context) = ["\"b.hpp\""] := by
      rw [sets₃, HeaderSets.of_drop, Emission.begun, HeaderSets.of_addAll,
        show (Emission.start e₁.site).sets.of (.builtIn .context) = [] from rfl]
      decide
    have ended : first = (e₃, .ok ()) := by
      show (generate _ _ _).runOn (.start e.site) = _
      rw [reached]
      exact run₃
    rw [ended, disk₃, Disk.get?_put_self, own]
  · intro same
    have lengths := congrArg String.length same
    rw [length_sourceText, length_sourceText] at lengths
    have one : Number.total ((Headers.addAll [] ["\"b.hpp\""]).map fun h => h.length + 10) = 17 :=
      rfl
    have two : Number.total ((Headers.addAll [] ["\"a.hpp\"", "\"b.hpp\""]).map
      fun h => h.length + 10) = 34 := rfl
    omega

end TensorEmit
