import TensorEmit.Proofs.ConstantFiles
import TensorEmit.Proofs.Importing
import TensorEmit.Proofs.Rendering
import TensorEmit.Proofs.WireForm

/-!
# Runs that fail

The files of a program are opened before their texts are made, so a text that could not be made
would leave an empty file behind. This does not happen: when the last operation is emitted, all
texts can be made (`writable_of_emitAll`), and up to then a run writes to no other files than those
of constants and the saved graph (`Emit.Spares.emitAll`). A run that fails has therefore not touched
the files of the program, unless it is one of these files that could not be opened.

For this the attributes of a graph have to be those of graph files. `Value.Carried` lists the values
that attributes have on their way from a graph file through the passes.
-/

namespace TensorEmit

open Code

/-! ## Attributes on their way -/

namespace Value

/-- Whether a value is in wire form, so that an attribute of a graph file can hold it. -/
def isWireData : Value → Bool
  | .bool _ | .int _ | .float _ | .text _ | .bytes _ | .wireTensor _ | .wireShape ..
  | .wireAttr _ _ | .wireFunc _ _ | .wireItems .. => true
  | _ => false

/-- Whether a value is an attribute of a graph file, which may hold nothing. -/
def isWireAttr : Value → Bool
  | .wireAttr Option.none _ => true
  | .wireAttr (some _) v => v.isWireData
  | _ => false

/-- A value of an attribute on the way from a graph file through the passes: that of a node, a note,
or the device of a node. -/
inductive Carried : Value → Prop where
  | wire {v : Value} (fromWire : v.isWireAttr) : Carried v
  | held (kind : String) {v : Value}
      (listed : ∀ bs ints fs os ts ss ns gs, v = .items bs ints fs os ts ss ns gs →
        ∃ vs, ints = .list vs) : Carried (.attr kind v)
  | flag (b : Bool) : Carried (.bool b)
  | counts (vs : List Value) : Carried (.list vs)
  | device (s : String) : Carried (.text s)

/-- The whole numbers of an attribute that is read from a graph file are a list. -/
theorem ints_of_toNeutral {v v' : Value} (wire : v.isWireData) (run : v.toNeutral = .ok v')
    {bs : List Value} {ints : Value} {fs os ts ss ns gs : List Value}
    (items : v' = .items bs ints fs os ts ss ns gs) : ∃ vs, ints = .list vs := by
  subst items
  cases v with
  | wireItems blobs is floats bools types shapes tensors funcs =>
    rw [Value.toNeutral] at run
    simp only [bind_eq_ok_iff] at run
    obtain ⟨_, _, _, _, _, _, _, _, made⟩ := run
    obtain ⟨_, _, _, _, _, _, _, same, _⟩ := Neutral.items_ok made
    cases same
    exact ⟨is, rfl⟩
  | wireTensor held =>
    cases held with
    | array a =>
      change neutralArray a = _ at run
      unfold neutralArray at run
      split at run
      · split at run
        · cases run
        · cases run
        · cases run
      · cases run
    | _ => cases run
  | wireShape dims sizes =>
    cases sizes with
    | none => cases run
    | some sizes =>
      rcases Neutral.shape_ok run with ⟨_, same⟩ | ⟨_, _, same⟩
      · cases same
      · cases same
  | wireAttr field held =>
    obtain ⟨_, _, _, _, same⟩ := Value.toNeutral_wireAttr run
    cases same
  | wireFunc name attrs =>
    rw [Value.toNeutral, bind_eq_ok_iff] at run
    obtain ⟨_, _, made⟩ := run
    obtain ⟨_, _, _, same⟩ := Neutral.func_ok made
    cases same
  | bool _ | int _ | float _ | text _ | bytes _ => cases run
  | _ => cases wire

theorem Carried.toNeutral {v v' : Value} (carried : v.Carried) (run : v.toNeutral = .ok v') :
    v'.Carried := by
  cases carried with
  | wire fromWire =>
    cases v with
    | wireAttr field held =>
      obtain ⟨kind, held', rfl, first, rfl⟩ := Value.toNeutral_wireAttr run
      exact .held kind fun _ _ _ _ _ _ _ _ => ints_of_toNeutral fromWire first
    | _ => cases fromWire
  | held kind listed =>
    cases run
    exact .held kind listed
  | flag b =>
    cases run
    exact .flag b
  | counts vs => cases run
  | device s =>
    cases run
    exact .device s

/-- Whether such a value is true is decided: only arrays leave that open. -/
theorem Carried.decided {v : Value} (carried : v.Carried) : Decided v := by
  cases carried with
  | wire fromWire =>
    cases v with
    | wireAttr field held => exact ⟨true, rfl⟩
    | _ => cases fromWire
  | held kind listed => exact ⟨true, rfl⟩
  | flag b => exact ⟨b, rfl⟩
  | counts vs => exact ⟨_, rfl⟩
  | device s => exact ⟨_, rfl⟩

theorem isWireData_of_toWire {v w : Value} (run : v.toWire = .ok w) : w.isWireData := by
  cases v with
  | tensor a t =>
    change wireArray a t = _ at run
    unfold wireArray at run
    split at run
    · cases run
      rfl
    · cases run
  | attr kind held =>
    rw [Value.toWire, bind_eq_ok_iff] at run
    obtain ⟨_, _, made⟩ := run
    cases made
    rfl
  | func name attrs =>
    rw [Value.toWire, bind_eq_ok_iff] at run
    obtain ⟨_, _, made⟩ := run
    cases made
    rfl
  | items blobs ints floats bools types shapes tensors funcs =>
    rw [Value.toWire] at run
    simp only [bind_eq_ok_iff] at run
    obtain ⟨_, _, _, _, _, _, _, _, made⟩ := run
    split at made
    · cases made
      rfl
    · cases made
  | shape _ | bool _ | int _ | float _ | text _ | bytes _ | wireTensor _ | wireShape _ _
  | wireAttr _ _ | wireFunc _ _ | wireItems _ _ _ _ _ _ _ _ =>
    cases run
    rfl
  | _ => cases run

theorem isWireAttr_of_wireAttrOf {v w : Value} (run : wireAttrOf v = .ok w) : w.isWireAttr := by
  cases v with
  | attr kind held =>
    obtain ⟨held', wired, made⟩ := bind_eq_ok_iff.mp run
    cases made
    exact isWireData_of_toWire wired
  | _ => cases run

end Value

/-- A node of a graph file: its attributes are in wire form. Its device is a text, or what an
operation has in its place. -/
structure Node.Wired (n : Node) : Prop where
  device : n.device.Carried
  attrs : ∀ e ∈ n.attrs, e.2.isWireAttr

/-- A quantiser makes nodes of a graph file from such nodes. -/
def Quantizer.KeepsWired (quantizer : Quantizer) : Prop :=
  ∀ h nodes, (∀ n ∈ h.nodes, n.Wired) → quantizer h = .ok nodes → ∀ n ∈ nodes, n.Wired

/-- All nodes in graph files on a disk are such nodes. -/
def Disk.Wired (d : Disk) : Prop :=
  ∀ p c nodes, d.files.get? p = some c → c.nodes = .ok nodes → ∀ n ∈ nodes, n.Wired

/-- All attributes of an operation come from a graph file or are notes. -/
def Operation.Carries (op : Operation) : Prop := ∀ e ∈ op.attrs, e.2.Carried

namespace Operation

theorem carries_of_stored {attrs attrs' : Entries String Value} (carried : ∀ e ∈ attrs, e.2.Carried)
    (run : storedAttrs attrs = .ok attrs') : ∀ e ∈ attrs', e.2.Carried := by
  intro e' member
  obtain ⟨e, inside, stored⟩ := exists_of_mem_mapM run member
  rw [storedAttr_eq_ok_iff] at stored
  split at stored
  · rw [← stored]
    exact carried e inside
  · obtain ⟨v, made, rfl⟩ := stored
    exact (carried e inside).toNeutral made

theorem carries_of_set {attrs : Entries String Value} {key : String} {v : Value}
    (carried : ∀ e ∈ attrs, e.2.Carried) (new : v.Carried) :
    ∀ e ∈ attrs.set key v, e.2.Carried := by
  intro e member
  rcases Entries.mem_set member with old | rfl
  · exact carried e old
  · exact new

theorem carries_of_read {nodes : List Node} {n : Node} {op : Operation} (wired : n.Wired)
    (read : n.Read nodes op) : op.Carries := by
  obtain ⟨attrs, stored, same⟩ := read.attrs
  unfold Carries
  rw [same]
  exact carries_of_set (carries_of_stored (fun e member => .wire (wired.attrs e member)) stored)
    wired.device

theorem Carries.node {op : Operation} {n : Node} (carries : op.Carries) (run : op.node = .ok n) :
    n.Wired := by
  constructor
  · have device : n.device = (op.attrs.get? deviceKey).getD (.text "") := by
      obtain ⟨attrs, _, made⟩ := bind_eq_ok_iff.mp run
      cases made
      rfl
    rw [device]
    cases found : op.attrs.get? deviceKey with
    | none => exact .device ""
    | some v => exact carries _ (Entries.mem_of_get? found)
  · intro e member
    obtain ⟨v, _, _, isWire⟩ := op.exists_attr_of_node run member
    exact Value.isWireAttr_of_wireAttrOf isWire

end Operation

theorem Graph.wired_of_nodes {g : Graph} {nodes : List Node} (carries : ∀ op ∈ g.ops, op.Carries)
    (run : g.nodes = .ok nodes) : ∀ n ∈ nodes, n.Wired := by
  intro n member
  obtain ⟨op, inside, node⟩ := exists_op_of_mem_nodes run member
  exact (carries op inside).node node

/-- Passes keep to such attributes. -/
theorem operationInvariant_carries [Importer] {quantizer : Quantizer}
    (keeps : quantizer.KeepsWired) :
    Graph.OperationInvariant quantizer Operation.Carries where
  alike := by
    intro op op' carries alike
    rcases alike.attrs with same | stored
    · unfold Operation.Carries
      rw [same]
      exact carries
    · exact Operation.carries_of_stored carries stored
  inlined := fun carries => carries
  annotated := fun g _ carries =>
    Operation.carries_of_set (Operation.carries_of_set carries (.flag _)) (.counts _)
  bypassed := by
    intro g g' base owner _ carries run op' member
    obtain ⟨inputs, _, _, kept⟩ := Graph.dropoutRemoved_ok run
    obtain ⟨name, _, op, found, bypassed⟩ := exists_left_of_forall₂ kept member
    exact Operation.carries_of_stored (carries op (Graph.mem_of_find? found)) bypassed.attrs
  quantized := by
    intro g nodes nodes' carries exported quantized _ n member op read
    exact Operation.carries_of_read
      (keeps _ _ (Graph.wired_of_nodes carries exported) quantized n member) read

/-! ## Operations that reach emission -/

theorem Entries.get?_set_cases {κ α : Type} [DecidableEq κ] {es : Entries κ α} {k l : κ} {v u : α}
    (found : (es.set k v).get? l = some u) : u = v ∨ es.get? l = some u := by
  by_cases same : l = k
  · subst same
    rw [Entries.get?_set_self] at found
    exact .inl (Option.some.inj found).symm
  · rw [Entries.get?_set_of_ne _ _ same] at found
    exact .inr found

/-- An option is one of the entries that it was taken from. -/
theorem Options.exists_of_get? {scope name : String} {es : Entries String Value} {v : Value}
    (found : (Options.ofEntries scope es).get? name = some v) : ∃ e ∈ es, e.2 = v := by
  -- What the options hold so far has to be generalised: each value is an entry that was passed.
  have filed : ∀ (es : Entries String Value) (o : Options) (P : Value → Prop),
      (∀ key v, o.own.get? key = some v → P v) → (∀ key v, o.shared.get? key = some v → P v) →
      (∀ e ∈ es, P e.2) → ∀ v, (es.foldl (fun o e => o.file e.1 e.2) o).get? name = some v →
        P v := by
    intro es
    induction es with
    | nil =>
      intro o P own shared _ v found
      rw [List.foldl_nil] at found
      unfold Options.get? at found
      split at found
      case h_1 there =>
        cases found
        exact own _ _ there
      case h_2 => exact shared _ _ found
    | cons e rest ih =>
      intro o P own shared each v found
      have here : P e.2 := each e (by simp)
      refine ih (o.file e.1 e.2) P ?_ ?_ (fun e' member => each e' (by simp [member])) v found
      · intro key u there
        unfold Options.file at there
        split at there
        · exact own key u there
        · rcases Entries.get?_set_cases there with rfl | old
          · exact here
          · exact own key u old
      · intro key u there
        unfold Options.file at there
        split at there
        · rcases Entries.get?_set_cases there with rfl | old
          · exact here
          · exact shared key u old
        · exact shared key u there
  refine filed es ⟨scope, [], []⟩ (fun v => ∃ e ∈ es, e.2 = v) ?_ ?_ ?_ v found
  · exact fun _ _ there => by cases there
  · exact fun _ _ there => by cases there
  · exact fun e member => ⟨e, member, rfl⟩

theorem Operation.Carries.steady {op : Operation} (carries : op.Carries) : op.Steady := by
  constructor
  · unfold evalNote Options.getD
    cases noted : op.notes.get? "to_eval" with
    | none => exact ⟨false, rfl⟩
    | some v =>
      obtain ⟨e, member, rfl⟩ := Options.exists_of_get? noted
      exact (carries e member).decided
  · intro key v run
    unfold ints at run
    simp only [bind_eq_ok_iff] at run
    obtain ⟨a, isAttr, held, isHeld, isInts⟩ := run
    have carried : a.Carried := by
      unfold attr at isAttr
      split at isAttr
      case h_1 found =>
        cases isAttr
        exact carries _ (Entries.mem_of_get? found)
      case h_2 => cases isAttr
    cases a with
    | attr kind inner =>
      cases isHeld
      cases carried with
      | wire fromWire => cases fromWire
      | held _ listed =>
        cases held with
        | items bs is fs os ts ss ns gs =>
          cases isInts
          exact listed _ _ _ _ _ _ _ _ rfl
        | _ => cases isInts
    | _ => cases isHeld

theorem Disk.get?_of_read {d : Disk} {path : String} {c : Content} (run : d.read path = .ok c) :
    ∃ p, d.files.get? p = some c := by
  unfold Disk.read at run
  rw [bind_eq_ok_iff] at run
  obtain ⟨p, _, run⟩ := run
  cases isDir : d.isDir p with
  | true =>
    rw [isDir] at run
    cases run
  | false =>
    rw [isDir] at run
    cases there : d.files.get? p with
    | none =>
      rw [there] at run
      cases run
    | some c' =>
      rw [there] at run
      cases slash : Path.endsInSlash path with
      | true =>
        rw [slash] at run
        cases run
      | false =>
        rw [slash] at run
        cases run
        exact ⟨p, there⟩

theorem steady_of_transformedGraph [Importer] {quantizer : Quantizer} {r : Request} {model : String}
    {e e' : Emission} {g : Graph} {methods : List String} (keeps : quantizer.KeepsWired)
    (wired : e.site.disk.Wired)
    (run : (transformedGraph quantizer r model).runOn e = (e', .ok (g, methods))) :
    ∀ op ∈ g.orderedOps, op.Steady := by
  obtain ⟨site, nodes, _, _, g₀, pipeline, loaded, read, _, runs⟩ := transformedGraph_ok run
  have fromFile : ∀ n ∈ nodes, n.Wired := by
    have content := (congrArg Prod.snd (outcome_loadModel model e.site)).symm.trans
      (congrArg Prod.snd loaded)
    obtain ⟨c, isContent, isNodes⟩ := bind_eq_ok_iff.mp content
    obtain ⟨p, there⟩ := Disk.get?_of_read isContent
    exact wired p c nodes there isNodes
  have carries : ∀ op ∈ g.ops, op.Carries := by
    refine runs.forall_ops (operationInvariant_carries keeps) (Graph.ordered_of_ofNodes read) ?_
    intro op member
    obtain ⟨n, inside, made⟩ := Graph.read_of_mem_ofNodes read member
    exact Operation.carries_of_read (fromFile n inside) made
  intro op member
  exact (carries op (Graph.mem_of_find? (Graph.mem_orderedOps.mp member).2)).steady

/-! ## Emission as a whole -/

/-- The steps of a run up to the emission of the last operation. They give whether constants are
inlined, the names of the files, and the entry point. -/
def emitModel [Importer] (quantizer : Quantizer) (r : Request)
    (dataDir embedDir model source : String) :
    Emit (Bool × OutputNames × Draft) := do
  let names := OutputNames.of model source
  modify fun e => e.begun names
  let (g, methods) ← transformedGraph quantizer r model
  saveIfAsked r.saveGraph names.graph
  let d ← addOperations ⟨some (.text dataDir), some (.text embedDir), true⟩ r.comments g 0 .empty
    g.order
  return (methods.contains Pass.inline.method, names, d)

/-- A run up to the emission of the last operation. -/
def emitAll [Importer] (quantizer : Quantizer) (r : Request) (source : Value) :
    Emit (Bool × OutputNames × Draft) := do
  Emit.lift r.checkOptions
  let dataDir ← Emit.lift r.dataDir.asText
  Emit.onSite (Job.ensureDirs dataDir)
  let embedDir ← Emit.lift r.embedPath
  let model ← Emit.lift r.modelPath
  let source ← Emit.lift source.asText
  emitModel quantizer r dataDir embedDir model source

/-- A run emits the graph and then writes the files of the program. -/
theorem generate_eq [Importer] (quantizer : Quantizer) (r : Request) (source : Value) :
    generate quantizer r source =
      emitAll quantizer r source >>= fun made => writeAll made.1 made.2.1 made.2.2 := by
  have rest : ∀ dataDir embedDir model path,
      generateFromModel quantizer r dataDir embedDir model path =
        emitModel quantizer r dataDir embedDir model path >>= fun made =>
          writeAll made.1 made.2.1 made.2.2 := by
    intro dataDir embedDir model path
    unfold generateFromModel emitModel saveIfAsked writeAll
    simp only [bind_assoc, pure_bind]
    cases r.saveGraph with
    | true => rfl
    | false => rfl
  unfold generate emitAll
  simp only [bind_assoc, rest]

/-! ## What emission leaves alone -/

/-- A place of a file with data: that of a constant or of a saved graph. -/
def Place.IsData (p : Place) : Prop :=
  ∃ stem, p.getLast? = some (stem ++ ".idx") ∨ p.getLast? = some (stem ++ ".pkl")

/-- All files of a disk but those with data are as they were. -/
def Disk.Spared (d d' : Disk) : Prop := ∀ p : Place, ¬p.IsData → d'.files.get? p = d.files.get? p

theorem Disk.Spared.refl (d : Disk) : d.Spared d := fun _ _ => rfl

theorem Disk.Spared.trans {d d₁ d' : Disk} (first : d.Spared d₁) (second : d₁.Spared d') :
    d.Spared d' :=
  fun p other => (second p other).trans (first p other)

theorem Disk.Spared.of_files {d d' : Disk} (same : d'.files = d.files) : d.Spared d' :=
  fun p _ => congrArg (Entries.get? · p) same

theorem Disk.spared_put (d : Disk) {p : Place} (isData : p.IsData) (c : Content) :
    d.Spared (d.put p c) := by
  intro q other
  refine Disk.get?_put_of_ne _ _ ?_
  intro same
  exact other (same ▸ isData)

/-- A job leaves all files but those with data alone, whether it fails or not. -/
def Job.Spares {α : Type} (x : Job α) : Prop := ∀ s : Site, s.disk.Spared (outcome x s).1.disk

/-- A step of emission does so. -/
def Emit.Spares {α : Type} (x : Emit α) : Prop :=
  ∀ e : Emission, e.site.disk.Spared (outcome x e).1.site.disk

namespace Job.Spares

variable {α β : Type}

theorem bind {x : Job α} {f : α → Job β} (first : x.Spares) (rest : ∀ a, (f a).Spares) :
    (x >>= f).Spares := by
  intro s
  have start := first s
  rw [outcome_bind]
  revert start
  rcases outcome x s with ⟨s₁, r⟩
  intro start
  cases r with
  | error fault => exact start
  | ok a => exact start.trans (rest a s₁)

theorem log (level : LogLevel) (text : String) :
    Job.Spares (modify fun s => s.logged level text) :=
  fun s => .refl s.disk

theorem lift (r : Except Fault α) : (Job.lift r).Spares := by
  cases r with
  | ok a => exact fun s => .refl s.disk
  | error f => exact fun s => .refl s.disk

theorem write {path : String} (toData : ∀ (d : Disk) p, d.Takes path p → p.IsData) (c : Content) :
    (Job.write path c).Spares := by
  intro s
  rw [← Job.runOn_eq_outcome]
  rcases Job.runOn_write_cases path s with ⟨f, fails⟩ | ⟨p, takes, writes⟩
  · rw [fails]
    exact .refl _
  · rw [writes]
    exact Disk.spared_put _ (toData _ p takes) c

theorem writeArray {path : String} (toData : ∀ (d : Disk) p, d.Takes path p → p.IsData)
    (a : NumArray) : (Job.writeArray path a).Spares :=
  (write toData _).bind fun _ => (lift _).bind fun _ => write toData _

end Job.Spares

/-! ## Directories -/

namespace Disk

theorem files_after {d : Disk} {r : Except Fault Disk}
    (same : ∀ d', r = .ok d' → d'.files = d.files) :
    (d.after r).1.files = d.files := by
  cases r with
  | ok d' => exact same d' rfl
  | error f => rfl

theorem files_makeDir {d d' : Disk} {path : String} (run : d.makeDir path = .ok d') :
    d'.files = d.files := by
  unfold makeDir at run
  rw [bind_eq_ok_iff] at run
  obtain ⟨p, _, run⟩ := run
  split at run
  · cases run
  · cases run
    rfl

/-- Directories are made without a change to files. -/
theorem files_makeChain (d : Disk) (chain : List (String × String)) :
    (d.makeChain chain).1.files = d.files := by
  fun_induction makeChain d chain with
  | case1 => rfl
  | case2 => exact files_after fun _ => files_makeDir
  | case3 => exact files_after fun _ => files_makeDir
  | case4 _ _ _ _ _ d' _ above outer =>
    rw [above] at outer
    exact outer
  | case5 _ _ _ _ _ _ d' _ above _ outer =>
    rw [above] at outer
    exact (files_after fun _ => files_makeDir).trans outer
  | case6 _ _ _ _ _ d' above outer =>
    rw [above] at outer
    exact outer
  | case7 _ _ _ _ _ _ d' above _ outer =>
    rw [above] at outer
    exact (files_after fun _ => files_makeDir).trans outer
  | case8 _ _ _ _ _ _ d' _ _ above outer =>
    rw [above] at outer
    exact outer

theorem files_ensureDirs (d : Disk) (path : String) : (d.ensureDirs path).1.files = d.files := by
  unfold ensureDirs makeDirs
  split
  · dsimp only
  · exact files_makeChain d _

end Disk

theorem Job.Spares.ensureDirs (path : String) : (Job.ensureDirs path).Spares := by
  intro s
  rw [← Job.runOn_eq_outcome, Job.ensureDirs, Job.runOn_onDisk]
  exact .of_files (Disk.files_ensureDirs s.disk path)

/-! ## Steps of emission -/

namespace Emit.Spares

variable {α β : Type}

theorem bind {x : Emit α} {f : α → Emit β} (first : x.Spares) (rest : ∀ a, (f a).Spares) :
    (x >>= f).Spares := by
  intro e
  have start := first e
  rw [outcome_bind]
  revert start
  rcases outcome x e with ⟨e₁, r⟩
  intro start
  cases r with
  | error fault => exact start
  | ok a => exact start.trans (rest a e₁)

theorem pure (a : α) : Emit.Spares (pure a) := fun e => .refl e.site.disk

theorem fail (f : Fault) : Emit.Spares (throw f : Emit α) := fun e => .refl e.site.disk

theorem lift (r : Except Fault α) : (Emit.lift r).Spares := by
  intro e
  rw [outcome_lift]
  exact .refl _

theorem onSite {x : Job α} (job : x.Spares) : (Emit.onSite x).Spares := by
  intro e
  rw [outcome_onSite]
  exact job e.site

/-- Steps that only change the headers, the inlined constants or the handovers. -/
theorem of_site {x : Emit α} (same : ∀ e, (outcome x e).1.site = e.site) : x.Spares := by
  intro e
  rw [same e]
  exact .refl _

/-- A container takes over the headers of what is added to it. -/
theorem takeHeaders {f : Fragment} {rest : Emission → List String → Emit α}
    (same : ∀ e hs, (outcome (rest e hs) e).1.site = e.site) :
    Emit.Spares (do
      let e ← get
      let hs ← Emit.lift (f.headers e.sets)
      rest e hs) := by
  refine of_site fun e => ?_
  rw [outcome_bind]
  change (outcome (Emit.lift (f.headers e.sets) >>= rest e) e).1.site = e.site
  rw [outcome_bind, outcome_lift]
  cases f.headers e.sets with
  | ok hs => exact same e hs
  | error fault => rfl

theorem addMember (d : Draft) (f : Fragment) : (TensorEmit.addMember d f).Spares :=
  takeHeaders fun _ _ => rfl

theorem addWeight (f : Fragment) : (Emit.addWeight f).Spares :=
  takeHeaders fun _ _ => rfl

theorem emitConst (target : Target) (op : Operation) : (TensorEmit.emitConst target op).Spares := by
  unfold TensorEmit.emitConst
  refine (lift _).bind fun out => (lift _).bind fun count => ?_
  dsimp only
  cases target.dataDir with
  | none => exact fail _
  | some dir =>
    refine (lift _).bind fun dir => (lift _).bind fun vars => (lift _).bind fun array => ?_
    -- A constant comes to a place that ends in its own file name.
    have toData : ∀ (d : Disk) p, d.Takes (Path.join dir (constFile out.name)) p → p.IsData :=
      fun d p takes => ⟨flatName out.name, .inl takes.getLast?_constFile⟩
    exact (onSite ((Job.Spares.writeArray toData _).bind fun _ => .log _ _)).bind fun _ => pure _

theorem emitInline (target : Target) (op : Operation) :
    (TensorEmit.emitInline target op).Spares := by
  unfold TensorEmit.emitInline
  refine (lift _).bind fun out => (lift _).bind fun count => (lift _).bind fun array => ?_
  refine (lift _).bind fun vars => (lift _).bind fun weight => ?_
  split
  · exact (fail _).bind fun _ => (addWeight _).bind fun _ => pure _
  · exact (addWeight _).bind fun _ => pure _

theorem emitOperation (target : Target) (op : Operation) :
    (TensorEmit.emitOperation target op).Spares := by
  unfold TensorEmit.emitOperation
  split
  · exact fail _
  · exact emitConst target op
  · exact emitInline target op
  all_goals exact lift _

theorem addOperation (target : Target) (d : Draft) (op : Operation) :
    (TensorEmit.addOperation target d op).Spares := by
  unfold TensorEmit.addOperation
  split
  · exact (lift _).bind fun _ => (lift _).bind fun _ => pure _
  · exact (emitOperation target op).bind fun f => addMember d f

theorem addOperations (target : Target) (comments : Bool) (g : Graph) (i : Nat) (d : Draft)
    (names : List String) : (TensorEmit.addOperations target comments g i d names).Spares := by
  induction names generalizing i d with
  | nil => exact pure d
  | cons name rest ih =>
    refine (lift _).bind fun op => (addOperation target d op).bind fun d₁ => ?_
    cases comments with
    | true => exact (addMember _ _).bind fun d₂ => ih (i + 1) d₂
    | false => exact (pure d₁).bind fun d₂ => ih (i + 1) d₂

theorem saveIfAsked (asked : Bool) (graph : String) :
    (TensorEmit.saveIfAsked asked graph).Spares := by
  unfold TensorEmit.saveIfAsked
  split
  · have toData : ∀ (d : Disk) p, d.Takes ("quant_" ++ graph ++ ".pkl") p → p.IsData :=
      fun d p takes => ⟨_, .inr (takes.getLast?_append (by decide) (by decide))⟩
    exact onSite ((Job.Spares.log _ _).bind fun _ => (Job.Spares.write toData _).bind fun _ =>
      .log _ _)
  · exact pure ()

theorem transformedGraph [Importer] (quantizer : Quantizer) (r : Request) (model : String) :
    (TensorEmit.transformedGraph quantizer r model).Spares := by
  intro e
  rw [(transformedGraph_spec quantizer r model e).1.disk]
  exact .refl _

/-- Up to the last operation a run leaves all files but those with data alone. -/
theorem emitAll [Importer] (quantizer : Quantizer) (r : Request) (source : Value) :
    (TensorEmit.emitAll quantizer r source).Spares := by
  unfold TensorEmit.emitAll emitModel
  refine (lift _).bind fun _ => (lift _).bind fun dataDir => ?_
  refine (onSite (.ensureDirs dataDir)).bind fun _ => (lift _).bind fun embedDir => ?_
  refine (lift _).bind fun model => (lift _).bind fun path => ?_
  have begun : Emit.Spares (modify (Emission.begun (.of model path))) := of_site fun _ => rfl
  refine begun.bind fun _ => (transformedGraph quantizer r model).bind fun made => ?_
  exact (saveIfAsked _ _).bind fun _ => (addOperations _ _ _ _ _ _).bind fun _ => pure _

end Emit.Spares

/-! ## Texts after emission -/

theorem Disk.Wired.congr {d d' : Disk} (wired : d.Wired) (same : d'.files = d.files) :
    d'.Wired := by
  unfold Disk.Wired
  rw [same]
  exact wired

theorem weights_of_transformedGraph [Importer] {quantizer : Quantizer} {r : Request}
    {model : String} {e e' : Emission} {made : Except Fault (Graph × List String)}
    (run : (transformedGraph quantizer r model).runOn e = (e', made)) : e'.weights = e.weights := by
  have kept := (transformedGraph_spec quantizer r model e).1.weights
  have ended : (outcome (transformedGraph quantizer r model) e).1 = e' := congrArg Prod.fst run
  rwa [ended] at kept

theorem weights_of_saveIfAsked {asked : Bool} {graph : String} {e e' : Emission} {u : Unit}
    (run : (saveIfAsked asked graph).runOn e = (e', .ok u)) : e'.weights = e.weights := by
  unfold saveIfAsked at run
  split at run
  · obtain ⟨site, _, rfl⟩ := Emit.runOn_onSite_ok_iff.mp run
    rfl
  · obtain ⟨rfl, _⟩ := Emit.runOn_pure_ok_iff.mp run
    rfl

/-- When the last operation is emitted, all texts can be made. -/
theorem writable_of_emitAll [Importer] {quantizer : Quantizer} {r : Request} {source : Value}
    {e e' : Emission} {inlined : Bool} {names : OutputNames} {d : Draft}
    (keeps : quantizer.KeepsWired) (wired : e.site.disk.Wired)
    (run : (emitAll quantizer r source).runOn e = (e', .ok (inlined, names, d))) :
    d.Writable e' := by
  unfold emitAll at run
  simp only [Emit.runOn_bind_ok_iff, Emit.runOn_onSite_ok_iff, Emit.runOn_lift_ok_iff] at run
  obtain ⟨_, _, ⟨rfl, _⟩, dataDir, _, ⟨rfl, _⟩, _, _, ⟨site, made, rfl⟩, embedDir, _, ⟨rfl, _⟩,
    model, _, ⟨rfl, _⟩, path, _, ⟨rfl, _⟩, run⟩ := run
  have files : site.disk.files = e.site.disk.files := by
    rw [Job.ensureDirs, Job.runOn_onDisk, Prod.mk.injEq] at made
    rw [← made.1]
    exact Disk.files_ensureDirs _ _
  unfold emitModel at run
  simp only [Emit.runOn_bind_ok_iff, Emit.runOn_modify_ok_iff, Emit.runOn_pure_ok_iff] at run
  obtain ⟨_, _, rfl, ⟨g, methods⟩, e₁, transformed, _, e₂, saved, d', e₃, added, rfl, same⟩ := run
  rw [Prod.mk.injEq, Prod.mk.injEq] at same
  obtain ⟨_, _, rfl⟩ := same
  have steady := steady_of_transformedGraph keeps (wired.congr files) transformed
  have weights : e₂.weights = [] := by
    rw [weights_of_saveIfAsked saved, weights_of_transformedGraph transformed]
    rfl
  have start : Draft.empty.Writable e₂ := by
    refine ⟨fun _ member => ?_, fun _ member => ?_⟩
    · cases member
    · rw [weights] at member
      cases member
  exact writable_addOperations steady start added

theorem Draft.Writable.source {d : Draft} {e : Emission} (writable : d.Writable e) (graph : String)
    (hs : Headers) : ∃ t, d.source graph hs = .ok t := by
  obtain ⟨body, stated⟩ := writable.statements graph
  unfold Draft.source
  rw [stated]
  exact ⟨_, rfl⟩

/-! ## Files that cannot be opened -/

/-- The files that a run writes a program to. -/
def OutputNames.files (names : OutputNames) : List String :=
  [names.weightHeader, names.header, names.source]

/-- A text that can be made is not written only if its file cannot be opened. -/
theorem Job.refused_of_writeText {path t : String} {s s' : Site} {f : Fault}
    (run : outcome (writeText path (.ok t)) s = (s', .error f)) :
    ∀ c, s'.disk.write path c = .error f := by
  rcases s.disk.write_cases path with ⟨f', fails⟩ | ⟨p, takes, _⟩
  · have refused : ∀ c, outcome (Job.write path c) s = (s, .error f') := by
      intro c
      rw [← Job.runOn_eq_outcome, Job.write, Job.runOn_onDisk, fails]
      rfl
    have ended : outcome (writeText path (.ok t)) s = (s, .error f') :=
      Job.runOn_bind_of_error (refused _) _
    cases ended.symm.trans run
    exact fails
  · have written := Job.runOn_writeText_ok_iff (u := ()).mpr ⟨t, p, rfl, takes, rfl⟩
    rw [Job.runOn_eq_outcome, run] at written
    cases written

theorem outcome_info_bind {α : Type} (text : String) (k : Unit → Job α) (s : Site) :
    outcome (Job.info text >>= k) s = outcome (k ()) (s.logged .info text) := by
  rw [outcome_bind]
  rfl

theorem outcome_get_bind {α : Type} (k : Emission → Emit α) (e : Emission) :
    outcome (get >>= k) e = outcome (k e) e := by
  rw [outcome_bind]
  rfl

theorem error_of_onSite {α : Type} {x : Job α} {e e' : Emission} {f : Fault}
    (run : outcome (Emit.onSite x) e = (e', .error f)) :
    outcome x e.site = (e'.site, .error f) := by
  rw [outcome_onSite, Prod.mk.injEq] at run
  rw [← run.1, ← run.2]

/-- Once all texts can be made, writing them fails only if one of the files cannot be opened. -/
theorem refused_of_writeAll {inlined : Bool} {names : OutputNames} {d : Draft} {e e' : Emission}
    {f : Fault} (writable : d.Writable e)
    (run : (writeAll inlined names d).runOn e = (e', .error f)) :
    ∃ path ∈ names.files, ∀ c, e'.site.disk.write path c = .error f := by
  have split := (outcome_bind_eq_error_iff (x := writeWeights inlined names)).mp run
  rcases split with failed | ⟨_, e₁, _, failed⟩
  · obtain ⟨t, weights⟩ := writable.weightsText
    refine ⟨names.weightHeader, by simp [OutputNames.files], ?_⟩
    unfold writeWeights at failed
    rw [outcome_get_bind] at failed
    cases inlined with
    | false => cases failed
    | true =>
      rw [if_pos rfl] at failed
      have job := error_of_onSite failed
      rw [outcome_info_bind, weights] at job
      exact Job.refused_of_writeText job
  · obtain ⟨h, header⟩ := d.header_ok names
    obtain ⟨t, source⟩ := writable.source names.graph (e₁.sets.of (.builtIn .context))
    unfold writeProgram at failed
    rw [outcome_get_bind] at failed
    have job := error_of_onSite failed
    rw [outcome_info_bind, header, source] at job
    rcases outcome_bind_eq_error_iff.mp job with refused | ⟨_, s₁, _, later⟩
    · exact ⟨names.header, by simp [OutputNames.files], Job.refused_of_writeText refused⟩
    · rw [outcome_info_bind] at later
      exact ⟨names.source, by simp [OutputNames.files], Job.refused_of_writeText later⟩

/-! ## Whole runs -/

theorem Place.not_isData {p : Place} {stem ext : String} (last : p.getLast? = some (stem ++ ext))
    (ends : ext.toList.getLast? = some 'p') : ¬p.IsData := by
  rintro ⟨other, isIdx | isPkl⟩
  · have same := Option.some.inj (last.symm.trans isIdx)
    exact absurd (lastChar_eq_of_append_eq same ends rfl) (by decide)
  · have same := Option.some.inj (last.symm.trans isPkl)
    exact absurd (lastChar_eq_of_append_eq same ends rfl) (by decide)

/-- The files of a program are no files with data. -/
theorem OutputNames.not_isData {model stem path : String} {d : Disk} {p : Place}
    (written : path ∈ (OutputNames.of model (stem ++ ".cpp")).files) (takes : d.Takes path p) :
    ¬p.IsData := by
  have one : path = Path.withoutExtension (stem ++ ".cpp") ++ "_weight.hpp" ∨
      path = Path.withoutExtension (stem ++ ".cpp") ++ ".hpp" ∨ path = stem ++ ".cpp" := by
    simpa [files, OutputNames.of] using written
  rcases one with rfl | rfl | rfl
  · exact Place.not_isData (takes.getLast?_append (by decide) (by decide)) (by decide)
  · exact Place.not_isData (takes.getLast?_append (by decide) (by decide)) (by decide)
  · exact Place.not_isData (takes.getLast?_append (by decide) (by decide)) (by decide)

/-- When the last operation is emitted, all texts of the program can be made. So a run that fails
leaves all files but those with data as they were, among them all that a program is written to,
unless emission was done and one of the files of the program could not be opened. -/
theorem failed_run_spares_program [Importer] {quantizer : Quantizer} {r : Request} {source : Value}
    {e : Emission} (keeps : quantizer.KeepsWired) (wired : e.site.disk.Wired) :
    (∀ e₁ inlined names d,
      (emitAll quantizer r source).runOn e = (e₁, .ok (inlined, names, d)) →
        (∃ t, weightsText e₁.weights = .ok t) ∧ (∃ t, d.header names = .ok t) ∧
          ∀ hs, ∃ t, d.source names.graph hs = .ok t) ∧
    (∀ model stem, ∀ path ∈ (OutputNames.of model (stem ++ ".cpp")).files,
      ∀ (d : Disk) p, d.Takes path p → ¬p.IsData) ∧
    ∀ e' f, (generate quantizer r source).runOn e = (e', .error f) →
      e.site.disk.Spared e'.site.disk ∨
        ∃ e₁ inlined names d,
          (emitAll quantizer r source).runOn e = (e₁, .ok (inlined, names, d)) ∧
          ∃ path ∈ names.files, ∀ c, e'.site.disk.write path c = .error f := by
  refine ⟨?_, fun model stem path written d p => OutputNames.not_isData written, ?_⟩
  · intro e₁ inlined names d emitted
    have writable := writable_of_emitAll keeps wired emitted
    exact ⟨writable.weightsText, d.header_ok names, writable.source names.graph⟩
  · intro e' f run
    rw [generate_eq] at run
    have split := (outcome_bind_eq_error_iff (x := emitAll quantizer r source)).mp run
    rcases split with failed | ⟨⟨inlined, names, d⟩, e₁, emitted, failed⟩
    · have spared := Emit.Spares.emitAll quantizer r source e
      rw [failed] at spared
      exact .inl spared
    · have writable := writable_of_emitAll keeps wired emitted
      exact .inr ⟨e₁, inlined, names, d, emitted, refused_of_writeAll writable failed⟩

theorem generate_error_of_emitAll [Importer] {quantizer : Quantizer} {r : Request} {source : Value}
    {e e' : Emission} {f : Fault} (failed : (emitAll quantizer r source).runOn e = (e', .error f)) :
    (generate quantizer r source).runOn e = (e', .error f) := by
  rw [generate_eq]
  exact outcome_bind_eq_error_iff.mpr (.inl failed)

/-- A constant, and an operation on it that is not supported. -/
def unsupportedNodes : List Node :=
  [oneElement "c" 1, ⟨"s", "Identity", ["c"], .text "", [], [⟨.int32, some [.int 1]⟩]⟩]

/-- The graph file of these nodes beside a source file. -/
def Emission.besideSource : Emission :=
  .start ⟨⟨[], [(["m.pb"], .model unsupportedNodes), (["m.cpp"], .text "kept")]⟩, []⟩

/-- The graph of these nodes. -/
def unsupportedGraph : Graph :=
  ⟨[oneElementOperation 0 "c" 1,
    ⟨4, "s", "Identity", [⟨2, "c:0", "c", .int32, some [.int 1], 0⟩],
      [⟨3, "s:0", "s", .int32, some [.int 1], 0⟩], [(deviceKey, .text "")], 0⟩],
    ["c", "s"], ["s"], tensorBackend⟩

/-- A run fails as the emission of its graph does. -/
theorem emitAll_ofModel [Importer] {quantizer : Quantizer} {methods outputs : List String}
    {path : String} {nodes : List Node} {g : Graph} {site : Site} {e : Emission}
    (prepared : (Job.ensureDirs "data").runOn e.site = (site, .ok ()))
    (read : (site.disk.read "m.pb" >>= Content.nodes) = .ok nodes)
    (passed : passedGraph quantizer (.ofModel methods outputs) nodes = .ok (g, methods)) :
    ∃ e₁, (Emission.begun (.of "m.pb" path) { e with site }).SameFiles e₁ ∧
      ∀ e₃ f, (addOperations .inData false g 0 .empty g.order).runOn e₁ = (e₃, .error f) →
        (emitAll quantizer (.ofModel methods outputs) (.text path)).runOn e = (e₃, .error f) := by
  obtain ⟨e₁, same, reached⟩ := transformedGraph_ofModel
    (e := Emission.begun (.of "m.pb" path) { e with site }) read passed
  refine ⟨e₁, same, fun e₃ f added => ?_⟩
  have made : outcome (Emit.onSite (Job.ensureDirs "data")) e = ({ e with site }, .ok ()) := by
    rw [outcome_onSite, ← Job.runOn_eq_outcome, prepared]
  show outcome (emitAll quantizer (.ofModel methods outputs) (.text path)) e = _
  unfold emitAll emitModel
  refine outcome_bind_eq_error_iff.mpr (.inr ⟨(), e, rfl, ?_⟩)
  refine outcome_bind_eq_error_iff.mpr (.inr ⟨"data", e, rfl, ?_⟩)
  refine outcome_bind_eq_error_iff.mpr (.inr ⟨(), { e with site }, made, ?_⟩)
  refine outcome_bind_eq_error_iff.mpr (.inr ⟨"data", { e with site }, rfl, ?_⟩)
  refine outcome_bind_eq_error_iff.mpr (.inr ⟨"m.pb", { e with site }, rfl, ?_⟩)
  refine outcome_bind_eq_error_iff.mpr (.inr ⟨path, { e with site }, rfl, ?_⟩)
  refine outcome_bind_eq_error_iff.mpr (.inr ⟨(), _, rfl, ?_⟩)
  refine outcome_bind_eq_error_iff.mpr (.inr ⟨(g, methods), e₁, reached, ?_⟩)
  refine outcome_bind_eq_error_iff.mpr (.inr ⟨(), _, rfl, ?_⟩)
  exact outcome_bind_eq_error_iff.mpr (.inl added)

/-- What is emitted for the constant. -/
def constantDraft : Draft :=
  ⟨[], [], [.of .loadTensor [("idx_path", .text "data/c_0.idx"), ("tensor_name", .text "c:0"),
    ("importer_dtype", .text "int"), ("to_eval", .bool false)]]⟩

theorem addOperations_error {target : Target} {g : Graph} {i : Nat} {d d₁ : Draft} {name : String}
    {names : List String} {op : Operation} {e e₁ e' : Emission} {f : Fault}
    (found : g.find name = .ok op) (first : outcome (addOperation target d op) e = (e₁, .ok d₁))
    (later : outcome (addOperations target false g (i + 1) d₁ names) e₁ = (e', .error f)) :
    outcome (addOperations target false g i d (name :: names)) e = (e', .error f) := by
  unfold addOperations
  rw [found]
  refine outcome_bind_eq_error_iff.mpr (.inr ⟨op, e, rfl, ?_⟩)
  refine outcome_bind_eq_error_iff.mpr (.inr ⟨d₁, e₁, first, ?_⟩)
  exact outcome_bind_eq_error_iff.mpr (.inr ⟨d₁, e₁, rfl, later⟩)

theorem addOperations_unsupported {e : Emission} {files : Entries Place Content}
    (disk : e.site.disk = ⟨[["data"]], files⟩) : ∃ e',
    (addOperations .inData false unsupportedGraph 0 .empty unsupportedGraph.order).runOn e =
      (e', .error (.unsupportedOperation "Identity")) := by
  obtain ⟨⟨_, log⟩, sets, weights, handovers⟩ := e
  cases disk
  obtain ⟨e₁, first⟩ : ∃ e₁,
      outcome (addOperation .inData .empty (oneElementOperation 0 "c" 1))
        ⟨⟨⟨[["data"]], files⟩, log⟩, sets, weights, handovers⟩ = (e₁, .ok constantDraft) :=
    ⟨_, Prod.ext rfl rfl⟩
  have rest : outcome (addOperations .inData false unsupportedGraph 1 constantDraft ["s"]) e₁ =
      (e₁, .error (.unsupportedOperation "Identity")) := rfl
  have found : unsupportedGraph.find "c" = .ok (oneElementOperation 0 "c" 1) := rfl
  have ran := @addOperations_error _ _ 0 _ _ _ _ _ _ _ _ _ found first rest
  exact ⟨e₁, ran⟩

attribute [local instance] Importer.strict

theorem emitAll_besideSource : ∃ e',
    (emitAll (fun h => .ok h.nodes) (.ofModel [] ["s"]) (.text "m.cpp")).runOn .besideSource =
      (e', .error (.unsupportedOperation "Identity")) := by
  have prepared : (Job.ensureDirs "data").runOn Emission.besideSource.site =
      (⟨⟨[["data"]], Emission.besideSource.site.disk.files⟩, []⟩, .ok ()) := rfl
  have passed : passedGraph (fun h => .ok h.nodes) (.ofModel [] ["s"]) unsupportedNodes =
      .ok (unsupportedGraph, []) := rfl
  obtain ⟨e₁, same, fails⟩ := @emitAll_ofModel _ _ _ _ "m.cpp" _ _ _ _ prepared rfl passed
  obtain ⟨e', added⟩ := addOperations_unsupported same.disk
  exact ⟨e', fails e' _ added⟩

theorem failed_run_spares_program_besideSource :
    Quantizer.KeepsWired (fun h => .ok h.nodes) ∧ Emission.besideSource.site.disk.Wired ∧
    ∃ e', (generate (fun h => .ok h.nodes) (.ofModel [] ["s"]) (.text "m.cpp")).runOn
        .besideSource = (e', .error (.unsupportedOperation "Identity")) ∧
      Emission.besideSource.site.disk.Spared e'.site.disk ∧
      e'.site.disk.files.get? ["m.cpp"] = some (.text "kept") := by
  have keeps : Quantizer.KeepsWired fun h => .ok h.nodes := by
    intro h nodes wired quantized
    cases quantized
    exact wired
  have wired : Emission.besideSource.site.disk.Wired := by
    intro p c nodes there read
    have file := Entries.mem_of_get? there
    rcases List.mem_pair.mp file with isModel | isSource
    · cases isModel
      cases read
      intro n member
      rcases List.mem_pair.mp member with rfl | rfl
      · exact ⟨.device "", by decide⟩
      · exact ⟨.device "", by decide⟩
    · cases isSource
      cases read
  obtain ⟨e', failed⟩ := emitAll_besideSource
  have run : (generate (fun h => .ok h.nodes) (.ofModel [] ["s"]) (.text "m.cpp")).runOn
      .besideSource = (e', .error (.unsupportedOperation "Identity")) := by
    exact generate_error_of_emitAll failed
  obtain ⟨_, isProgram, spares⟩ := @failed_run_spares_program _ (fun h => .ok h.nodes)
    (.ofModel [] ["s"]) (.text "m.cpp") .besideSource keeps wired
  rcases spares e' _ run with spared | ⟨_, _, _, _, emitted, _⟩
  · have takes : Emission.besideSource.site.disk.Takes "m.cpp" ["m.cpp"] := ⟨rfl, rfl, rfl⟩
    have kept := spared ["m.cpp"] (isProgram "m.pb" "m" "m.cpp" (by decide) _ _ takes)
    exact ⟨keeps, wired, e', run, spared, kept.trans rfl⟩
  · have same := failed.symm.trans emitted
    rw [Prod.mk.injEq] at same
    cases same.2

end TensorEmit
