import Mathlib.Data.List.Perm.Basic
import TensorEmit.Proofs.Importing
import TensorEmit.Proofs.Registration
import TensorEmit.Proofs.UseCounts

/-!
# Emitted reference counts

The emitted function adds every tensor with the number of its uses. The operators of the function
list the inputs of their operations, each as often as its operation does, so the number is that of
the occurrences among the inputs of all operators. Where no number is given, there is no occurrence.
-/

namespace TensorEmit

open Code

/-! ## Names that operators read -/

namespace Code

/-- The names that calls read, as often as they read them. -/
def readNamesOf (calls : List ContextCall) : List String :=
  calls.flatMap fun
    | .add _ _ => []
    | .push inputs _ => inputs

theorem readNamesOf_append (calls calls' : List ContextCall) :
    readNamesOf (calls ++ calls') = readNamesOf calls ++ readNamesOf calls' :=
  List.flatMap_append

theorem readNamesOf_flatMap {α : Type} (xs : List α) (calls : α → List ContextCall) :
    readNamesOf (xs.flatMap calls) = xs.flatMap fun x => readNamesOf (calls x) :=
  List.flatMap_assoc

end Code

namespace Operation

/-- Whether an operation has the inputs that its code expects: a product and a sum of quantised
tensors have six, other operators have some, and what does not compute has none. -/
def inputsFit (op : Operation) : Bool :=
  match OperatorKind.ofType? op.type with
  | some k =>
    if k.takesOperandsFirst then op.inputs.length == 6 else op.inputs.isEmpty == !k.computes
  | none => op.inputs.isEmpty

/-- An operation of a supported type with the inputs and outputs that its code expects. -/
structure FitsCode (op : Operation) : Prop where
  outputs : registeredOutputs op.type = some op.outputs.length
  inputs : op.inputsFit

instance (op : Operation) : Decidable op.FitsCode :=
  decidable_of_iff (registeredOutputs op.type = some op.outputs.length ∧ op.inputsFit)
    ⟨fun h => ⟨h.1, h.2⟩, fun h => ⟨h.outputs, h.inputs⟩⟩

/-- Operands first is a rearrangement of six inputs. -/
theorem perm_operandsFirst {names : List String} (six : names.length = 6) :
    (operandOrder.filterMap (pick names)).Perm names := by
  obtain ⟨a, b, c, d, e, f, rfl⟩ : ∃ a b c d e f, names = [a, b, c, d, e, f] := by
    match names, six with
    | [a, b, c, d, e, f], _ => exact ⟨a, b, c, d, e, f, rfl⟩
  -- The second operand moves in front of the range of the first.
  change (a :: ([c, d] ++ b :: [e, f])).Perm (a :: b :: ([c, d] ++ [e, f]))
  exact .cons a List.perm_middle

/-- An operator reads the inputs of its operation, in some order. -/
theorem perm_arguments {op : Operation} {k : OperatorKind}
    (kind : OperatorKind.ofType? op.type = some k) (computes : k.computes) (fits : op.inputsFit) :
    (op.arguments k).Perm op.readNames := by
  unfold inputsFit at fits
  rw [kind] at fits
  dsimp only at fits
  unfold arguments
  split at fits
  case isTrue operands =>
    have six : op.readNames.length = 6 := by simpa [readNames] using fits
    have perm := perm_operandsFirst six
    rw [if_pos operands, listed_of_ne_nil]
    · exact perm
    · intro none
      have length := perm.length_eq
      rw [none, six] at length
      cases length
  case isFalse plain =>
    have some : op.readNames ≠ [] := by
      simp only [computes, Bool.not_true, beq_false, Bool.not_eq_true', List.isEmpty_eq_false_iff]
        at fits
      simpa [readNames] using fits
    rw [if_neg plain, listed_of_ne_nil some]

theorem readNames_eq_nil {op : Operation} (none : op.inputs.isEmpty) : op.readNames = [] := by
  unfold readNames
  rw [List.isEmpty_iff.mp none, List.map_nil]

/-- What does not compute has no inputs. -/
theorem readNames_of_constant {op : Operation} {k : OperatorKind}
    (kind : OperatorKind.ofType? op.type = some k) (constant : k.computes = false)
    (fits : op.inputsFit) : op.readNames = [] := by
  have plain : k.takesOperandsFirst = false := by
    cases k with
    | const => rfl
    | inline => rfl
    | _ => cases constant
  unfold inputsFit at fits
  rw [kind] at fits
  simp only [plain, constant, Bool.false_eq_true, if_false, Bool.not_false, beq_true] at fits
  exact readNames_eq_nil fits

theorem readNamesOf_adds (op : Operation) : readNamesOf op.adds = [] := by
  unfold readNamesOf
  rw [List.flatMap_eq_nil_iff]
  intro call member
  cases call with
  | add _ _ => rfl
  | push ins outs => exact absurd member (op.not_push_mem_adds ins outs)

/-- The code of an operation reads the inputs of the operation. -/
theorem perm_readNamesOf_codeCalls {op : Operation} {k : OperatorKind}
    (kind : OperatorKind.ofType? op.type = some k) (fits : op.inputsFit) :
    (readNamesOf op.codeCalls).Perm op.readNames := by
  unfold codeCalls
  rw [kind]
  dsimp only
  rw [readNamesOf_append, readNamesOf_adds, List.nil_append]
  unfold pushes
  cases computes : k.computes with
  | true =>
    have same : readNamesOf [.push (op.arguments k) op.madeNames] = op.arguments k :=
      List.append_nil _
    rw [if_pos rfl, same]
    exact perm_arguments kind computes fits
  | false =>
    rw [readNames_of_constant kind computes fits]
    exact .nil

/-- An input of the graph reads nothing. -/
theorem readNames_of_isInput {op : Operation} (isInput : op.isInput) (fits : op.inputsFit) :
    op.readNames = [] := by
  have type : op.type = inputType := by simpa [Operation.isInput] using isInput
  have kind : OperatorKind.ofType? op.type = none := by
    rw [type]
    rfl
  unfold inputsFit at fits
  rw [kind] at fits
  exact readNames_eq_nil fits

theorem readNamesOf_inputCalls (op : Operation) : readNamesOf op.inputCalls = [] := by
  unfold readNamesOf inputCalls
  rw [List.flatMap_map, List.flatMap_eq_nil_iff]
  exact fun _ _ => rfl

end Operation

/-- The calls for operations read exactly the inputs of the operations. -/
theorem perm_readNamesOf_callsOf {ops : List Operation} (fits : ∀ op ∈ ops, op.Emittable)
    (inputs : ∀ op ∈ ops, op.inputsFit) :
    (readNamesOf (callsOf ops)).Perm (ops.flatMap Operation.readNames) := by
  have fromInputs : (ops.filter Operation.isInput).flatMap (fun op => readNamesOf op.inputCalls) =
      (ops.filter Operation.isInput).flatMap Operation.readNames := by
    refine List.flatMap_congr fun op member => ?_
    obtain ⟨inside, isInput⟩ := List.mem_filter.mp member
    rw [op.readNamesOf_inputCalls, Operation.readNames_of_isInput isInput (inputs op inside)]
  have fromCode : ((ops.filter fun op => !op.isInput).flatMap fun op =>
      readNamesOf op.codeCalls).Perm
        ((ops.filter fun op => !op.isInput).flatMap Operation.readNames) := by
    refine List.Perm.flatMap_left _ fun op member => ?_
    obtain ⟨inside, notInput⟩ := List.mem_filter.mp member
    obtain ⟨k, kind, _⟩ := (fits op inside).kind (by simpa using notInput)
    exact Operation.perm_readNamesOf_codeCalls kind (inputs op inside)
  unfold callsOf
  rw [readNamesOf_append, readNamesOf_flatMap, readNamesOf_flatMap, fromInputs]
  refine (fromCode.append_left _).trans ?_
  rw [← List.flatMap_append]
  exact (List.filter_append_perm Operation.isInput ops).flatMap_right _

/-! ## Numbers that calls give -/

namespace Operation

theorem plain_int (n : Nat) : (Value.int n).plain = toString n := rfl

/-- The one number that is shown is left out only if it is zero. -/
theorem getD_countText (n : Nat) : (countText (.int n)).getD "0" = toString n := by
  unfold countText
  cases n with
  | zero => rfl
  | succ n =>
    have holds : (Value.int (n + 1 : Nat)).truth? = some true := by
      simp [Value.truth?]
      omega
    rw [if_pos holds]
    exact plain_int (n + 1)

/-- Of several numbers each is shown. -/
theorem countTextAt_list {ts : List Tensor} (uses : String → Nat) {i : Nat}
    (inside : i < ts.length) :
    countTextAt (.list (ts.map fun t => .int (uses t.name))) i =
      some (toString (uses ts[i].name)) := by
  have holds : (Value.list (ts.map fun t => .int (uses t.name))).truth? = some true := by
    cases ts with
    | nil => cases inside
    | cons _ _ => rfl
  unfold countTextAt
  rw [if_pos holds]
  simp [memberOf, Value.members?, pick, inside, shown, plain_int]

variable {op : Operation} {uses : String → Nat}

/-- What is shown for the outputs are the numbers of the notes. -/
theorem countTexts_of_noted
    (noted : Noted op.attrs (.list (op.outputs.map fun t => .int (uses t.name)))) :
    List.Forall₂ (fun t text => text.getD "0" = toString (uses t.name)) op.outputs
      op.countTexts := by
  unfold countTexts
  rw [useCount_of_noted noted, useCounts_of_noted noted]
  split
  case _ t single =>
    rw [single]
    exact .cons (getD_countText _) .nil
  case _ =>
    rw [List.forall₂_iff_get]
    refine ⟨by simp, fun i inside _ => ?_⟩
    simp [countTextAt_list uses inside]

/-- A call that registers an output gives the number of its uses. -/
theorem count_of_mem_adds
    (noted : Noted op.attrs (.list (op.outputs.map fun t => .int (uses t.name))))
    {name : String} {count : Option String} (member : .add name count ∈ op.adds) :
    count.getD "0" = toString (uses name) := by
  have shown := countTexts_of_noted noted
  unfold adds madeNames at member
  generalize op.outputs = ts at shown member
  generalize op.countTexts = texts at shown member
  induction shown with
  | nil => cases member
  | cons here _ ih =>
    rw [List.map_cons, List.zipWith_cons_cons, List.mem_cons] at member
    rcases member with first | later
    · cases first
      exact here
    · exact ih later

theorem count_of_mem_inputCalls (single : op.outputs.length = 1)
    (noted : Noted op.attrs (.list (op.outputs.map fun t => .int (uses t.name))))
    {name : String} {count : Option String} (member : .add name count ∈ op.inputCalls) :
    count.getD "0" = toString (uses name) := by
  obtain ⟨t, only⟩ := List.length_eq_one_iff.mp single
  unfold inputCalls at member
  rw [useCount_of_noted noted, only] at member
  cases List.mem_singleton.mp member
  exact plain_int _

end Operation

/-- The calls for operations give the numbers of the notes. -/
theorem count_of_mem_callsOf {ops : List Operation} {uses : String → Nat}
    (fits : ∀ op ∈ ops, op.Emittable)
    (noted : ∀ op ∈ ops, Noted op.attrs (.list (op.outputs.map fun t => .int (uses t.name))))
    {name : String} {count : Option String} (member : .add name count ∈ callsOf ops) :
    count.getD "0" = toString (uses name) := by
  rcases List.mem_append.mp member with input | code
  · obtain ⟨op, listed, call⟩ := List.mem_flatMap.mp input
    obtain ⟨inside, isInput⟩ := List.mem_filter.mp listed
    exact Operation.count_of_mem_inputCalls ((fits op inside).input isInput) (noted op inside) call
  · obtain ⟨op, listed, call⟩ := List.mem_flatMap.mp code
    obtain ⟨inside, notInput⟩ := List.mem_filter.mp listed
    obtain ⟨k, kind, _⟩ := (fits op inside).kind (by simpa using notInput)
    unfold Operation.codeCalls at call
    rw [kind] at call
    rcases List.mem_append.mp call with add | push
    · exact Operation.count_of_mem_adds (noted op inside) add
    · unfold Operation.pushes at push
      split at push
      · cases List.mem_singleton.mp push
      · cases push

namespace Graph

/-- The order goes through the operations that it lists. -/
theorem perm_orderedOps {g : Graph} (distinct : (g.ops.map Operation.name).Nodup)
    (ordered : g.Ordered g.order) :
    (g.ops.filter fun op => op.name ∈ g.order).Perm g.orderedOps := by
  have once : g.orderedOps.Nodup := by
    refine List.Nodup.of_map Operation.name ?_
    rw [orderedOps, ordered.names_filterMap]
    exact ordered.nodup
  rw [List.perm_ext_iff_of_nodup ((List.Nodup.of_map _ distinct).filter _) once]
  intro op
  rw [List.mem_filter, mem_orderedOps, decide_eq_true_eq]
  constructor
  · intro h
    exact ⟨h.2, find?_of_mem distinct h.1⟩
  · intro h
    exact ⟨mem_of_find? h.2, h.1⟩

/-- The order of a trimmed graph goes through all its operations. -/
theorem Trimmed.perm_orderedOps {g : Graph} (trimmed : g.Trimmed) (ordered : g.Ordered g.order) :
    g.ops.Perm g.orderedOps := by
  have all : (g.ops.filter fun op => op.name ∈ g.order) = g.ops :=
    List.filter_eq_self.mpr fun op member => decide_eq_true (trimmed.listed op member)
  have perm := Graph.perm_orderedOps trimmed.nodup ordered
  rwa [all] at perm

/-- The uses of a tensor are its occurrences among the inputs of the operations of the order. -/
theorem Trimmed.uses_eq_count {g : Graph} (trimmed : g.Trimmed) (ordered : g.Ordered g.order)
    (name : String) : g.uses name = (g.orderedOps.flatMap Operation.readNames).count name :=
  ((trimmed.perm_orderedOps ordered).flatMap_right _).count_eq name

end Graph

/-! ## The emitted function -/

/-- Every tensor of the graph is added, and the number that is given with it, or zero where none is
given, is that of its occurrences among the inputs of all operators. -/
structure CountsUses (g : Graph) (calls : List ContextCall) : Prop where
  every : ∀ op ∈ g.ops, ∀ t ∈ op.outputs, ∃ count, .add t.name count ∈ calls
  right : ∀ name count, .add name count ∈ calls →
    count.getD "0" = toString ((readNamesOf calls).count name)

/-- The calls for a trimmed graph with right notes count uses. -/
theorem countsUses_callsOf {g : Graph} (ordered : g.Ordered g.order) (trimmed : g.Trimmed)
    (counted : g.UseCounted) (fits : ∀ op ∈ g.orderedOps, op.Emittable)
    (inputs : ∀ op ∈ g.orderedOps, op.inputsFit) : CountsUses g (callsOf g.orderedOps) := by
  have all := trimmed.perm_orderedOps ordered
  refine ⟨fun op member t made => ?_, fun name count added => ?_⟩
  · rw [← mem_addedNames, (addedNames_callsOf fits).mem_iff]
    exact List.mem_flatMap.mpr ⟨op, all.mem_iff.mp member, List.mem_map_of_mem made⟩
  · rw [(perm_readNamesOf_callsOf fits inputs).count_eq, ← trimmed.uses_eq_count ordered]
    exact count_of_mem_callsOf fits (fun op member => counted op (all.mem_iff.mpr member)) added

/-- Passes that start with the removal of dropout and in which only inlining and counting follow the
counting of references lead to a function with right reference counts. So the source of every run
that comes to the graph has right reference counts, if the import checks names. -/
theorem emitted_counts_eq_uses [Importer] {quantizer : Quantizer} {r : Request}
    {model graph : String} {e₀ e₁ e₂ : Emission} {site : Site} {nodes : List Node} {g : Graph}
    {methods : List String} {mid tail : List Pass} {target : Target} {comments : Bool}
    {body : List Statement} (keeps : quantizer.KeepsUnmarked)
    (loaded : (loadModel model).runOn e₀.site = (site, .ok nodes))
    (unmarked : ∀ n ∈ nodes, n.Unmarked) (plain : r.options = [])
    (asked : r.methods =
      .list ((.dropout :: mid ++ .refCount :: tail).map fun p => .text p.method))
    (only : ∀ p ∈ tail, p = .inline ∨ p = .refCount)
    (reached : (transformedGraph quantizer r model).runOn e₀ = (e₁, .ok (g, methods)))
    (fitsCode : ∀ op ∈ g.ops, op.FitsCode)
    (emitted : emittedBody target comments g graph e₂ = .ok body) :
    CountsUses g (contextCalls body) ∧
      ∀ (source : Value) (dataDir embedDir path : String) (e e' : Emission), Importer.ChecksNames →
        (generate quantizer r source).runOn e = (e', .ok ()) →
        r.Reaches quantizer source e.site dataDir embedDir path g →
        ∃ file calls, r.model = .text file ∧
          e'.site.disk.SourceReads path (OutputNames.of file path).graph calls ∧
          CountsUses g calls := by
  obtain ⟨_, nodes', _, _, g₀, pipeline, loaded', read, configured, runs⟩ :=
    transformedGraph_ok reached
  rw [loaded] at loaded'
  cases loaded'
  rw [asked, plain, Pipeline.ofMethods_plain] at configured
  cases configured
  have tidy : ∀ op ∈ g₀.ops, Tidy op.attrs := by
    intro op member
    obtain ⟨n, inside, made⟩ := Graph.read_of_mem_ofNodes read member
    exact tidy_of_read (unmarked n inside) made
  obtain ⟨trimmed, counted⟩ :=
    runs.trimmed_and_useCounted keeps only (Graph.ordered_of_ofNodes read) tidy
  have inGraph : ∀ op ∈ g.orderedOps, op.FitsCode := fun op member =>
    fitsCode op (Graph.mem_of_find? (Graph.mem_orderedOps.mp member).2)
  have fits : ∀ op ∈ g.orderedOps, op.Emittable := fun op member =>
    ⟨(inGraph op member).outputs, Graph.unpadded_of_transformedGraph reached member⟩
  have counts : CountsUses g (callsOf g.orderedOps) :=
    countsUses_callsOf (Graph.ordered_of_transformedGraph reached) trimmed counted fits
      fun op member => (inGraph op member).inputs
  constructor
  · rw [contextCalls_emittedBody fits emitted]
    exact counts
  · intro source dataDir embedDir path e e' names run reaches
    obtain ⟨file, _, _, _, isModel, _, reads⟩ :=
      sourceReads_of_generate names run reaches fun op member => (inGraph op member).outputs
    exact ⟨file, _, isModel, reads, counts⟩

/-- The graph of the product of a quantised input with itself, after counting. -/
def countedSquareGraph : Graph :=
  let types (keys : List (String × Int)) (eval : Bool) (counts : List Int) : Entries String Value :=
    keys.map (fun key => (key.1, .attr "type" (.int key.2))) ++ [(deviceKey, .text ""),
      (evaluateKey, .bool eval), (countsKey, .list (counts.map Value.int))]
  let x (id : Nat) : Tensor := ⟨id, "x:0", "x", .float32, some [], 3⟩
  let q (id i : Nat) : Tensor :=
    ⟨id, "q:" ++ toString i, "q", if i = 0 then .quint8 else .float32, some [], 3⟩
  let m (id i : Nat) : Tensor :=
    ⟨id, "m:" ++ toString i, "m", if i = 0 then .qint32 else .float32, some [], 3⟩
  ⟨[⟨134, "x", "Placeholder", [], [x 133], types [("dtype", 1)] false [3], 3⟩,
    ⟨141, "q", "QuantizeV2", [x 135, x 136, x 137], [q 138 0, q 139 1, q 140 2],
      types [("T", 12)] true [2, 2, 2], 3⟩,
    ⟨151, "m", "QuantizedMatMul", [q 142 0, q 143 0, q 144 1, q 145 2, q 146 1, q 147 2],
      [m 148 0, m 149 1, m 150 2],
      types [("T1", 12), ("T2", 12), ("Toutput", 13)] false [0, 0, 0], 3⟩],
   ["x", "q", "m"], ["m"], tensorBackend⟩

/-- What is emitted for the counted product. -/
def countedSquareDraft : Draft :=
  ⟨[.text "x:0"], [.int 3],
   [.of .quantize [("ref_counts", .list ([2, 2, 2].map Value.int)),
      ("inputs", .list (["x:0", "x:0", "x:0"].map Value.text)),
      ("outputs", .list (["q:0", "q:1", "q:2"].map Value.text)), ("out_dtype", .text "uint8_t"),
      ("to_eval", .bool true)],
    .of .matMul [("ref_counts", .list ([0, 0, 0].map Value.int)),
      ("inputs", .list (["q:0", "q:1", "q:2", "q:0", "q:1", "q:2"].map Value.text)),
      ("outputs", .list (["m:0", "m:1", "m:2"].map Value.text)), ("x_dtype", .text "uint8_t"),
      ("w_dtype", .text "uint8_t"), ("out_dtype", .text "int"), ("to_eval", .bool false)]]⟩

attribute [local instance] Importer.strict

theorem generate_countedSquare : ∃ e',
    (generate (fun h => .ok h.nodes) (.ofModel ["dropout", "refcnt"] ["m"]) (.text "m.cpp")).runOn
      (.withModel squareNodes) = (e', .ok ()) ∧
    (Request.ofModel ["dropout", "refcnt"] ["m"]).Reaches (fun h => .ok h.nodes) (.text "m.cpp")
      (Emission.withModel squareNodes).site "data" "data" "m.cpp" countedSquareGraph := by
  obtain ⟨body, stated⟩ : ∃ body, countedSquareDraft.statements "m" = .ok body := by
    simp only [countedSquareDraft, Draft.statements_eq, List.mapM_cons, Fragment.statements_eq]
    exact ⟨_, rfl⟩
  have passed : passedGraph (fun h => .ok h.nodes) (.ofModel ["dropout", "refcnt"] ["m"])
      squareNodes = .ok (countedSquareGraph, ["dropout", "refcnt"]) := rfl
  obtain ⟨e', _, run, _⟩ := generate_withModel (d := countedSquareDraft) passed (by decide)
    (fun _ => ⟨_, Prod.ext rfl rfl, rfl⟩) stated
  exact ⟨e', run, Request.reaches_withModel passed⟩

theorem emitted_counts_eq_uses_square : ∃ e body e',
    (transformedGraph (fun h => .ok h.nodes) (.ofModel ["dropout", "refcnt"] ["m"]) "m.pb").runOn
      (.withModel squareNodes) = (e, .ok (countedSquareGraph, ["dropout", "refcnt"])) ∧
    (∀ op ∈ countedSquareGraph.ops, op.FitsCode) ∧
    emittedBody .inData false countedSquareGraph "m" (.withModel squareNodes) = .ok body ∧
    CountsUses countedSquareGraph (contextCalls body) ∧
    (generate (fun h => .ok h.nodes) (.ofModel ["dropout", "refcnt"] ["m"]) (.text "m.cpp")).runOn
      (.withModel squareNodes) = (e', .ok ()) ∧
    ∃ file calls, (Request.ofModel ["dropout", "refcnt"] ["m"]).model = .text file ∧
      e'.site.disk.SourceReads "m.cpp" (OutputNames.of file "m.cpp").graph calls ∧
      CountsUses countedSquareGraph calls := by
  have done : ((transformedGraph (fun h => .ok h.nodes)
      (.ofModel ["dropout", "refcnt"] ["m"]) "m.pb").runOn (.withModel squareNodes)).2 =
      .ok (countedSquareGraph, ["dropout", "refcnt"]) := rfl
  obtain ⟨e, reached⟩ : ∃ e, (transformedGraph (fun h => .ok h.nodes)
      (.ofModel ["dropout", "refcnt"] ["m"]) "m.pb").runOn (.withModel squareNodes) =
        (e, .ok (countedSquareGraph, ["dropout", "refcnt"])) := ⟨_, Prod.ext rfl done⟩
  have fits : ∀ op ∈ countedSquareGraph.ops, op.FitsCode := by decide
  have added : ((addOperations .inData false countedSquareGraph 0 .empty
      countedSquareGraph.order).runOn (.withModel squareNodes)).2 = .ok countedSquareDraft := rfl
  obtain ⟨body, written⟩ : ∃ body, countedSquareDraft.statements "m" = .ok body := by
    simp only [countedSquareDraft, Draft.statements_eq, List.mapM_cons, Fragment.statements_eq]
    exact ⟨_, rfl⟩
  have emitted := (emittedBody_of_draft added).trans written
  have loaded : (loadModel "m.pb").runOn (Emission.withModel squareNodes).site =
      ((Emission.withModel squareNodes).site, .ok squareNodes) := rfl
  have keeps : Quantizer.KeepsUnmarked fun h => .ok h.nodes := by
    rintro h _ unmarked ⟨⟩
    exact unmarked
  have asked : (Request.ofModel ["dropout", "refcnt"] ["m"]).methods =
      .list (([Pass.dropout] ++ Pass.refCount :: []).map fun p => .text p.method) := rfl
  obtain ⟨e', run, reaches⟩ := generate_countedSquare
  obtain ⟨counts, onDisk⟩ := emitted_counts_eq_uses keeps loaded (by decide) rfl asked
    (List.forall_mem_nil _) reached fits emitted
  exact ⟨e, body, e', reached, fits, emitted, counts, run,
    onDisk _ _ _ _ _ _ Importer.strict_checksNames run reaches⟩

end TensorEmit
