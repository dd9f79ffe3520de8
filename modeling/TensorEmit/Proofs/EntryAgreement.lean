import TensorEmit.Proofs.SourceText

/-!
# Agreement on the entry point

A program declares its entry point in a header and defines it in a source file, and the two texts
are made by two templates. `Code.headerText` and `Code.entryText` spell them out: both name the same
function with the same parameters, as many as the graph has inputs, and the definition first
registers each parameter under the name of the input it stands for.

Only the two templates say anything about the entry point. The code of the operations in between is
inner code (`Code.Inner`): it declares and defines no entry point and registers no parameter.
-/

namespace TensorEmit

namespace Code

/-! ## Texts of an entry point -/

/-- Further parameters, from the `i`-th input on. -/
def moreParameters : Nat → Nat → String
  | _, 0 => ""
  | i, n + 1 => ",Tensor* input_" ++ toString i ++ moreParameters (i + 1) n

/-- The parameters of an entry point with a number of inputs. -/
def parameterList : Nat → String
  | 0 => "Context& ctx"
  | n + 1 => "Context& ctx, Tensor* input_0" ++ moreParameters 1 n

/-- The text of the header of an entry point. -/
def headerText (guard_ graph : String) (inputs : Nat) : String :=
  "#ifndef " ++ guard_ ++ "\n#define " ++ guard_ ++ "\n#include \"uTensor/core/context.hpp\"\n" ++
    "void get_" ++ graph ++ "_ctx(" ++ parameterList inputs ++ ");\n#endif // " ++ guard_

/-- The lines that register inputs with their names and numbers of uses, from the `i`-th on. -/
def inputLines : Nat → List (String × String) → String
  | _, [] => ""
  | i, (name, uses) :: rest =>
    "    ctx.add(input_" ++ toString i ++ ", \"" ++ name ++ "\", " ++ uses ++ ");\n" ++
      inputLines (i + 1) rest

/-- The block that registers inputs, if there are some. -/
def inputBlock : List (String × String) → String
  | [] => ""
  | inputs => "\n\x7b // add tensor for placeholders\n" ++ inputLines 0 inputs ++ "\x7d\n"

/-- The text with which the definition of an entry point begins. -/
def entryText (graph : String) (inputs : List (String × String)) : String :=
  "void get_" ++ graph ++ "_ctx(" ++ parameterList inputs.length ++ ") \x7b\n" ++ inputBlock inputs

theorem moreParameters_succ (i n : Nat) :
    moreParameters i (n + 1) = ",Tensor* input_" ++ toString i ++ moreParameters (i + 1) n := rfl

theorem intercalate_parameters (i n : Nat) :
    ",".intercalate ((List.range' i (n + 1)).map fun i => "Tensor* input_" ++ toString i) =
      "Tensor* input_" ++ toString i ++ moreParameters (i + 1) n := by
  induction n generalizing i with
  | zero => exact String.intercalate_singleton.trans String.append_empty.symm
  | succ n ih =>
    have later := ih (i + 1)
    rw [List.range'_succ, List.map_cons] at later ⊢
    rw [List.range'_succ, List.map_cons, ← String.toList_inj, String.toList_intercalate]
    rw [← String.toList_inj, String.toList_intercalate] at later
    simp only [List.map_cons, List.intercalate_cons_cons] at later ⊢
    rw [later, moreParameters_succ]
    simp

theorem EntryPoint.parameters_eq (e : EntryPoint) : e.parameters = parameterList e.inputs := by
  unfold parameters
  cases e.inputs with
  | zero => rfl
  | succ n =>
    have first : "Context& ctx, " ++ ("Tensor* input_" ++ toString 0) =
        "Context& ctx, Tensor* input_0" := by decide
    rw [if_neg (Nat.succ_ne_zero n), List.range_eq_range', intercalate_parameters,
      ← String.append_assoc, first]
    rfl

theorem textOf_registerInputs (i : Nat) (inputs : List (Value × Value)) :
    textOf (Template.registerInputs i inputs) =
      inputLines i (inputs.map fun e => (e.1.plain, e.2.plain)) := by
  induction inputs generalizing i with
  | nil => rfl
  | cons e rest ih =>
    obtain ⟨name, count⟩ := e
    have first : (Statement.register (.named ("input_" ++ toString i)) name.plain
        (some count.plain) .oneLine).text = "    ctx.add(input_" ++ toString i ++ ", \"" ++
          name.plain ++ "\", " ++ count.plain ++ ");\n" := by
      rw [text_register_oneLine, ← String.toList_inj]
      unfold TensorSource.text usesText
      simp
    show textOf (_ :: Template.registerInputs (i + 1) rest) = _
    rw [textOf_cons, ih, first]
    rfl

/-! ## Inner code -/

/-- Whether a statement says nothing about the entry point. -/
def Statement.isInner : Statement → Bool
  | declareEntry _ | defineEntry _ => false
  | register source _ _ _ => !source.isParameter
  | _ => true

/-- Statements that say nothing about the entry point. -/
def Inner (ss : List Statement) : Prop := ∀ s ∈ ss, s.isInner = true

theorem Template.Writes.isInner {t : Template} {vars : Variables} {s : Statement}
    (writes : t.Writes vars s) : s.isInner = true := by
  cases writes with
  | register inner _ _ => simpa [Statement.isInner] using inner
  | _ => rfl

theorem inner_memberStatements {members : List (List Statement)}
    (inner : ∀ ss ∈ members, Inner ss) : Inner (Template.memberStatements members) := by
  intro s member
  obtain ⟨ss, inside, listed⟩ := List.mem_flatMap.mp member
  rcases List.mem_append.mp listed with own | gap
  · exact inner ss inside s own
  · rw [List.mem_singleton.mp gap]
    rfl

theorem inner_comment {vars : Variables} {members : Except Fault (List (List Statement))}
    {ss : List Statement} (run : Template.comment.statements vars members = .ok ss) : Inner ss := by
  intro s member
  obtain ⟨_, rfl⟩ := Template.line_of_comment run s member
  rfl

end Code

open Code

/-! ## Drafts -/

namespace Operation

/-- An operation is registered as an input under the name of its first output, with the first number
of uses that is noted on it, or zero if none are noted. -/
structure EntersAs (op : Operation) (input : String × String) : Prop where
  name : ∃ out, op.outputs.head? = some out ∧ input.1 = out.name
  unnoted : op.notes.get? "ref_counts" = none → input.2 = "0"
  noted : ∀ counts, op.notes.get? "ref_counts" = some counts →
    ∃ count, firstOf counts = .ok count ∧ input.2 = count.plain
  counted : ∀ n rest, op.notes.get? "ref_counts" = some (.list (.int n :: rest)) →
    input.2 = toString n

theorem entersAs_of_useCount {op : Operation} {out : Tensor} {count : Value}
    (found : op.output 0 = .ok out) (run : op.useCount = .ok count) :
    op.EntersAs (out.name, count.plain) := by
  unfold useCount Options.getD at run
  refine ⟨⟨out, head?_of_output found, rfl⟩, ?_, ?_, ?_⟩
  · intro unnoted
    rw [unnoted] at run
    cases run
    rfl
  · intro counts noted
    rw [noted] at run
    exact ⟨count, run, rfl⟩
  · intro n rest noted
    rw [noted] at run
    cases run
    rfl

end Operation

namespace Draft

/-- The names and numbers of uses under which a draft registers its inputs. -/
def entries (d : Draft) : List (String × String) :=
  (d.inputs.zip d.counts).map fun e => (e.1.plain, e.2.plain)

/-- The inputs of a draft stand for some operations, and all members are inner code. -/
structure Binds (d : Draft) (ops : List Operation) : Prop where
  paired : d.inputs.length = d.counts.length
  inputs : List.Forall₂ Operation.EntersAs ops d.entries
  inner : ∀ f ∈ d.members, ∀ ss, f.statements = .ok ss → Inner ss

theorem binds_empty : Draft.empty.Binds [] := ⟨rfl, .nil, nofun⟩

theorem Binds.length_entries {d : Draft} {ops : List Operation} (binds : d.Binds ops) :
    d.entries.length = d.inputs.length := by
  unfold Draft.entries
  rw [List.length_map, List.length_zip, ← binds.paired, Nat.min_self]

theorem Binds.addInput {d : Draft} {ops : List Operation} {op : Operation} {out : Tensor}
    {count : Value} (binds : d.Binds ops) (found : op.output 0 = .ok out)
    (counted : op.useCount = .ok count) : (d.addInput out.name count).Binds (ops ++ [op]) := by
  have entries : (d.addInput out.name count).entries = d.entries ++ [(out.name, count.plain)] := by
    unfold Draft.entries Draft.addInput
    rw [List.zip_append binds.paired, List.map_append]
    rfl
  refine ⟨?_, ?_, binds.inner⟩
  · simp [Draft.addInput, binds.paired]
  · rw [entries]
    exact List.rel_append binds.inputs (.cons (Operation.entersAs_of_useCount found counted) .nil)

theorem Binds.addMember {d : Draft} {ops : List Operation} {f : Fragment} (binds : d.Binds ops)
    (inner : ∀ ss, f.statements = .ok ss → Inner ss) :
    Binds { d with members := d.members ++ [f] } ops := by
  refine ⟨binds.paired, binds.inputs, ?_⟩
  intro f' member ss stated
  rcases List.mem_append.mp member with earlier | last
  · exact binds.inner f' earlier ss stated
  · rw [List.mem_singleton.mp last] at stated
    exact inner ss stated

end Draft

theorem binds_of_adds {target : Target} {d d' : Draft} {ops : List Operation} {op : Operation}
    {e e' : Emission} (binds : d.Binds ops) (adds : d.Adds target op e d' e') :
    d'.Binds (ops ++ [op].filter Operation.isInput) := by
  cases adds with
  | input isInput found counted =>
    rw [List.filter_cons_of_pos isInput]
    exact binds.addInput found counted
  | code other emitted =>
    rw [List.filter_cons_of_neg (by simp [other]), List.filter_nil, List.append_nil]
    refine binds.addMember fun ss stated s member => ?_
    obtain ⟨t, listed, vars, rfl⟩ := emitOperation_template emitted
    obtain ⟨_, stated⟩ := Fragment.statements_of stated
    exact (Template.writesAll_statements listed stated s member).isInner

/-- The inputs of a draft grow with the operations: each input of the graph adds one. -/
theorem binds_addOperations {target : Target} {comments : Bool} {g : Graph} {names : List String}
    {i : Nat} {d : Draft} {e e' : Emission}
    (run : (addOperations target comments g i .empty names).runOn e = (e', .ok d)) :
    d.Binds ((names.filterMap g.find?).filter Operation.isInput) := by
  refine addOperations_invariant (fun done d _ => d.Binds (done.filter Operation.isInput)) ?_ ?_
    Draft.binds_empty run
  · intro done op d e d' e' _ binds adds
    rw [List.filter_append]
    exact binds_of_adds binds adds
  · intro done op d e i sets _ binds
    refine binds.addMember fun ss stated => ?_
    obtain ⟨_, stated⟩ := Fragment.statements_of stated
    exact inner_comment stated

/-! ## Both texts of a draft -/

namespace Draft

/-- The header declares the entry point with a parameter for each input. -/
theorem header_eq (d : Draft) (names : OutputNames) :
    ∃ guard_, d.header names = .ok (headerText guard_ names.graph d.inputs.length) := by
  obtain ⟨vars, bound, free, named, listed⟩ : ∃ vars,
      contextHeaderVariables (.text names.guard) (.text names.graph) (.list d.inputs) = .ok vars ∧
      reservedNames.any vars.has = false ∧
      vars.get? "graph_name" = some (.text names.graph) ∧
      vars.get? "placeholders" = some (.list d.inputs) := by
    refine ⟨_, rfl, ?_, rfl, rfl⟩
    simp [reservedNames, Entries.has, Entries.get?]
  refine ⟨"_" ++ vars.show "header_guard", ?_⟩
  unfold header Fragment.text
  rw [bound, ok_bind, Fragment.statements_eq, free, if_neg Bool.false_ne_true,
    Template.statements, Template.contextHeaderStatements, Template.entryPoint_eq named listed]
  generalize "_" ++ vars.show "header_guard" = guard_
  refine congrArg Except.ok ?_
  unfold headerText
  rw [← EntryPoint.parameters_eq ⟨names.graph, d.inputs.length⟩, ← String.toList_inj]
  simp only [textOf_cons]
  unfold Statement.text EntryPoint.head
  simp [textOf]

theorem Binds.textOf_inputStatements {d : Draft} {ops : List Operation} (binds : d.Binds ops) :
    textOf d.inputStatements = inputBlock d.entries := by
  have paired := binds.paired
  unfold Draft.inputStatements entries
  cases inputs : d.inputs with
  | nil => rfl
  | cons v vs =>
    cases counts : d.counts with
    | nil =>
      rw [inputs, counts] at paired
      cases paired
    | cons c cs =>
      rw [if_neg (List.cons_ne_nil v vs), textOf_append, textOf_append, textOf_registerInputs]
      rfl

/-- The definition of the entry point begins with its inputs, and inner code follows. -/
theorem Binds.statements {d : Draft} {ops : List Operation} {graph : String}
    {body : List Statement} (binds : d.Binds ops) (run : d.statements graph = .ok body) :
    ∃ inner, textOf body = entryText graph d.entries ++ textOf inner ∧ Inner inner := by
  obtain ⟨sss, made, rfl⟩ := statements_ok run
  have opened : textOf [.defineEntry ⟨graph, d.inputs.length⟩] =
      "void get_" ++ graph ++ "_ctx(" ++ parameterList d.entries.length ++ ") \x7b\n" := by
    rw [binds.length_entries, ← EntryPoint.parameters_eq ⟨graph, d.inputs.length⟩, textOf_cons,
      ← String.toList_inj]
    unfold Statement.text EntryPoint.head
    simp [textOf]
  refine ⟨Template.memberStatements sss ++ [.closeBlock], ?_, ?_⟩
  · rw [List.append_assoc, textOf_append, textOf_append, binds.textOf_inputStatements, opened]
    rfl
  · refine List.forall_mem_append.mpr ⟨inner_memberStatements fun ss member => ?_, ?_⟩
    · obtain ⟨f, inside, stated⟩ := exists_of_mem_mapM made member
      exact binds.inner f inside ss stated
    · exact List.forall_mem_singleton.mpr rfl

end Draft

/-! ## Whole runs -/

/-- A source file that is named as one is not at the place of the header. -/
theorem Disk.Takes.header_ne_source {d d' : Disk} {model stem : String} {p q : Place}
    (header : d.Takes (OutputNames.of model (stem ++ ".cpp")).header p)
    (source : d'.Takes (stem ++ ".cpp") q) : p ≠ q := by
  intro same
  subst same
  have isHeader := header.getLast?_append (by decide) (by decide)
  have isSource := source.getLast?_append (by decide) (by decide)
  have names := congrArg String.toList (Option.some.inj (isHeader.symm.trans isSource))
  rw [String.toList_append, String.toList_append] at names
  exact absurd (List.append_inj_right' names rfl) (by decide)

/-- The header and the source of a program agree on its entry point: it has a parameter for each
input of the graph in the order of evaluation, and the source registers each parameter for its
input. The header is only lost where the source itself was written over it. -/
theorem header_agrees_with_source [Importer] {quantizer : Quantizer} {r : Request} {source : Value}
    {e e' : Emission} (run : (generate quantizer r source).runOn e = (e', .ok ())) :
    ∃ dataDir embedDir path model g guard_ hs inputs inner p q,
      r.Reaches quantizer source e.site dataDir embedDir path g ∧ r.model = .text model ∧
      e'.site.disk.Takes (OutputNames.of model path).header p ∧ e'.site.disk.Takes path q ∧
      ((∃ stem, path = stem ++ ".cpp") → p ≠ q) ∧
      (p ≠ q → e'.site.disk.files.get? p = some (.text ("// Auto generated by utensor-cli\n\n" ++
        headerText guard_ (OutputNames.of model path).graph inputs.length))) ∧
      e'.site.disk.files.get? q = some (.text ("// Auto generated by utensor-cli\n\n" ++
        includeLines hs ++ "\n\n" ++ entryText (OutputNames.of model path).graph inputs ++
          textOf inner)) ∧
      Inner inner ∧
      List.Forall₂ Operation.EntersAs (g.orderedOps.filter Operation.isInput) inputs := by
  obtain ⟨dataDir, site, embedDir, model, path, _, isDir, prepared, embedded, found, rfl, ran⟩ :=
    generate_ok_iff.mp run
  obtain ⟨g, methods, e₁, e₂, d, e₃, transformed, _, added, written⟩ :=
    generateFromModel_ok_iff.mp ran
  obtain ⟨nodes, read, passed⟩ := passedGraph_of_transformedGraph transformed
  have binds : d.Binds (g.orderedOps.filter Operation.isInput) := binds_addOperations added
  obtain ⟨_, e₄, _, programmed⟩ := Emit.runOn_bind_ok_iff.mp written
  obtain ⟨h, p, body, q, made, header, stated, atSource, rfl⟩ := writeProgram_ok_iff.mp programmed
  obtain ⟨guard_, isHeader⟩ := d.header_eq (.of model path)
  cases isHeader.symm.trans made
  obtain ⟨inner, isText, isInner⟩ := binds.statements stated
  refine ⟨dataDir, embedDir, path, model, g, guard_,
    Headers.addAll [] (e₄.sets.of (.builtIn .context)), d.entries, inner, p, q,
    ⟨isDir, embedded, rfl, model, site, nodes, methods, modelPath_ok found, prepared, read, passed⟩,
    modelPath_ok found, (header.put p _).put q _, (atSource.put p _).put q _, ?_, ?_, ?_, isInner,
    binds.inputs⟩
  · rintro ⟨stem, rfl⟩
    exact header.header_ne_source atSource
  · intro apart
    show Entries.get? (Disk.put _ q _).files p = _
    rw [Disk.get?_put_of_ne _ _ apart, Disk.get?_put_self, binds.length_entries]
    rfl
  · rw [String.append_assoc, ← isText, ← sourceText_eq]
    exact Disk.get?_put_self _ _ _

/-- A sum of two inputs to which the second one is added once more. -/
def twoInputNodes : List Node :=
  let node (name type : String) (inputs : List String) : Node :=
    ⟨name, type, inputs, .text "", [], [⟨.float32, some []⟩]⟩
  [node "a" "Placeholder" [], node "b" "Placeholder" [], node "t" "Add" ["a", "b"],
   node "s" "Add" ["t", "b"]]

/-- The graph of this sum after counting. -/
def twoInputGraph : Graph :=
  let tensor (id : Nat) (name : String) : Tensor := ⟨id, name ++ ":0", name, .float32, some [], 1⟩
  let notes (eval : Bool) (count : Int) : Entries String Value :=
    [(deviceKey, .text ""), (evaluateKey, .bool eval), (countsKey, .list [.int count])]
  ⟨[⟨13, "a", "Placeholder", [], [tensor 12 "a"], notes false 1, 1⟩,
    ⟨15, "b", "Placeholder", [], [tensor 14 "b"], notes false 2, 1⟩,
    ⟨19, "t", "Add", [tensor 16 "a", tensor 17 "b"], [tensor 18 "t"], notes true 1, 1⟩,
    ⟨23, "s", "Add", [tensor 20 "t", tensor 21 "b"], [tensor 22 "s"], notes false 0, 1⟩],
   ["a", "b", "t", "s"], ["s"], tensorBackend⟩

/-- What is emitted for this sum. -/
def twoInputDraft : Draft :=
  let sum (counted : Variables) (inputs : List String) (output : String) (eval : Bool) : Fragment :=
    .of .add (counted ++ [("in_dtype", .text "float"), ("out_dtype", .text "float"),
      ("inputs", .list (inputs.map Value.text)), ("output", .text output),
      ("to_eval", .bool eval)])
  ⟨[.text "a:0", .text "b:0"], [.int 1, .int 2],
   [sum [("ref_count", .int 1)] ["a:0", "b:0"] "t:0" true, sum [] ["t:0", "b:0"] "s:0" false]⟩

attribute [local instance] Importer.strict

theorem header_agrees_with_source_twoInputs : ∃ e',
    (generate (fun h => .ok h.nodes) (.ofModel ["refcnt"] ["s"]) (.text "m.cpp")).runOn
      (.withModel twoInputNodes) = (e', .ok ()) ∧
    ∃ dataDir embedDir path model g guard_ hs inputs inner p q,
      (Request.ofModel ["refcnt"] ["s"]).Reaches (fun h => .ok h.nodes) (.text "m.cpp")
        (Emission.withModel twoInputNodes).site dataDir embedDir path g ∧
      (Request.ofModel ["refcnt"] ["s"]).model = .text model ∧
      e'.site.disk.Takes (OutputNames.of model path).header p ∧ e'.site.disk.Takes path q ∧
      ((∃ stem, path = stem ++ ".cpp") → p ≠ q) ∧
      (p ≠ q → e'.site.disk.files.get? p = some (.text ("// Auto generated by utensor-cli\n\n" ++
        headerText guard_ (OutputNames.of model path).graph inputs.length))) ∧
      e'.site.disk.files.get? q = some (.text ("// Auto generated by utensor-cli\n\n" ++
        includeLines hs ++ "\n\n" ++ entryText (OutputNames.of model path).graph inputs ++
          textOf inner)) ∧
      Inner inner ∧
      List.Forall₂ Operation.EntersAs (g.orderedOps.filter Operation.isInput) inputs := by
  obtain ⟨body, stated⟩ : ∃ body, twoInputDraft.statements "m" = .ok body := by
    simp only [twoInputDraft, Draft.statements_eq, List.mapM_cons, Fragment.statements_eq]
    exact ⟨_, rfl⟩
  have passed : passedGraph (fun h => .ok h.nodes) (.ofModel ["refcnt"] ["s"]) twoInputNodes =
      .ok (twoInputGraph, ["refcnt"]) := rfl
  obtain ⟨e', _, run, _⟩ := generate_withModel (d := twoInputDraft) passed (by decide)
    (fun _ => ⟨_, Prod.ext rfl rfl, rfl⟩) stated
  exact ⟨e', run, header_agrees_with_source run⟩

end TensorEmit
