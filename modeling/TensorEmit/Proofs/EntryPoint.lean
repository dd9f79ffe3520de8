import TensorEmit.Proofs.OperatorCalls

/-!
# Calls of the entry point

The emitted function first adds the inputs of the graph and then runs the code of all other
operations, both in the order of evaluation. `contextCalls_emittedBody` puts its calls on the
context together from those of the operations.

`Draft.Adds` says what adding one operation comes to, and `addOperations_invariant` that whatever it
keeps holds once all operations are added.
-/

namespace TensorEmit

open Code

namespace Operation

/-- Whether an operation stands for an input of the graph. -/
def isInput (op : Operation) : Bool := op.type = inputType

/-- How many outputs the code for a type registers, if the type is supported. -/
def registeredOutputs (type : String) : Option Nat :=
  if type = inputType then some 1 else (OperatorKind.ofType? type).map OperatorKind.outputCount

/-- The calls that add an input of the graph. -/
def inputCalls (op : Operation) : List ContextCall :=
  op.outputs.map fun t => .add t.name (op.useCount.toOption.map Value.plain)

/-- The calls of the code of an operation. -/
def codeCalls (op : Operation) : List ContextCall :=
  match OperatorKind.ofType? op.type with
  | some k => op.adds ++ op.pushes k
  | none => []

/-- An operation of a supported type that fits its code. -/
structure Emittable (op : Operation) : Prop where
  arity : registeredOutputs op.type = some op.outputs.length
  unpadded : ∀ s ∈ op.readNames, Text.Unpadded s

theorem Emittable.input {op : Operation} (fits : op.Emittable) (isInput : op.isInput) :
    op.outputs.length = 1 := by
  have arity := fits.arity
  unfold registeredOutputs at arity
  rw [if_pos (by simpa [Operation.isInput] using isInput)] at arity
  exact (Option.some.inj arity).symm

theorem Emittable.kind {op : Operation} (fits : op.Emittable) (notInput : op.isInput = false) :
    ∃ k, OperatorKind.ofType? op.type = some k ∧ op.outputs.length = k.outputCount := by
  have arity := fits.arity
  unfold registeredOutputs at arity
  rw [if_neg (by simpa [Operation.isInput] using notInput), Option.map_eq_some_iff] at arity
  obtain ⟨k, kind, count⟩ := arity
  exact ⟨k, kind, count.symm⟩

end Operation

/-! ## Drafts -/

theorem Code.Template.entryPoint_eq {vars : Variables} {graph : String} {inputs : List Value}
    (named : vars.get? "graph_name" = some (.text graph))
    (listed : vars.get? "placeholders" = some (.list inputs)) :
    entryPoint vars = .ok ⟨graph, inputs.length⟩ := by
  have test : vars.test "placeholders" = .ok (!inputs.isEmpty) := by
    unfold Variables.test
    rw [listed]
    rfl
  unfold entryPoint
  rw [test, ok_bind, show_of_text named]
  cases inputs with
  | nil => rfl
  | cons v vs =>
    have each : vars.each "placeholders" = .ok (v :: vs) := by
      unfold Variables.each
      rw [listed]
      rfl
    rw [each]
    rfl

namespace Draft

/-- The calls that add the inputs of a draft. -/
def inputCalls (d : Draft) : List ContextCall :=
  List.zipWith (fun name count => .add name.plain (some count.plain)) d.inputs d.counts

theorem contextCalls_registerInputs (i : Nat) (inputs : List (Value × Value)) :
    contextCalls (Template.registerInputs i inputs) =
      inputs.map fun e => .add e.1.plain (some e.2.plain) := by
  induction inputs generalizing i with
  | nil => rfl
  | cons e rest ih =>
    obtain ⟨name, count⟩ := e
    rw [Template.registerInputs, contextCalls_cons, ih]
    rfl

theorem statements_eq (d : Draft) (graph : String) :
    d.statements graph =
      Template.contextStatements (d.container graph).vars (d.members.mapM Fragment.statements) := by
  have free : ("snippets" :: reservedNames).any (Entries.has (d.container graph).vars) = false := by
    simp [reservedNames, container, Fragment.of, Entries.has, Entries.get?]
  have found : (d.container graph).findTemplate = .ok .context := by
    rw [container, Fragment.findTemplate_of]
  unfold statements Fragment.statementsAround
  rw [found, ok_bind, free]
  rfl

/-- The statements that register the inputs of a draft. -/
def inputStatements (d : Draft) : List Statement :=
  if d.inputs = [] then []
  else [.line "", .line "\x7b // add tensor for placeholders"] ++
    Template.registerInputs 0 (d.inputs.zip d.counts) ++ [.line "\x7d"]

/-- The emitted function registers the inputs and then has the code of its members. -/
theorem statements_ok {d : Draft} {graph : String} {body : List Statement}
    (run : d.statements graph = .ok body) :
    ∃ sss, d.members.mapM Fragment.statements = .ok sss ∧
      body = [.defineEntry ⟨graph, d.inputs.length⟩] ++ d.inputStatements ++
        Template.memberStatements sss ++ [.closeBlock] := by
  rw [statements_eq] at run
  simp only [Template.contextStatements, bind_eq_ok_iff] at run
  obtain ⟨entry, isEntry, some, test, run⟩ := run
  rw [Template.entryPoint_eq rfl rfl] at isEntry
  cases isEntry
  have isSome : (!d.inputs.isEmpty) = some := Except.ok.inj test
  unfold inputStatements
  cases some with
  | false =>
    have none : d.inputs = [] := by simpa using isSome
    simp only [Bool.false_eq_true, if_false, bind_eq_ok_iff, pure_eq_ok_iff] at run
    obtain ⟨_, rfl, sss, made, rfl⟩ := run
    exact ⟨sss, made, by rw [if_pos none]⟩
  | true =>
    have present : d.inputs ≠ [] := by simpa using isSome
    simp only [if_true, bind_eq_ok_iff, pure_eq_ok_iff] at run
    obtain ⟨_, _, names, listed, counts, counted, _, rfl, sss, made, rfl⟩ := run
    cases listed
    cases counted
    exact ⟨sss, made, by rw [if_neg present]⟩

theorem contextCalls_inputStatements (d : Draft) :
    contextCalls d.inputStatements = d.inputCalls := by
  have calls : d.inputCalls = (d.inputs.zip d.counts).map fun e =>
      .add e.1.plain (some e.2.plain) := by
    rw [List.zip_eq_zipWith, List.map_zipWith]
    rfl
  rw [calls]
  unfold inputStatements
  split
  case isTrue none => simp [none]
  case isFalse => simp [Statement.call?, contextCalls_registerInputs]

/-- The emitted function adds the inputs and then runs its members. -/
theorem statements_calls {d : Draft} {graph : String} {body : List Statement}
    (run : d.statements graph = .ok body) :
    ∃ sss, d.members.mapM Fragment.statements = .ok sss ∧
      contextCalls body = d.inputCalls ++ sss.flatMap contextCalls := by
  obtain ⟨sss, made, rfl⟩ := statements_ok run
  refine ⟨sss, made, ?_⟩
  simp [Statement.call?, contextCalls_inputStatements, contextCalls_memberStatements]

/-- The header of an entry point can always be written. -/
theorem header_ok (d : Draft) (names : OutputNames) : ∃ h, d.header names = .ok h := by
  obtain ⟨vars, bound, free, ss, stated⟩ : ∃ vars,
      contextHeaderVariables (.text names.guard) (.text names.graph) (.list d.inputs) = .ok vars ∧
      reservedNames.any vars.has = false ∧
      ∃ ss, Template.contextHeaderStatements vars = .ok ss := by
    refine ⟨_, rfl, ?_, ?_⟩
    · simp [reservedNames, Entries.has, Entries.get?]
    · unfold Template.contextHeaderStatements Template.entryPoint
      cases d.inputs with
      | nil => exact ⟨_, rfl⟩
      | cons v vs => exact ⟨_, rfl⟩
  refine ⟨textOf ss, ?_⟩
  unfold header Fragment.text
  rw [bound, ok_bind, Fragment.statements_eq, free, if_neg Bool.false_ne_true,
    Template.statements, stated]
  rfl

end Draft

/-- The header of inlined constants is made of the definitions of their arrays. -/
theorem weightsText_eq (ws : List Fragment) : weightsText ws =
    textOf <$> Template.memberStatements <$> ws.mapM Fragment.statements := by
  have found : weightsFragment.findTemplate = .ok .weights := by
    rw [weightsFragment, Fragment.findTemplate_of]
  unfold weightsText Fragment.statementsAround
  rw [found]
  rfl

/-! ## Adding operations -/

theorem addMember_ok {d d' : Draft} {f : Fragment} {e e' : Emission}
    (run : (addMember d f).runOn e = (e', .ok d')) :
    ∃ sets, e' = { e with sets } ∧ d' = { d with members := d.members ++ [f] } := by
  unfold addMember at run
  simp only [Emit.runOn_bind_ok_iff, Emit.runOn_get_ok_iff, Emit.runOn_lift_ok_iff,
    Emit.runOn_set_ok_iff, Emit.runOn_pure_ok_iff] at run
  obtain ⟨_, _, ⟨rfl, rfl⟩, _, _, ⟨rfl, _⟩, _, _, rfl, rfl, rfl⟩ := run
  exact ⟨_, rfl, rfl⟩

/-- What adding an operation to a draft comes to: an input of the graph becomes an argument, and any
other operation adds the fragment that is emitted for it. -/
inductive Draft.Adds (target : Target) (op : Operation) (d : Draft) (e : Emission) :
    Draft → Emission → Prop
  | input {out : Tensor} {count : Value} (isInput : op.isInput = true)
      (found : op.output 0 = .ok out) (counted : op.useCount = .ok count) :
      Adds target op d e (d.addInput out.name count) e
  | code {f : Fragment} {e₁ : Emission} {sets : HeaderSets} (other : op.isInput = false)
      (emitted : (emitOperation target op).runOn e = (e₁, .ok f)) :
      Adds target op d e { d with members := d.members ++ [f] } { e₁ with sets }

theorem adds_of_addOperation {target : Target} {d d' : Draft} {op : Operation} {e e' : Emission}
    (run : (addOperation target d op).runOn e = (e', .ok d')) : d.Adds target op e d' e' := by
  unfold addOperation at run
  split at run
  case isTrue isInput =>
    simp only [Emit.runOn_bind_ok_iff, Emit.runOn_lift_ok_iff, Emit.runOn_pure_ok_iff] at run
    obtain ⟨out, _, ⟨rfl, found⟩, count, _, ⟨rfl, counted⟩, rfl, rfl⟩ := run
    exact .input (decide_eq_true isInput) found counted
  case isFalse other =>
    obtain ⟨f, e₁, emitted, added⟩ := Emit.runOn_bind_ok_iff.mp run
    obtain ⟨sets, rfl, rfl⟩ := addMember_ok added
    exact .code (decide_eq_false other) emitted

/-- Operations are added one after the other, each with its comment behind it. -/
theorem addOperations_cons_ok_iff {target : Target} {comments : Bool} {g : Graph} {i : Nat}
    {d d' : Draft} {name : String} {rest : List String} {e e' : Emission} :
    (addOperations target comments g i d (name :: rest)).runOn e = (e', .ok d') ↔
      ∃ op d₁ e₁ d₂ e₂, g.find? name = some op ∧
        (addOperation target d op).runOn e = (e₁, .ok d₁) ∧
        (if comments then addMember d₁ (operationComment i name)
          else pure d₁ : Emit Draft).runOn e₁ = (e₂, .ok d₂) ∧
        (addOperations target comments g (i + 1) d₂ rest).runOn e₂ = (e', .ok d') := by
  have commented : ∀ d₁ e₁, (if comments then do
        let d ← addMember d₁ (operationComment i name)
        addOperations target comments g (i + 1) d rest
      else do
        let d ← pure d₁
        addOperations target comments g (i + 1) d rest : Emit Draft).runOn e₁ = (e', .ok d') ↔
      ∃ d₂ e₂,
        (if comments then addMember d₁ (operationComment i name)
          else pure d₁ : Emit Draft).runOn e₁ = (e₂, .ok d₂) ∧
        (addOperations target comments g (i + 1) d₂ rest).runOn e₂ = (e', .ok d') := by
    intro d₁ e₁
    cases comments with
    | false => exact Emit.runOn_bind_ok_iff
    | true => exact Emit.runOn_bind_ok_iff
  rw [addOperations]
  simp only [Emit.runOn_bind_ok_iff, Emit.runOn_lift_ok_iff, Graph.find_eq_ok_iff, commented]
  constructor
  · rintro ⟨op, _, ⟨rfl, found⟩, d₁, e₁, first, d₂, e₂, comment, later⟩
    exact ⟨op, d₁, e₁, d₂, e₂, found, first, comment, later⟩
  · rintro ⟨op, d₁, e₁, d₂, e₂, found, first, comment, later⟩
    exact ⟨op, e, ⟨rfl, found⟩, d₁, e₁, first, d₂, e₂, comment, later⟩

/-- What holds of the operations so far, and is kept by a further operation and by a comment, holds
once all operations are added. -/
theorem addOperations_invariant {target : Target} {comments : Bool} {g : Graph}
    {names : List String} (Inv : List Operation → Draft → Emission → Prop)
    (operation : ∀ {done op} {d : Draft} {e d' e'}, op ∈ names.filterMap g.find? → Inv done d e →
      d.Adds target op e d' e' → Inv (done ++ [op]) d' e')
    (comment : ∀ {done op d e} (i : Nat) (sets : HeaderSets), op ∈ names.filterMap g.find? →
      Inv done d e →
      Inv done { d with members := d.members ++ [operationComment i op.name] } { e with sets })
    {i : Nat} {d d' : Draft} {e e' : Emission} (start : Inv [] d e)
    (run : (addOperations target comments g i d names).runOn e = (e', .ok d')) :
    Inv (names.filterMap g.find?) d' e' := by
  -- The induction is on the names that are left, whatever operations are done already.
  suffices general : ∀ (done : List Operation) {i : Nat} {d : Draft} {e : Emission}, Inv done d e →
      (addOperations target comments g i d names).runOn e = (e', .ok d') →
      Inv (done ++ names.filterMap g.find?) d' e' from general [] start run
  clear start run
  induction names with
  | nil =>
    intro done i d e start run
    rw [addOperations, Emit.runOn_pure_ok_iff] at run
    obtain ⟨rfl, rfl⟩ := run
    rw [List.filterMap_nil, List.append_nil]
    exact start
  | cons name rest ih =>
    intro done i d e start run
    obtain ⟨op, d₁, e₁, d₂, e₂, found, first, commented, later⟩ := addOperations_cons_ok_iff.mp run
    rw [List.filterMap_cons_some found] at operation comment ⊢
    cases Graph.find?_name found
    have added := operation List.mem_cons_self start (adds_of_addOperation first)
    have next : Inv (done ++ [op]) d₂ e₂ := by
      cases comments with
      | false =>
        obtain ⟨rfl, rfl⟩ := Emit.runOn_pure_ok_iff.mp commented
        exact added
      | true =>
        obtain ⟨sets, rfl, rfl⟩ := addMember_ok commented
        exact comment i sets List.mem_cons_self added
    rw [List.append_cons]
    exact ih (fun member => operation (List.mem_cons_of_mem op member))
      (fun i sets member => comment i sets (List.mem_cons_of_mem op member)) _ next later

/-! ## Calls of what is added -/

/-- A draft grown by calls: by those that add inputs, and by those of further members. -/
structure Draft.Grown (d d' : Draft) (inputs code : List ContextCall) : Prop where
  inputs : d'.inputCalls = d.inputCalls ++ inputs
  paired : d'.inputs.length = d'.counts.length
  members : ∀ sss', d'.members.mapM Fragment.statements = .ok sss' →
    ∃ sss, d.members.mapM Fragment.statements = .ok sss ∧
      sss'.flatMap contextCalls = sss.flatMap contextCalls ++ code

theorem Draft.Grown.refl {d : Draft} (paired : d.inputs.length = d.counts.length) :
    d.Grown d [] [] :=
  ⟨(List.append_nil _).symm, paired, fun sss made => ⟨sss, made, (List.append_nil _).symm⟩⟩

theorem Draft.Grown.trans {d d₁ d₂ : Draft} {inputs inputs' code code' : List ContextCall}
    (first : d.Grown d₁ inputs code) (second : d₁.Grown d₂ inputs' code') :
    d.Grown d₂ (inputs ++ inputs') (code ++ code') := by
  refine ⟨?_, second.paired, ?_⟩
  · rw [second.inputs, first.inputs, List.append_assoc]
  · intro sss₂ made₂
    obtain ⟨sss₁, made₁, calls₁⟩ := second.members sss₂ made₂
    obtain ⟨sss, made, calls⟩ := first.members sss₁ made₁
    exact ⟨sss, made, by rw [calls₁, calls, List.append_assoc]⟩

/-- A further member adds its own calls. -/
theorem Draft.grown_addMember {d : Draft} {f : Fragment} {code : List ContextCall}
    (paired : d.inputs.length = d.counts.length)
    (calls : ∀ ss, f.statements = .ok ss → contextCalls ss = code) :
    d.Grown { d with members := d.members ++ [f] } [] code := by
  refine ⟨(List.append_nil _).symm, paired, ?_⟩
  intro sss' made
  rw [List.mapM_append] at made
  simp only [bind_eq_ok_iff, pure_eq_ok_iff, List.mapM_cons, List.mapM_nil] at made
  obtain ⟨sss, front, _, ⟨ss, last, _, rfl, rfl⟩, rfl⟩ := made
  refine ⟨sss, front, ?_⟩
  rw [List.flatMap_append, List.flatMap_singleton, calls ss last]

/-- An operation grows the draft by its calls. -/
theorem grown_of_adds {target : Target} {d d' : Draft} {op : Operation} {e e' : Emission}
    (fits : op.Emittable) (paired : d.inputs.length = d.counts.length)
    (adds : d.Adds target op e d' e') :
    d.Grown d' (([op].filter Operation.isInput).flatMap Operation.inputCalls)
      (([op].filter fun op => !op.isInput).flatMap Operation.codeCalls) := by
  cases adds with
  | input isInput found counted =>
    have one := fits.input isInput
    refine ⟨?_, ?_, fun sss' made => ⟨sss', made, by simp [isInput]⟩⟩
    · unfold Draft.inputCalls Draft.addInput
      rw [List.zipWith_append paired]
      simp [isInput, Operation.inputCalls, Operation.output_zero found one, counted, Value.plain,
        Except.toOption]
    · simp [Draft.addInput, paired]
  | code other emitted =>
    obtain ⟨k, kind, arity⟩ := fits.kind other
    rw [List.filter_cons_of_neg (by simp [other]), List.filter_cons_of_pos (by simp [other])]
    refine Draft.grown_addMember paired fun ss made => ?_
    rw [emitOperation_calls kind arity fits.unpadded emitted made]
    simp [Operation.codeCalls, kind]

/-- The comment behind an operation makes no calls. -/
theorem grown_comment {d : Draft} (paired : d.inputs.length = d.counts.length) (i : Nat)
    (name : String) :
    d.Grown { d with members := d.members ++ [operationComment i name] } [] [] := by
  refine Draft.grown_addMember paired fun ss made => ?_
  obtain ⟨_, made⟩ := Fragment.statements_of made
  exact Template.contextCalls_comment made

/-- The calls that are emitted for operations: those for inputs of the graph come first. -/
def callsOf (ops : List Operation) : List ContextCall :=
  (ops.filter Operation.isInput).flatMap Operation.inputCalls ++
    (ops.filter fun op => !op.isInput).flatMap Operation.codeCalls

/-- Operations grow the draft by their calls, one after the other. -/
theorem grown_addOperations {target : Target} {comments : Bool} {g : Graph} {names : List String}
    (fits : ∀ op ∈ names.filterMap g.find?, op.Emittable) {i : Nat} {d d' : Draft}
    {e e' : Emission} (paired : d.inputs.length = d.counts.length)
    (run : (addOperations target comments g i d names).runOn e = (e', .ok d')) :
    d.Grown d'
      (((names.filterMap g.find?).filter Operation.isInput).flatMap Operation.inputCalls)
      (((names.filterMap g.find?).filter fun op => !op.isInput).flatMap Operation.codeCalls) := by
  refine addOperations_invariant (fun done d' _ => d.Grown d'
    ((done.filter Operation.isInput).flatMap Operation.inputCalls)
    ((done.filter fun op => !op.isInput).flatMap Operation.codeCalls)) ?_ ?_ (.refl paired) run
  · intro done op d₁ e₁ d₂ e₂ member grown adds
    rw [List.filter_append, List.flatMap_append, List.filter_append, List.flatMap_append]
    exact grown.trans (grown_of_adds (fits op member) grown.paired adds)
  · intro done op d₁ e₁ i sets _ grown
    simpa using grown.trans (grown_comment grown.paired i op.name)

/-- The statements of the function that is emitted for a graph. -/
def emittedBody (target : Target) (comments : Bool) (g : Graph) (graph : String) (e : Emission) :
    Except Fault (List Statement) := do
  let d ← ((addOperations target comments g 0 .empty g.order).runOn e).2
  d.statements graph

theorem emittedBody_of_draft {target : Target} {comments : Bool} {g : Graph} {graph : String}
    {e : Emission} {d : Draft}
    (added : ((addOperations target comments g 0 .empty g.order).runOn e).2 = .ok d) :
    emittedBody target comments g graph e = d.statements graph := by
  unfold emittedBody
  rw [added, ok_bind]

/-- The calls of the emitted function: it adds the inputs of the graph and then makes the calls of
all other operations, in the order of evaluation. -/
theorem contextCalls_emittedBody {target : Target} {comments : Bool} {g : Graph} {graph : String}
    {e : Emission} {body : List Statement} (fits : ∀ op ∈ g.orderedOps, op.Emittable)
    (run : emittedBody target comments g graph e = .ok body) :
    contextCalls body = callsOf g.orderedOps := by
  unfold emittedBody at run
  rw [bind_eq_ok_iff] at run
  obtain ⟨d, added, made⟩ := run
  have grown := grown_addOperations fits rfl (Prod.ext rfl added)
  obtain ⟨sss', members, calls⟩ := Draft.statements_calls made
  obtain ⟨sss, none, later⟩ := grown.members sss' members
  cases none
  rw [calls, grown.inputs, later]
  rfl

end TensorEmit
