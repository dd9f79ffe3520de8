import TensorEmit.Code.Fragment
import TensorEmit.Proofs.Outcome
import TensorEmit.Proofs.Texts

/-!
# Calls on the context

Emitted code acts on its context in two ways: it adds a tensor under a name, and it pushes an
operator that reads and writes tensors by name. `contextCalls` reads the calls off a list of
statements. The lemmas of this module give the calls of every template from what its variables
hold: `TensorVariables`, `SingleVariables` and `ListVariables` say so for templates that only add a
tensor, that compute one output, and that compute several.
-/

namespace TensorEmit

namespace Code

/-! ## Calls -/

/-- A call on the context. -/
inductive ContextCall where
  /-- Registers a tensor, with the number of its uses if that is given. -/
  | add (name : String) (count : Option String)
  /-- Pushes an operator that reads and writes tensors. -/
  | push (inputs outputs : List String)
  deriving DecidableEq, Repr

/-- The call that a statement makes. -/
def Statement.call? : Statement → Option ContextCall
  | .register _ name count _ => some (.add name count)
  | .compute _ inputs outputs _ => some (.push inputs outputs)
  | _ => none

/-- The calls that statements make, in order. -/
def contextCalls (ss : List Statement) : List ContextCall := ss.filterMap Statement.call?

@[simp] theorem contextCalls_nil : contextCalls [] = [] := rfl

@[simp] theorem contextCalls_append (ss ss' : List Statement) :
    contextCalls (ss ++ ss') = contextCalls ss ++ contextCalls ss' :=
  List.filterMap_append

@[simp] theorem contextCalls_cons (s : Statement) (ss : List Statement) :
    contextCalls (s :: ss) = s.call?.toList ++ contextCalls ss := by
  unfold contextCalls
  rw [List.filterMap_cons]
  cases s.call? <;> rfl

/-- The members of a container make their own calls only. -/
theorem contextCalls_memberStatements (members : List (List Statement)) :
    contextCalls (Template.memberStatements members) = members.flatMap contextCalls := by
  unfold Template.memberStatements
  induction members with
  | nil => rfl
  | cons m members ih => simp [ih, Statement.call?]

/-! ## Variables that hold texts -/

/-- The names as a list of names is written: an empty list shows as one empty name. -/
def listed : List String → List String
  | [] => [""]
  | names => names

theorem listed_of_ne_nil {names : List String} (some : names ≠ []) : listed names = names := by
  cases names with
  | nil => exact absurd rfl some
  | cons _ _ => rfl

theorem names_of_texts {vars : Variables} {key : String} {names : List String}
    (found : vars.get? key = some (.list (names.map Value.text))) :
    vars.names key = .ok (listed names) := by
  have front : vars.allButLast key = .ok (names.map Value.text).dropLast := by
    unfold Variables.allButLast
    rw [found]
    rfl
  have last : vars.at key (-1) = .ok ((names.map Value.text).getLast?) := by
    unfold Variables.at
    rw [found]
    cases names with
    | nil => rfl
    | cons n ns => simp [memberOf, Value.members?, pick, List.getLast?_eq_getElem?]
  unfold Variables.names
  rw [front, last]
  rcases List.eq_nil_or_concat names with rfl | ⟨init, n, rfl⟩
  · rfl
  · rw [listed_of_ne_nil (by simp)]
    simp [List.concat_eq_append, shown, Value.plain, Function.comp_def, bind, Except.bind, pure,
      Except.pure]

theorem show_of_text {vars : Variables} {key text : String}
    (found : vars.get? key = some (.text text)) : vars.show key = text := by
  unfold Variables.show
  rw [found]
  rfl

/-- The number of uses of the one tensor, which is only shown if it counts as true. -/
def countText (count : Value) : Option String :=
  if count.truth? = some true then some count.plain else none

/-- The number of uses of the `i`-th tensor of several; they are only shown if their list counts as
true. -/
def countTextAt (counts : Value) (i : Nat) : Option String :=
  if counts.truth? = some true then some (shown (memberOf counts i)) else none

/-- A value that counts as true, and only then, stands under a key. -/
def HeldIfTrue (vars : Variables) (key : String) (v : Value) : Prop :=
  (v.truth? = some true ∧ vars.get? key = some v) ∨
    (v.truth? = some false ∧ vars.test key = .ok false)

theorem test_of_holds {vars : Variables} {key : String} {v : Value} (holds : v.truth? = some true)
    (found : vars.get? key = some v) : vars.test key = .ok true := by
  unfold Variables.test
  rw [found]
  simp [Code.holds, holds]

/-! ## Parts that make no calls -/

theorem contextCalls_declareHandle {vars : Variables} {ss : List Statement}
    (run : Template.declareHandle vars = .ok ss) : contextCalls ss = [] := by
  unfold Template.declareHandle at run
  rw [bind_eq_ok_iff] at run
  obtain ⟨wanted, _, made⟩ := run
  cases wanted <;> cases made <;> rfl

theorem contextCalls_declareHandleList {vars : Variables} {ss : List Statement}
    (run : Template.declareHandleList vars = .ok ss) : contextCalls ss = [] := by
  unfold Template.declareHandleList at run
  rw [bind_eq_ok_iff] at run
  obtain ⟨wanted, _, made⟩ := run
  cases wanted with
  | false =>
    cases made
    rfl
  | true =>
    simp only [if_true, bind_eq_ok_iff, pure_eq_ok_iff] at made
    obtain ⟨_, _, rfl⟩ := made
    rfl

theorem contextCalls_fetchHandle {vars : Variables} {tensor : String} {ss : List Statement}
    (run : Template.fetchHandle vars tensor = .ok ss) : contextCalls ss = [] := by
  unfold Template.fetchHandle at run
  rw [bind_eq_ok_iff] at run
  obtain ⟨wanted, _, made⟩ := run
  cases wanted <;> cases made <;> rfl

theorem contextCalls_fetchHandleList {vars : Variables} {ss : List Statement}
    (run : Template.fetchHandleList vars = .ok ss) : contextCalls ss = [] := by
  unfold Template.fetchHandleList at run
  simp only [bind_eq_ok_iff, pure_eq_ok_iff] at run
  obtain ⟨_, _, handles, _, outputs, _, rfl⟩ := run
  have fetches : ∀ hs os : List Value, contextCalls (List.zipWith
      (fun h o => Statement.fetch h.plain o.plain) hs os) = [] := by
    intro hs
    induction hs with
    | nil => exact fun _ => rfl
    | cons h hs ih =>
      intro os
      cases os with
      | nil => rfl
      | cons o os => simpa [Statement.call?] using ih os
  exact fetches handles outputs

theorem contextCalls_evaluation {vars : Variables} {ss : List Statement}
    (run : Template.evaluation vars = .ok ss) : contextCalls ss = [] := by
  unfold Template.evaluation at run
  rw [bind_eq_ok_iff] at run
  obtain ⟨wanted, _, made⟩ := run
  cases wanted <;> cases made <;> rfl

/-! ## Registering and computing -/

theorem contextCalls_registerOne {vars : Variables} {source : TensorSource} {tensor name : String}
    {layout : RegisterLayout} {count : Value} {ss : List Statement}
    (counted : HeldIfTrue vars "ref_count" count)
    (named : vars.get? tensor = some (.text name))
    (run : Template.registerOne vars source tensor layout = .ok ss) :
    contextCalls ss = [.add name (countText count)] := by
  unfold Template.registerOne at run
  simp only [bind_eq_ok_iff, pure_eq_ok_iff] at run
  obtain ⟨isCounted, test, rfl⟩ := run
  rw [show_of_text named]
  rcases counted with ⟨holds, found⟩ | ⟨fails, untested⟩
  · rw [test_of_holds holds found] at test
    cases test
    simp [Statement.call?, countText, holds, Variables.show, found, shown]
  · rw [untested] at test
    cases test
    simp [Statement.call?, countText, fails]

/-- What the registration of the `i`-th output takes from the variables. -/
theorem registerFrom_cons {vars : Variables} {counted : Bool} {i : Int}
    {source : Except Fault TensorSource} {rest : List (Except Fault TensorSource)}
    {ss : List Statement} (run : Template.registerFrom vars counted i (source :: rest) = .ok ss) :
    ∃ made name count later, source = .ok made ∧ vars.showAt "outputs" i = .ok name ∧
      (if counted then ∃ c, vars.showAt "ref_counts" i = .ok c ∧ count = some c
        else count = none) ∧
      Template.registerFrom vars counted (i + 1) rest = .ok later ∧
      ss = .register made name count .oneLine :: later := by
  rw [Template.registerFrom] at run
  cases counted with
  | false =>
    simp only [bind_eq_ok_iff, pure_eq_ok_iff, Bool.false_eq_true, if_false] at run
    obtain ⟨made, isMade, name, named, _, rfl, later, rest, rfl⟩ := run
    exact ⟨made, name, none, later, isMade, named, rfl, rest, rfl⟩
  | true =>
    simp only [bind_eq_ok_iff, pure_eq_ok_iff, functor_map_eq_ok_iff, if_true] at run
    obtain ⟨made, isMade, name, named, _, ⟨c, shown, rfl⟩, later, rest, rfl⟩ := run
    exact ⟨made, name, some c, later, isMade, named, ⟨c, shown, rfl⟩, rest, rfl⟩

/-- One registration for each source, from the `i`-th output on. -/
theorem contextCalls_registerFrom {vars : Variables} {outs : List String} {counts : Value}
    {counted : Bool} (outputs : vars.get? "outputs" = some (.list (outs.map Value.text)))
    (counting : counted = true → vars.get? "ref_counts" = some counts)
    {sources : List (Except Fault TensorSource)} {i : Nat} {ss : List Statement}
    (enough : i + sources.length = outs.length)
    (run : Template.registerFrom vars counted i sources = .ok ss) :
    contextCalls ss = ((outs.drop i).zipIdx i).map fun e =>
      .add e.1 (if counted then some (shown (memberOf counts e.2)) else none) := by
  induction sources generalizing i ss with
  | nil =>
    rw [Template.registerFrom] at run
    cases run
    rw [List.drop_eq_nil_of_le (by simpa using Nat.le_of_eq enough.symm)]
    rfl
  | cons source rest ih =>
    obtain ⟨made, name, count, later, _, named, countShown, registered, rfl⟩ :=
      registerFrom_cons run
    rw [List.length_cons] at enough
    have inside : i < outs.length := by omega
    have shownName : name = outs[i] := by
      unfold Variables.showAt Variables.at at named
      rw [outputs] at named
      simp only [bind_eq_ok_iff, pure_eq_ok_iff, Except.ok.injEq] at named
      obtain ⟨_, rfl, rfl⟩ := named
      simp [memberOf, Value.members?, pick, inside, shown, Value.plain]
    have shownCount : count = if counted then some (shown (memberOf counts i)) else none := by
      cases counted with
      | false => exact countShown
      | true =>
        obtain ⟨c, found, rfl⟩ := countShown
        unfold Variables.showAt Variables.at at found
        rw [counting rfl] at found
        cases found
        rfl
    have tail := ih (i := i + 1) (by omega) registered
    rw [List.drop_eq_getElem_cons inside, List.zipIdx_cons, List.map_cons, contextCalls_cons,
      tail, shownName, shownCount]
    rfl

/-- One registration for each output. -/
theorem contextCalls_registerList {vars : Variables} {outs : List String} {counts : Value}
    (outputs : vars.get? "outputs" = some (.list (outs.map Value.text)))
    (counted : HeldIfTrue vars "ref_counts" counts)
    {sources : List (Except Fault TensorSource)} {ss : List Statement}
    (run : Template.registerList vars sources = .ok ss) (enough : sources.length = outs.length) :
    contextCalls ss = outs.zipIdx.map fun e => .add e.1 (countTextAt counts e.2) := by
  unfold Template.registerList at run
  rw [bind_eq_ok_iff] at run
  obtain ⟨isCounted, test, registered⟩ := run
  have start : 0 + sources.length = outs.length := by omega
  rcases counted with ⟨holds, found⟩ | ⟨fails, untested⟩
  · rw [test_of_holds holds found] at test
    cases test
    have calls := contextCalls_registerFrom outputs (fun _ => found) start registered
    rw [calls]
    simp [countTextAt, holds]
  · rw [untested] at test
    cases test
    have counting : false = true → vars.get? "ref_counts" = some counts := nofun
    have calls := contextCalls_registerFrom outputs counting start registered
    rw [calls]
    simp [countTextAt, fails]

theorem contextCalls_computeOne {t : Template} {vars : Variables} {operator out : String}
    {ins : List String} {ss : List Statement}
    (inputs : vars.get? "inputs" = some (.list (ins.map Value.text)))
    (output : vars.get? "output" = some (.text out))
    (run : t.computeOne vars operator = .ok ss) :
    contextCalls ss = [.push (listed ins) [out]] := by
  unfold Template.computeOne at run
  rw [names_of_texts inputs] at run
  cases run
  simp [Statement.call?, Variables.show, output, shown, Value.plain]

theorem contextCalls_computeList {t : Template} {vars : Variables} {operator : String}
    {ins outs : List String} {ss : List Statement}
    (inputs : vars.get? "inputs" = some (.list (ins.map Value.text)))
    (outputs : vars.get? "outputs" = some (.list (outs.map Value.text)))
    (run : t.computeList vars operator = .ok ss) :
    contextCalls ss = [.push (listed ins) (listed outs)] := by
  unfold Template.computeList at run
  rw [names_of_texts inputs, names_of_texts outputs] at run
  cases run
  rfl

/-! ## Templates -/

/-- Variables that ask for no handles on tensors. -/
structure Variables.Handleless (vars : Variables) : Prop where
  unwanted : vars.get? "create_sptr" = none
  unnamed : vars.get? "sptr_names" = none

/-- Variables of a template that adds one tensor. -/
structure TensorVariables (vars : Variables) (name : String) (count : Value) : Prop where
  named : vars.get? "tensor_name" = some (.text name)
  counted : HeldIfTrue vars "ref_count" count
  handleless : vars.Handleless

/-- Variables of a template that computes one output. -/
structure SingleVariables (vars : Variables) (ins : List String) (out : String) (count : Value) :
    Prop where
  inputs : vars.get? "inputs" = some (.list (ins.map Value.text))
  output : vars.get? "output" = some (.text out)
  counted : HeldIfTrue vars "ref_count" count
  handleless : vars.Handleless

/-- Variables of a template that computes several outputs. -/
structure ListVariables (vars : Variables) (ins outs : List String) (counts : Value) : Prop where
  inputs : vars.get? "inputs" = some (.list (ins.map Value.text))
  outputs : vars.get? "outputs" = some (.list (outs.map Value.text))
  counted : HeldIfTrue vars "ref_counts" counts
  handleless : vars.Handleless

namespace Template

/-- The templates that compute one output. -/
def singles : List Template := [add, argMax, dequantize, reshape, min, max]

/-- The templates that make their output before they add it. -/
def extremes : List Template := [min, max]

/-- The templates that compute several outputs, with their number. -/
def severals : List (Template × Nat) :=
  [(maxPool, 3), (matMul, 3), (quantizedAdd, 3), (quantize, 3), (relu, 3), (requantizeRange, 2),
   (requantize, 3), (quantizedReshape, 3), (conv2d, 3)]

/-- A tensor that is loaded or built is added once. -/
theorem contextCalls_tensor {t : Template} {vars : Variables} {name : String} {count : Value}
    {members : Except Fault (List (List Statement))} {ss : List Statement}
    (isTensor : t = loadTensor ∨ t = binaryTensor) (held : TensorVariables vars name count)
    (run : t.statements vars members = .ok ss) :
    contextCalls ss = [.add name (countText count)] := by
  rcases isTensor with rfl | rfl
  · simp only [statements, loadTensorStatements, bind_eq_ok_iff, pure_eq_ok_iff] at run
    obtain ⟨_, declared, _, registered, _, fetched, _, evaluated, rfl⟩ := run
    simp [contextCalls_declareHandle declared, Statement.call?,
      contextCalls_registerOne held.counted held.named registered,
      contextCalls_fetchHandle fetched, contextCalls_evaluation evaluated]
  · simp only [statements, binaryTensorStatements, bind_eq_ok_iff, pure_eq_ok_iff] at run
    obtain ⟨_, declared, _, registered, _, fetched, _, evaluated, rfl⟩ := run
    simp [contextCalls_declareHandle declared, Statement.call?,
      contextCalls_registerOne held.counted held.named registered,
      contextCalls_fetchHandle fetched, contextCalls_evaluation evaluated]

theorem contextCalls_simple {t : Template} {vars : Variables} {source : TensorSource}
    {operator out : String} {gap ss : List Statement} {ins : List String} {count : Value}
    (silent : contextCalls gap = []) (held : SingleVariables vars ins out count)
    (run : simpleStatements t vars source operator gap = .ok ss) :
    contextCalls ss = [.add out (countText count), .push (listed ins) [out]] := by
  simp only [simpleStatements, bind_eq_ok_iff, pure_eq_ok_iff] at run
  obtain ⟨_, declared, _, registered, _, computed, _, fetched, _, evaluated, rfl⟩ := run
  simp [contextCalls_declareHandle declared, Statement.call?, silent,
    contextCalls_registerOne held.counted held.output registered,
    contextCalls_computeOne held.inputs held.output computed,
    contextCalls_fetchHandle fetched, contextCalls_evaluation evaluated]

theorem contextCalls_shaped {t : Template} {vars : Variables} {operator out : String}
    {ss : List Statement} {ins : List String} {count : Value}
    (held : SingleVariables vars ins out count)
    (run : shapedStatements t vars operator = .ok ss) :
    contextCalls ss = [.add out (countText count), .push (listed ins) [out]] := by
  simp only [shapedStatements, bind_eq_ok_iff] at run
  obtain ⟨_, declared, shaped, _, run⟩ := run
  -- The shape only shows in the line that makes the tensor.
  cases shaped with
  | false =>
    simp only [Bool.false_eq_true, if_false, bind_eq_ok_iff, pure_eq_ok_iff] at run
    obtain ⟨_, _, _, registered, _, computed, _, fetched, _, evaluated, rfl⟩ := run
    simp [contextCalls_declareHandle declared, Statement.call?,
      contextCalls_registerOne held.counted held.output registered,
      contextCalls_computeOne held.inputs held.output computed,
      contextCalls_fetchHandle fetched, contextCalls_evaluation evaluated]
  | true =>
    simp only [if_true, bind_eq_ok_iff, pure_eq_ok_iff] at run
    obtain ⟨_, _, _, _, _, registered, _, computed, _, fetched, _, evaluated, rfl⟩ := run
    simp [contextCalls_declareHandle declared, Statement.call?,
      contextCalls_registerOne held.counted held.output registered,
      contextCalls_computeOne held.inputs held.output computed,
      contextCalls_fetchHandle fetched, contextCalls_evaluation evaluated]

/-- A template with one output adds it and then pushes the operator that computes it. -/
theorem contextCalls_single {t : Template} {vars : Variables} {ins : List String} {out : String}
    {count : Value} {members : Except Fault (List (List Statement))} {ss : List Statement}
    (single : t ∈ singles) (held : SingleVariables vars ins out count)
    (run : t.statements vars members = .ok ss) :
    contextCalls ss = [.add out (countText count), .push (listed ins) [out]] := by
  simp only [singles, List.mem_cons, List.not_mem_nil, or_false] at single
  rcases single with rfl | rfl | rfl | rfl | rfl | rfl
  · exact contextCalls_simple rfl held run
  · exact contextCalls_simple rfl held run
  · exact contextCalls_simple rfl held run
  · exact contextCalls_simple rfl held run
  · exact contextCalls_shaped held run
  · exact contextCalls_shaped held run

/-- The calls of a template with several outputs. -/
def listCalls (ins outs : List String) (counts : Value) : List ContextCall :=
  (outs.zipIdx.map fun e => .add e.1 (countTextAt counts e.2)) ++ [.push (listed ins) (listed outs)]

section Lists

variable {t : Template} {vars : Variables} {ins outs : List String} {counts : Value}
  {sources : List (Except Fault TensorSource)} {operator : Except Fault String}
  {ss : List Statement}

theorem contextCalls_listStatements {trail : String} (held : ListVariables vars ins outs counts)
    (run : listStatements t vars trail (registerList vars sources) operator = .ok ss)
    (arity : sources.length = outs.length) :
    contextCalls ss = listCalls ins outs counts := by
  simp only [listStatements, bind_eq_ok_iff, pure_eq_ok_iff] at run
  obtain ⟨_, declared, _, registered, _, _, _, computed, _, fetched, _, evaluated, rfl⟩ := run
  simp [contextCalls_declareHandleList declared, Statement.call?, listCalls,
    contextCalls_registerList held.outputs held.counted registered arity,
    contextCalls_computeList held.inputs held.outputs computed,
    contextCalls_fetchHandleList fetched, contextCalls_evaluation evaluated]

theorem contextCalls_plainListStatements (held : ListVariables vars ins outs counts)
    (run : plainListStatements t vars (registerList vars sources) operator = .ok ss)
    (arity : sources.length = outs.length) :
    contextCalls ss = listCalls ins outs counts := by
  simp only [plainListStatements, bind_eq_ok_iff, pure_eq_ok_iff] at run
  obtain ⟨_, registered, _, _, _, computed, _, evaluated, rfl⟩ := run
  simp [Statement.call?, listCalls,
    contextCalls_registerList held.outputs held.counted registered arity,
    contextCalls_computeList held.inputs held.outputs computed, contextCalls_evaluation evaluated]

theorem contextCalls_maxPool (held : ListVariables vars ins outs counts) (arity : outs.length = 3)
    (run : maxPoolStatements vars = .ok ss) : contextCalls ss = listCalls ins outs counts := by
  simp only [maxPoolStatements, bind_eq_ok_iff, pure_eq_ok_iff] at run
  obtain ⟨_, declared, _, registered, _, computed, _, fetched, _, evaluated, rfl⟩ := run
  simp [contextCalls_declareHandleList declared, Statement.call?, listCalls,
    contextCalls_registerList held.outputs held.counted registered arity.symm,
    contextCalls_computeList held.inputs held.outputs computed,
    contextCalls_fetchHandleList fetched, contextCalls_evaluation evaluated]

/-- A template with several outputs adds each of them and then pushes the operator. -/
theorem contextCalls_several {n : Nat} {members : Except Fault (List (List Statement))}
    (several : (t, n) ∈ severals) (held : ListVariables vars ins outs counts)
    (arity : outs.length = n) (run : t.statements vars members = .ok ss) :
    contextCalls ss = listCalls ins outs counts := by
  simp only [severals, List.mem_cons, List.not_mem_nil, or_false, Prod.mk.injEq] at several
  rcases several with ⟨rfl, rfl⟩ | ⟨rfl, rfl⟩ | ⟨rfl, rfl⟩ | ⟨rfl, rfl⟩ | ⟨rfl, rfl⟩ | ⟨rfl, rfl⟩ |
    ⟨rfl, rfl⟩ | ⟨rfl, rfl⟩ | ⟨rfl, rfl⟩
  · exact contextCalls_maxPool held arity run
  · exact contextCalls_listStatements held run arity.symm
  · exact contextCalls_listStatements held run arity.symm
  · exact contextCalls_listStatements held run arity.symm
  · exact contextCalls_listStatements held run arity.symm
  · exact contextCalls_listStatements held run arity.symm
  · exact contextCalls_listStatements held run arity.symm
  · exact contextCalls_plainListStatements held run arity.symm
  · exact contextCalls_plainListStatements held run arity.symm

end Lists

/-- A comment is made of lines that are comments. -/
theorem line_of_comment {vars : Variables} {members : Except Fault (List (List Statement))}
    {ss : List Statement} (run : comment.statements vars members = .ok ss) :
    ∀ s ∈ ss, ∃ note, s = .line ("// " ++ note) := by
  simp only [statements, commentStatements, bind_eq_ok_iff, pure_eq_ok_iff] at run
  obtain ⟨lines, _, rfl⟩ := run
  intro s member
  obtain ⟨c, _, rfl⟩ := List.mem_map.mp member
  exact ⟨_, rfl⟩

theorem contextCalls_comment {vars : Variables} {members : Except Fault (List (List Statement))}
    {ss : List Statement} (run : comment.statements vars members = .ok ss) :
    contextCalls ss = [] := by
  unfold contextCalls
  rw [List.filterMap_eq_nil_iff]
  intro s member
  obtain ⟨_, rfl⟩ := line_of_comment run s member
  rfl

/-! ## Fragments -/

theorem name_injective {t t' : Template} (same : t.name = t'.name) : t = t' := by
  cases t <;> cases t' <;> first | rfl | (simp [name] at same)

/-- Every step of the path to a template counts. -/
theorem pathSteps_name (t : Template) : pathSteps t.name = Text.splitAt "/" t.name := by
  unfold pathSteps
  rw [List.filter_eq_self, ← List.all_eq_true]
  cases t <;> cbv

/-- A template is found under its name. -/
theorem ofName_name (t : Template) : ofName t.name = .ok t := by
  unfold ofName
  rw [pathSteps_name]
  have listed : t ∈ all := by
    cases t <;> simp [all]
  split
  · rename_i found
    have same := List.find?_some found
    rw [beq_iff_eq] at same
    rw [name_injective (Text.splitAt_injective (by decide) same)]
  · rename_i missing
    exact absurd (beq_iff_eq.mpr rfl) (List.find?_eq_none.mp missing t listed)

end Template

theorem Fragment.findTemplate_of (t : Template) (vars : Variables) :
    (Fragment.of t vars).findTemplate = .ok t :=
  Template.ofName_name t

theorem Fragment.statements_eq (t : Template) (vars : Variables) :
    (Fragment.of t vars).statements =
      if reservedNames.any vars.has then .error .unfit
      else t.statements vars (do
        match ← vars.each "snippets" with
        | [] => return []
        | v :: _ => throw (memberFault v)) := by
  unfold Fragment.statements
  rw [findTemplate_of, ok_bind]
  rfl

/-- The statements of a fragment are those of its template. -/
theorem Fragment.statements_of {t : Template} {vars : Variables} {ss : List Statement}
    (run : (Fragment.of t vars).statements = .ok ss) :
    ∃ members, t.statements vars members = .ok ss := by
  rw [statements_eq] at run
  split at run
  · cases run
  · exact ⟨_, run⟩

end Code

end TensorEmit
