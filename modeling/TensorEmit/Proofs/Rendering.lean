import TensorEmit.Proofs.EntryPoint

/-!
# Code that can be written

A template takes what it shows from variables, and there are values for which it cannot be written
out: lists that are none, and values that are neither true nor false. `Template.Renderable` says
what the variables have to be for each template of an operation, and `Template.exists_statements`
that this is enough.

The fragments of operations meet these conditions (`emitOperation_renders`) as long as two things
hold of the operation itself, which `Operation.Steady` names. So once a graph is emitted, its entry
point and its inlined constants can be written as well.
-/

namespace TensorEmit

theorem Entries.mem_of_get? {κ α : Type} [DecidableEq κ] {es : Entries κ α} {key : κ} {v : α}
    (found : es.get? key = some v) : (key, v) ∈ es := by
  induction es with
  | nil => cases found
  | cons e rest ih =>
    obtain ⟨k, u⟩ := e
    rw [Entries.get?] at found
    split at found
    case isTrue same =>
      cases found
      rw [same]
      exact List.mem_cons_self
    case isFalse => exact List.mem_cons_of_mem _ (ih found)

namespace Code

/-! ## Variables -/

/-- A value that counts as true or as false. -/
def Decided (v : Value) : Prop := ∃ b, v.truth? = some b

/-- Names that no operation sets: those that hide a step of a template, and those of handles. -/
def withheldNames : List String := ["self", "zip", "create_sptr", "sptr_names"]

/-- Names whose values the templates of operations take for true or false. -/
def testedNames : List String := ["ref_count", "ref_counts", "to_eval"]

/-- The variables that the template of an operation goes through as lists. -/
def Template.listKeys : Template → List String
  | add | argMax | dequantize | reshape => ["inputs"]
  | min | max => ["inputs", "out_shape"]
  | maxPool | matMul | quantizedAdd | quantize | requantizeRange | requantize | quantizedReshape =>
    ["inputs", "outputs"]
  | relu => ["inputs", "outputs", "out_dtypes"]
  | conv2d => ["inputs", "outputs", "out_dtypes", "strides"]
  | _ => []

/-- Variables with which the template of an operation can be written. -/
structure Template.Renderable (t : Template) (vars : Variables) : Prop where
  unset : ∀ e ∈ vars, e.1 ∉ withheldNames
  decided : ∀ e ∈ vars, e.1 ∈ testedNames → Decided e.2
  listed : ∀ key ∈ t.listKeys, ∃ vs, vars.get? key = some (.list vs)

namespace Variables

variable {vars : Variables} {key : String}

theorem test_of_decided {v : Value} (found : vars.get? key = some v) (decided : Decided v) :
    ∃ b, vars.test key = .ok b := by
  obtain ⟨b, isTrue⟩ := decided
  refine ⟨b, ?_⟩
  unfold Variables.test holds
  rw [found]
  simp only [isTrue]

/-- Whether a list has members is decided. -/
theorem test_of_list {vs : List Value} (found : vars.get? key = some (.list vs)) :
    ∃ b, vars.test key = .ok b :=
  test_of_decided found ⟨_, rfl⟩

theorem names_of_list {vs : List Value} (found : vars.get? key = some (.list vs)) :
    ∃ names, vars.names key = .ok names := by
  have front : vars.allButLast key = .ok vs.dropLast := by
    unfold Variables.allButLast
    rw [found]
    rfl
  have last : vars.at key (-1) = .ok (memberOf (.list vs) (-1)) := by
    unfold Variables.at
    rw [found]
  unfold Variables.names
  rw [front, ok_bind, last, ok_bind]
  exact ⟨_, rfl⟩

theorem each_of_list {vs : List Value} (found : vars.get? key = some (.list vs)) :
    vars.each key = .ok vs := by
  unfold Variables.each
  rw [found]
  rfl

/-- A place outside of a list shows as nothing, so only the list itself has to be there. -/
theorem showAt_of_get? {v : Value} (found : vars.get? key = some v) (i : Int) :
    ∃ s, vars.showAt key i = .ok s := by
  unfold Variables.showAt Variables.at
  rw [found, ok_bind]
  exact ⟨_, rfl⟩

end Variables

namespace Template

namespace Renderable

variable {t : Template} {vars : Variables}

theorem get?_withheld (renderable : t.Renderable vars) {key : String}
    (withheld : key ∈ withheldNames) : vars.get? key = none := by
  cases found : vars.get? key with
  | none => rfl
  | some v => exact absurd withheld (renderable.unset _ (Entries.mem_of_get? found))

theorem test (renderable : t.Renderable vars) (key : String) (tested : key ∈ testedNames) :
    ∃ b, vars.test key = .ok b := by
  cases found : vars.get? key with
  | none =>
    unfold Variables.test
    rw [found]
    exact ⟨false, rfl⟩
  | some v =>
    exact Variables.test_of_decided found
      (renderable.decided _ (Entries.mem_of_get? found) tested)

theorem noHandle (renderable : t.Renderable vars) : vars.test "create_sptr" = .ok false := by
  unfold Variables.test
  rw [renderable.get?_withheld (by decide)]
  rfl

/-- A number of uses that is set only if it counts as true leaves a template renderable. -/
theorem set {key : String} {v : Value} {set rest : Variables} (renderable : t.Renderable rest)
    (isCount : key = "ref_count" ∨ key = "ref_counts") (isSet : setIfTrue key v = .ok set) :
    t.Renderable (set ++ rest) := by
  have known : ∀ e ∈ set, e.1 = key ∧ Decided e.2 := by
    intro e member
    rcases Operation.setIfTrue_ok isSet with ⟨isTrue, rfl⟩ | ⟨_, rfl⟩
    · rw [List.mem_singleton.mp member]
      exact ⟨rfl, true, isTrue⟩
    · cases member
  have apart : key ∉ withheldNames ∧ ∀ other ∈ t.listKeys, key ≠ other := by
    rcases isCount with rfl | rfl
    · exact ⟨by decide, by cases t <;> decide⟩
    · exact ⟨by decide, by cases t <;> decide⟩
  refine ⟨?_, ?_, ?_⟩
  · intro e member
    rcases List.mem_append.mp member with front | back
    · rw [(known e front).1]
      exact apart.1
    · exact renderable.unset e back
  · intro e member tested
    rcases List.mem_append.mp member with front | back
    · exact (known e front).2
    · exact renderable.decided e back tested
  · intro other listed
    rw [Operation.get?_of_setIfTrue isSet (apart.2 other listed)]
    exact renderable.listed other listed

end Renderable

/-! ## Parts that templates share -/

section Parts

variable {t t' : Template} {vars : Variables}

theorem exists_declareHandle (renderable : t.Renderable vars) :
    ∃ ss, declareHandle vars = .ok ss := by
  unfold declareHandle
  rw [renderable.noHandle]
  exact ⟨_, rfl⟩

theorem exists_declareHandleList (renderable : t.Renderable vars) :
    ∃ ss, declareHandleList vars = .ok ss := by
  unfold declareHandleList
  rw [renderable.noHandle]
  exact ⟨_, rfl⟩

theorem exists_fetchHandle (renderable : t.Renderable vars) (tensor : String) :
    ∃ ss, fetchHandle vars tensor = .ok ss := by
  unfold fetchHandle
  rw [renderable.noHandle]
  exact ⟨_, rfl⟩

theorem exists_fetchHandleList (renderable : t.Renderable vars) (several : "outputs" ∈ t.listKeys) :
    ∃ ss, fetchHandleList vars = .ok ss := by
  have pairing : checkPairing vars = .ok () := by
    unfold checkPairing Entries.has
    rw [renderable.get?_withheld (by decide)]
    rfl
  have handles : vars.each "sptr_names" = .ok [] := by
    unfold Variables.each
    rw [renderable.get?_withheld (by decide)]
  obtain ⟨vs, outputs⟩ := renderable.listed _ several
  unfold fetchHandleList
  rw [pairing, ok_bind, handles, ok_bind, Variables.each_of_list outputs]
  exact ⟨_, rfl⟩

theorem exists_evaluation (renderable : t.Renderable vars) : ∃ ss, evaluation vars = .ok ss := by
  obtain ⟨b, test⟩ := renderable.test "to_eval" (by decide)
  unfold evaluation
  rw [test]
  cases b with
  | true => exact ⟨_, rfl⟩
  | false => exact ⟨_, rfl⟩

theorem exists_registerOne (renderable : t.Renderable vars) (source : TensorSource)
    (tensor : String) (layout : RegisterLayout) :
    ∃ ss, registerOne vars source tensor layout = .ok ss := by
  obtain ⟨b, test⟩ := renderable.test "ref_count" (by decide)
  unfold registerOne
  rw [test]
  exact ⟨_, rfl⟩

theorem exists_registerFrom {outputs : Value} (made : vars.get? "outputs" = some outputs)
    {counted : Bool} (given : counted = true → ∃ counts, vars.get? "ref_counts" = some counts)
    {i : Int} {sources : List (Except Fault TensorSource)}
    (known : ∀ source ∈ sources, ∃ s, source = .ok s) :
    ∃ ss, registerFrom vars counted i sources = .ok ss := by
  induction sources generalizing i with
  | nil => exact ⟨[], rfl⟩
  | cons source rest ih =>
    obtain ⟨s, rfl⟩ := known source (by simp)
    obtain ⟨name, shown⟩ := Variables.showAt_of_get? made i
    obtain ⟨later, registered⟩ :=
      ih (i := i + 1) fun source member => known source (by simp [member])
    rw [registerFrom]
    cases counted with
    | false =>
      simp only [bind_eq_ok_iff, pure_eq_ok_iff, Bool.false_eq_true, if_false]
      exact ⟨_, s, rfl, name, shown, none, rfl, later, registered, rfl⟩
    | true =>
      obtain ⟨counts, found⟩ := given rfl
      obtain ⟨count, isCount⟩ := Variables.showAt_of_get? found i
      simp only [bind_eq_ok_iff, pure_eq_ok_iff, functor_map_eq_ok_iff, if_true]
      exact ⟨_, s, rfl, name, shown, _, ⟨count, isCount, rfl⟩, later, registered, rfl⟩

theorem exists_registerList (renderable : t.Renderable vars) (several : "outputs" ∈ t.listKeys)
    {sources : List (Except Fault TensorSource)} (known : ∀ source ∈ sources, ∃ s, source = .ok s) :
    ∃ ss, registerList vars sources = .ok ss := by
  obtain ⟨vs, made⟩ := renderable.listed _ several
  obtain ⟨b, test⟩ := renderable.test "ref_counts" (by decide)
  unfold registerList
  rw [test, ok_bind]
  refine exists_registerFrom made (fun counted => ?_) known
  -- What is not set does not count as true.
  cases found : vars.get? "ref_counts" with
  | some counts => exact ⟨counts, rfl⟩
  | none =>
    unfold Variables.test at test
    rw [found, counted] at test
    cases test

theorem exists_registerRanged (renderable : t.Renderable vars) (several : "outputs" ∈ t.listKeys)
    {type low high : Except Fault String} (isType : ∃ s, type = .ok s) (isLow : ∃ s, low = .ok s)
    (isHigh : ∃ s, high = .ok s) : ∃ ss, registerRanged vars type low high = .ok ss := by
  obtain ⟨type, rfl⟩ := isType
  obtain ⟨low, rfl⟩ := isLow
  obtain ⟨high, rfl⟩ := isHigh
  refine exists_registerList renderable several fun source member => ?_
  simp only [List.mem_cons, List.not_mem_nil, or_false] at member
  rcases member with rfl | rfl | rfl
  · exact ⟨_, rfl⟩
  · exact ⟨_, rfl⟩
  · exact ⟨_, rfl⟩

theorem exists_computeOne (renderable : t.Renderable vars) (reads : "inputs" ∈ t.listKeys)
    (operator : String) : ∃ ss, t'.computeOne vars operator = .ok ss := by
  obtain ⟨vs, inputs⟩ := renderable.listed _ reads
  obtain ⟨names, listed⟩ := Variables.names_of_list inputs
  unfold computeOne
  rw [listed]
  exact ⟨_, rfl⟩

theorem exists_computeList (renderable : t.Renderable vars) (reads : "inputs" ∈ t.listKeys)
    (several : "outputs" ∈ t.listKeys) (operator : String) :
    ∃ ss, t'.computeList vars operator = .ok ss := by
  obtain ⟨vs, inputs⟩ := renderable.listed _ reads
  obtain ⟨ws, outputs⟩ := renderable.listed _ several
  obtain ⟨names, listed⟩ := Variables.names_of_list inputs
  obtain ⟨names', listed'⟩ := Variables.names_of_list outputs
  unfold computeList
  rw [listed, ok_bind, listed']
  exact ⟨_, rfl⟩

/-! ## All templates of operations -/

theorem exists_tensorStatements {members : Except Fault (List (List Statement))}
    (isTensor : t = loadTensor ∨ t = binaryTensor) (renderable : t.Renderable vars) :
    ∃ ss, t.statements vars members = .ok ss := by
  obtain ⟨_, declared⟩ := exists_declareHandle renderable
  obtain ⟨_, fetched⟩ := exists_fetchHandle renderable "tensor_name"
  obtain ⟨_, evaluated⟩ := exists_evaluation renderable
  rcases isTensor with rfl | rfl
  · obtain ⟨_, registered⟩ := exists_registerOne renderable
      (.loaded (vars.show "importer_dtype") (vars.show "idx_path")) "tensor_name" (.spread "")
    simp only [statements, loadTensorStatements, bind_eq_ok_iff, pure_eq_ok_iff]
    exact ⟨_, _, declared, _, registered, _, fetched, _, evaluated, rfl⟩
  · obtain ⟨_, registered⟩ := exists_registerOne renderable
      (.made (vars.show "tensor_type") (vars.show "dtype")
        [vars.show "tensor_shape", vars.show "inline_name"]) "tensor_name" (.spread " ")
    simp only [statements, binaryTensorStatements, bind_eq_ok_iff, pure_eq_ok_iff]
    exact ⟨_, _, declared, _, registered, _, fetched, _, evaluated, rfl⟩

theorem exists_simpleStatements (renderable : t.Renderable vars) (reads : "inputs" ∈ t.listKeys)
    (source : TensorSource) (operator : String) (gap : List Statement) :
    ∃ ss, simpleStatements t vars source operator gap = .ok ss := by
  obtain ⟨_, declared⟩ := exists_declareHandle renderable
  obtain ⟨_, registered⟩ := exists_registerOne renderable source "output" .oneLine
  obtain ⟨_, computed⟩ := @exists_computeOne t t vars renderable reads operator
  obtain ⟨_, fetched⟩ := exists_fetchHandle renderable "output"
  obtain ⟨_, evaluated⟩ := exists_evaluation renderable
  simp only [simpleStatements, bind_eq_ok_iff, pure_eq_ok_iff]
  exact ⟨_, _, declared, _, registered, _, computed, _, fetched, _, evaluated, rfl⟩

theorem exists_shapedStatements (renderable : t.Renderable vars) (reads : "inputs" ∈ t.listKeys)
    (shaped : "out_shape" ∈ t.listKeys) (operator : String) :
    ∃ ss, shapedStatements t vars operator = .ok ss := by
  obtain ⟨_, declared⟩ := exists_declareHandle renderable
  obtain ⟨_, registered⟩ := exists_registerOne renderable (.named "out_tensor") "output" .oneLine
  obtain ⟨_, computed⟩ := @exists_computeOne t t vars renderable reads operator
  obtain ⟨_, fetched⟩ := exists_fetchHandle renderable "output"
  obtain ⟨_, evaluated⟩ := exists_evaluation renderable
  obtain ⟨sizes, shape⟩ := renderable.listed _ shaped
  obtain ⟨b, test⟩ := Variables.test_of_list shape
  obtain ⟨names, listed⟩ := Variables.names_of_list shape
  unfold shapedStatements
  rw [declared, ok_bind, test, ok_bind]
  cases b with
  | false =>
    simp only [Bool.false_eq_true, if_false, bind_eq_ok_iff, pure_eq_ok_iff]
    exact ⟨_, _, rfl, _, registered, _, computed, _, fetched, _, evaluated, rfl⟩
  | true =>
    simp only [if_true, bind_eq_ok_iff, pure_eq_ok_iff]
    exact ⟨_, _, listed, _, rfl, _, registered, _, computed, _, fetched, _, evaluated, rfl⟩

theorem exists_singleStatements {members : Except Fault (List (List Statement))}
    (single : t ∈ singles) (renderable : t.Renderable vars) :
    ∃ ss, t.statements vars members = .ok ss := by
  simp only [singles, List.mem_cons, List.not_mem_nil, or_false] at single
  rcases single with rfl | rfl | rfl | rfl | rfl | rfl
  · exact exists_simpleStatements renderable (by decide) _ _ _
  · exact exists_simpleStatements renderable (by decide) _ _ _
  · exact exists_simpleStatements renderable (by decide) _ _ _
  · exact exists_simpleStatements renderable (by decide) _ _ _
  · exact exists_shapedStatements renderable (by decide) (by decide) _
  · exact exists_shapedStatements renderable (by decide) (by decide) _

theorem exists_listStatements {trail : String} {registered : Except Fault (List Statement)}
    {operator : Except Fault String} (renderable : t.Renderable vars)
    (reads : "inputs" ∈ t.listKeys) (several : "outputs" ∈ t.listKeys)
    (isRegistered : ∃ ss, registered = .ok ss) (isOperator : ∃ s, operator = .ok s) :
    ∃ ss, listStatements t vars trail registered operator = .ok ss := by
  obtain ⟨_, declared⟩ := exists_declareHandleList renderable
  obtain ⟨_, isRegistered⟩ := isRegistered
  obtain ⟨operator', isOperator⟩ := isOperator
  obtain ⟨_, computed⟩ := @exists_computeList t t vars renderable reads several operator'
  obtain ⟨_, fetched⟩ := exists_fetchHandleList renderable several
  obtain ⟨_, evaluated⟩ := exists_evaluation renderable
  simp only [listStatements, bind_eq_ok_iff, pure_eq_ok_iff]
  exact ⟨_, _, declared, _, isRegistered, _, isOperator, _, computed, _, fetched, _, evaluated, rfl⟩

theorem exists_plainListStatements {registered : Except Fault (List Statement)}
    {operator : Except Fault String} (renderable : t.Renderable vars)
    (reads : "inputs" ∈ t.listKeys) (several : "outputs" ∈ t.listKeys)
    (isRegistered : ∃ ss, registered = .ok ss) (isOperator : ∃ s, operator = .ok s) :
    ∃ ss, plainListStatements t vars registered operator = .ok ss := by
  obtain ⟨_, isRegistered⟩ := isRegistered
  obtain ⟨operator', isOperator⟩ := isOperator
  obtain ⟨_, computed⟩ := @exists_computeList t t vars renderable reads several operator'
  obtain ⟨_, evaluated⟩ := exists_evaluation renderable
  simp only [plainListStatements, bind_eq_ok_iff, pure_eq_ok_iff]
  exact ⟨_, _, isRegistered, _, isOperator, _, computed, _, evaluated, rfl⟩

theorem exists_maxPoolStatements (renderable : maxPool.Renderable vars) :
    ∃ ss, maxPoolStatements vars = .ok ss := by
  obtain ⟨_, declared⟩ := exists_declareHandleList renderable
  obtain ⟨_, registered⟩ := @exists_registerRanged maxPool vars renderable (by decide)
    (.ok (vars.show "dtype")) (.ok "float") (.ok "float") ⟨_, rfl⟩ ⟨_, rfl⟩ ⟨_, rfl⟩
  obtain ⟨_, fetched⟩ := exists_fetchHandleList renderable (by decide)
  obtain ⟨_, evaluated⟩ := exists_evaluation renderable
  have computed := @exists_computeList maxPool maxPool vars renderable (by decide) (by decide)
  unfold maxPoolStatements
  rw [declared, ok_bind, registerFloatRanged, registered, ok_bind]
  dsimp only
  obtain ⟨_, computed⟩ := computed _
  rw [computed, ok_bind, fetched, ok_bind, evaluated]
  exact ⟨_, rfl⟩

theorem exists_severalStatements {n : Nat} {members : Except Fault (List (List Statement))}
    (several : (t, n) ∈ severals) (renderable : t.Renderable vars) :
    ∃ ss, t.statements vars members = .ok ss := by
  simp only [severals, List.mem_cons, List.not_mem_nil, or_false, Prod.mk.injEq] at several
  rcases several with ⟨rfl, _⟩ | ⟨rfl, _⟩ | ⟨rfl, _⟩ | ⟨rfl, _⟩ | ⟨rfl, _⟩ | ⟨rfl, _⟩ | ⟨rfl, _⟩ |
    ⟨rfl, _⟩ | ⟨rfl, _⟩
  · exact exists_maxPoolStatements renderable
  · exact exists_listStatements renderable (by decide) (by decide)
      (exists_registerRanged renderable (by decide) ⟨_, rfl⟩ ⟨_, rfl⟩ ⟨_, rfl⟩) ⟨_, rfl⟩
  · exact exists_listStatements renderable (by decide) (by decide)
      (exists_registerRanged renderable (by decide) ⟨_, rfl⟩ ⟨_, rfl⟩ ⟨_, rfl⟩) ⟨_, rfl⟩
  · exact exists_listStatements renderable (by decide) (by decide)
      (exists_registerRanged renderable (by decide) ⟨_, rfl⟩ ⟨_, rfl⟩ ⟨_, rfl⟩) ⟨_, rfl⟩
  · -- The element types of the range are taken from a list.
    obtain ⟨vs, types⟩ := renderable.listed "out_dtypes" (by decide)
    have type := Variables.showAt_of_get? types
    refine exists_listStatements renderable (by decide) (by decide)
      (exists_registerRanged renderable (by decide) ⟨_, rfl⟩ (type 0) (type 1)) ?_
    obtain ⟨low, isLow⟩ := type 0
    simp only [bind_eq_ok_iff, pure_eq_ok_iff]
    exact ⟨_, low, isLow, rfl⟩
  · refine exists_listStatements renderable (by decide) (by decide)
      (exists_registerList renderable (by decide) fun source member => ?_) ⟨_, rfl⟩
    simp only [List.mem_cons, List.not_mem_nil, or_false, or_self] at member
    exact ⟨_, member⟩
  · exact exists_listStatements renderable (by decide) (by decide)
      (exists_registerRanged renderable (by decide) ⟨_, rfl⟩ ⟨_, rfl⟩ ⟨_, rfl⟩) ⟨_, rfl⟩
  · exact exists_plainListStatements renderable (by decide) (by decide)
      (exists_registerRanged renderable (by decide) ⟨_, rfl⟩ ⟨_, rfl⟩ ⟨_, rfl⟩) ⟨_, rfl⟩
  · obtain ⟨vs, types⟩ := renderable.listed "out_dtypes" (by decide)
    obtain ⟨ws, strides⟩ := renderable.listed "strides" (by decide)
    have type := Variables.showAt_of_get? types
    refine exists_plainListStatements renderable (by decide) (by decide)
      (exists_registerRanged renderable (by decide) (type 0) (type 1) (type 2)) ?_
    obtain ⟨main, isMain⟩ := type 0
    obtain ⟨names, listed⟩ := Variables.names_of_list strides
    simp only [bind_eq_ok_iff, pure_eq_ok_iff]
    exact ⟨_, main, isMain, names, listed, rfl⟩

/-- The template of an operation can be written with variables that are fit for it. -/
theorem exists_statements {members : Except Fault (List (List Statement))}
    (listed : t ∈ ofOperations) (renderable : t.Renderable vars) :
    ∃ ss, t.statements vars members = .ok ss := by
  rcases List.mem_append.mp listed with front | several
  · rcases List.mem_append.mp front with isTensor | single
    · exact exists_tensorStatements (by simpa using isTensor) renderable
    · exact exists_singleStatements single renderable
  · obtain ⟨⟨_, n⟩, isSeveral, rfl⟩ := List.mem_map.mp several
    exact exists_severalStatements isSeveral renderable

end Parts

end Template

/-! ## Fragments -/

/-- A fragment that can be written. -/
def Fragment.Renders (f : Fragment) : Prop := ∃ ss, f.statements = .ok ss

theorem Fragment.renders_of {t : Template} {vars : Variables} (free : vars.get? "self" = none)
    (stated : ∀ members, ∃ ss, t.statements vars members = .ok ss) :
    (Fragment.of t vars).Renders := by
  have unreserved : reservedNames.any vars.has = false := by
    simp [reservedNames, Entries.has, free]
  unfold Renders
  rw [Fragment.statements_eq, unreserved, if_neg Bool.false_ne_true]
  exact stated _

theorem Template.Renderable.renders {t : Template} {vars : Variables} (listed : t ∈ ofOperations)
    (renderable : t.Renderable vars) : (Fragment.of t vars).Renders :=
  Fragment.renders_of (renderable.get?_withheld (by decide))
    fun _ => Template.exists_statements listed renderable

end Code

open Code

/-! ## Fragments of operations -/

namespace Operation

/-- What code takes from the attributes of an operation as it is: whether to evaluate at once, which
has to be decided, and the whole numbers of an attribute, which have to be a list. -/
structure Steady (op : Operation) : Prop where
  evaluates : Decided op.evalNote
  ints : ∀ key v, op.ints key = .ok v → ∃ vs, v = .list vs

theorem decided_of_checkCounts {counts names counts' : Value}
    (checked : checkCounts counts names = .ok counts') : Decided counts' := by
  rcases checkCounts_ok checked with ⟨rfl, decided⟩ | ⟨_, rfl⟩
  · exact decided
  · exact ⟨false, rfl⟩

section Fragments

variable {op : Operation} {f : Fragment}

theorem Steady.addFragment (steady : op.Steady) (run : op.addFragment = .ok f) : f.Renders := by
  simp only [Operation.addFragment, addVariables, bind_eq_ok_iff, pure_eq_ok_iff] at run
  obtain ⟨out, _, _, _, count, _, _, ⟨set, isSet, type, _, rfl⟩, rfl⟩ := run
  refine (Template.Renderable.set ⟨?_, ?_, ?_⟩ (.inl rfl) isSet).renders (by decide)
  · simp [withheldNames]
  · simpa [testedNames] using steady.evaluates
  · exact List.forall_mem_singleton.mpr ⟨_, rfl⟩

theorem Steady.argMaxFragment (steady : op.Steady) (run : op.argMaxFragment = .ok f) :
    f.Renders := by
  simp only [Operation.argMaxFragment, argMaxVariables, bind_eq_ok_iff, pure_eq_ok_iff] at run
  obtain ⟨out, _, _, _, count, _, _, ⟨set, isSet, _, _, _, _, rfl⟩, rfl⟩ := run
  refine (Template.Renderable.set ⟨?_, ?_, ?_⟩ (.inl rfl) isSet).renders (by decide)
  · simp [withheldNames]
  · simpa [testedNames] using steady.evaluates
  · exact List.forall_mem_singleton.mpr ⟨_, rfl⟩

theorem Steady.dequantizeFragment (steady : op.Steady) (run : op.dequantizeFragment = .ok f) :
    f.Renders := by
  simp only [Operation.dequantizeFragment, dequantizeVariables, bind_eq_ok_iff,
    pure_eq_ok_iff] at run
  obtain ⟨out, _, count, _, _, ⟨set, isSet, _, _, rfl⟩, rfl⟩ := run
  refine (Template.Renderable.set ⟨?_, ?_, ?_⟩ (.inl rfl) isSet).renders (by decide)
  · simp [withheldNames]
  · simpa [testedNames] using steady.evaluates
  · exact List.forall_mem_singleton.mpr ⟨_, rfl⟩

theorem Steady.extremeFragment {t : Template} (steady : op.Steady)
    (isExtreme : t = .min ∨ t = .max) (run : op.extremeFragment t = .ok f) : f.Renders := by
  simp only [Operation.extremeFragment, extremeVariables, bind_eq_ok_iff, pure_eq_ok_iff] at run
  obtain ⟨out, _, count, _, _, ⟨set, isSet, _, _, rfl⟩, rfl⟩ := run
  have emitted : t ∈ Template.ofOperations ∧ t.listKeys = ["inputs", "out_shape"] := by
    rcases isExtreme with rfl | rfl
    · exact ⟨by decide, rfl⟩
    · exact ⟨by decide, rfl⟩
  have shape : ∃ vs, shapeOrSingle out = .list vs := by
    unfold shapeOrSingle
    split
    · exact ⟨_, rfl⟩
    · exact ⟨_, rfl⟩
  refine (Template.Renderable.set ⟨?_, ?_, ?_⟩ (.inl rfl) isSet).renders emitted.1
  · simp [withheldNames]
  · simpa [testedNames] using steady.evaluates
  · simp only [emitted.2, List.forall_mem_cons]
    exact ⟨⟨_, rfl⟩, shape.imp fun _ => congrArg some, List.forall_mem_nil _⟩

theorem Steady.reshapeFragment (steady : op.Steady) (run : op.reshapeFragment = .ok f) :
    f.Renders := by
  simp only [Operation.reshapeFragment, reshapeVariables, bind_eq_ok_iff, pure_eq_ok_iff] at run
  obtain ⟨out, _, count, _, _, ⟨set, isSet, rfl⟩, rfl⟩ := run
  refine (Template.Renderable.set ⟨?_, ?_, ?_⟩ (.inl rfl) isSet).renders (by decide)
  · simp [withheldNames]
  · simpa [testedNames] using steady.evaluates
  · exact List.forall_mem_singleton.mpr ⟨_, rfl⟩

theorem Steady.maxPoolFragment (steady : op.Steady) (run : op.maxPoolFragment = .ok f) :
    f.Renders := by
  simp only [Operation.maxPoolFragment, maxPoolVariables, bind_eq_ok_iff, pure_eq_ok_iff] at run
  obtain ⟨_, _, _, _, _, _, _, _, _, ⟨_, _, _, isSet, _, _, _, _, _, _, rfl⟩, rfl⟩ := run
  refine (Template.Renderable.set ⟨?_, ?_, ?_⟩ (.inr rfl) isSet).renders (by decide)
  · simp [withheldNames]
  · simpa [testedNames] using steady.evaluates
  · simp only [Template.listKeys, List.forall_mem_cons]
    exact ⟨⟨_, rfl⟩, ⟨_, rfl⟩, List.forall_mem_nil _⟩

theorem Steady.quantizeFragment (steady : op.Steady) (run : op.quantizeFragment = .ok f) :
    f.Renders := by
  simp only [Operation.quantizeFragment, quantizeVariables, bind_eq_ok_iff, pure_eq_ok_iff] at run
  obtain ⟨_, _, _, ⟨_, _, _, isSet, _, _, rfl⟩, rfl⟩ := run
  refine (Template.Renderable.set ⟨?_, ?_, ?_⟩ (.inr rfl) isSet).renders (by decide)
  · simp [withheldNames]
  · simpa [testedNames] using steady.evaluates
  · simp only [Template.listKeys, List.forall_mem_cons]
    exact ⟨⟨_, rfl⟩, ⟨_, rfl⟩, List.forall_mem_nil _⟩

theorem Steady.quantizedBinaryFragment {t : Template} (steady : op.Steady)
    (isBinary : t = .matMul ∨ t = .quantizedAdd) (run : op.quantizedBinaryFragment t = .ok f) :
    f.Renders := by
  simp only [Operation.quantizedBinaryFragment, quantizedBinaryVariables, bind_eq_ok_iff,
    pure_eq_ok_iff] at run
  obtain ⟨_, _, _, _, _, _, _, ⟨_, _, _, _, _, isSet, _, _, _, _, _, _, rfl⟩, rfl⟩ := run
  have emitted : t ∈ Template.ofOperations ∧ t.listKeys = ["inputs", "outputs"] := by
    rcases isBinary with rfl | rfl
    · exact ⟨by decide, rfl⟩
    · exact ⟨by decide, rfl⟩
  refine (Template.Renderable.set ⟨?_, ?_, ?_⟩ (.inr rfl) isSet).renders emitted.1
  · simp [withheldNames]
  · simpa [testedNames] using steady.evaluates
  · simp only [emitted.2, List.forall_mem_cons]
    exact ⟨⟨_, rfl⟩, ⟨_, rfl⟩, List.forall_mem_nil _⟩

theorem Steady.reluFragment (steady : op.Steady) (run : op.reluFragment = .ok f) : f.Renders := by
  simp only [Operation.reluFragment, reluVariables, bind_eq_ok_iff, pure_eq_ok_iff] at run
  obtain ⟨_, _, _, _, _, ⟨_, checked, _, _, _, _, _, _, _, _, rfl⟩, rfl⟩ := run
  refine Template.Renderable.renders (by decide) ⟨?_, ?_, ?_⟩
  · simp [withheldNames]
  · simpa [testedNames] using ⟨decided_of_checkCounts checked, steady.evaluates⟩
  · simp only [Template.listKeys, List.forall_mem_cons]
    exact ⟨⟨_, rfl⟩, ⟨_, rfl⟩, ⟨_, rfl⟩, List.forall_mem_nil _⟩

theorem Steady.requantizeRangeFragment (steady : op.Steady)
    (run : op.requantizeRangeFragment = .ok f) : f.Renders := by
  simp only [Operation.requantizeRangeFragment, requantizeRangeVariables, bind_eq_ok_iff,
    pure_eq_ok_iff] at run
  obtain ⟨_, _, _, ⟨_, checked, _, _, rfl⟩, rfl⟩ := run
  refine Template.Renderable.renders (by decide) ⟨?_, ?_, ?_⟩
  · simp [withheldNames]
  · simpa [testedNames] using ⟨decided_of_checkCounts checked, steady.evaluates⟩
  · simp only [Template.listKeys, List.forall_mem_cons]
    exact ⟨⟨_, rfl⟩, ⟨_, rfl⟩, List.forall_mem_nil _⟩

theorem Steady.requantizeFragment (steady : op.Steady) (run : op.requantizeFragment = .ok f) :
    f.Renders := by
  simp only [Operation.requantizeFragment, requantizeVariables, bind_eq_ok_iff,
    pure_eq_ok_iff] at run
  obtain ⟨_, _, _, _, _, ⟨_, checked, _, _, _, _, rfl⟩, rfl⟩ := run
  refine Template.Renderable.renders (by decide) ⟨?_, ?_, ?_⟩
  · simp [withheldNames]
  · simpa [testedNames] using ⟨decided_of_checkCounts checked, steady.evaluates⟩
  · simp only [Template.listKeys, List.forall_mem_cons]
    exact ⟨⟨_, rfl⟩, ⟨_, rfl⟩, List.forall_mem_nil _⟩

theorem Steady.quantizedReshapeFragment (steady : op.Steady)
    (run : op.quantizedReshapeFragment = .ok f) : f.Renders := by
  simp only [Operation.quantizedReshapeFragment, quantizedReshapeVariables, bind_eq_ok_iff,
    pure_eq_ok_iff] at run
  obtain ⟨_, ⟨_, isSet, rfl⟩, rfl⟩ := run
  refine (Template.Renderable.set ⟨?_, ?_, ?_⟩ (.inr rfl) isSet).renders (by decide)
  · simp [withheldNames]
  · simpa [testedNames] using steady.evaluates
  · simp only [Template.listKeys, List.forall_mem_cons]
    exact ⟨⟨_, rfl⟩, ⟨_, rfl⟩, List.forall_mem_nil _⟩

/-- The strides of a convolution are shown as they are, so they have to be a list. -/
theorem Steady.conv2dFragment (steady : op.Steady) (run : op.conv2dFragment = .ok f) :
    f.Renders := by
  simp only [Operation.conv2dFragment, conv2dVariables, bind_eq_ok_iff, pure_eq_ok_iff] at run
  obtain ⟨_, _, _, _, strides, found, _, _, _, ⟨_, checked, _, _, _, _, _, _, _, _, rfl⟩, rfl⟩ :=
    run
  obtain ⟨vs, rfl⟩ := steady.ints _ _ found
  refine Template.Renderable.renders (by decide) ⟨?_, ?_, ?_⟩
  · simp [withheldNames]
  · simpa [testedNames] using ⟨decided_of_checkCounts checked, steady.evaluates⟩
  · simp only [Template.listKeys, List.forall_mem_cons]
    exact ⟨⟨_, rfl⟩, ⟨_, rfl⟩, ⟨_, rfl⟩, ⟨_, rfl⟩, List.forall_mem_nil _⟩

end Fragments

end Operation

/-! ## Constants -/

theorem emitConst_renders {target : Target} {op : Operation} {f : Fragment} {e e' : Emission}
    (run : (emitConst target op).runOn e = (e', .ok f)) :
    f.Renders ∧ e'.weights = e.weights := by
  obtain ⟨_, _, _, _, _, _, _, _, _, _, _, loaded, _, _, rfl, rfl⟩ := emitConst_spec run
  obtain ⟨_, _, _, isSet, rfl⟩ := loadTensorVariables_ok loaded
  refine ⟨(Template.Renderable.set ⟨?_, ?_, ?_⟩ (.inl rfl) isSet).renders (by decide), rfl⟩
  · simp [withheldNames]
  · simp [testedNames, Decided, Value.truth?]
  · exact List.forall_mem_nil _

/-- The array of an inlined constant has one dimension, so its elements can be gone through. -/
theorem weight_renders {array type shape : Value} {a : NumArray} {vars : Variables}
    (run : weightVariables array type shape (.array a.flatten) = .ok vars) :
    (Fragment.of .weight vars).Renders := by
  simp only [weightVariables, bind_eq_ok_iff, pure_eq_ok_iff] at run
  obtain ⟨_, _, _, _, _, _, rfl⟩ := run
  exact Fragment.renders_of rfl fun _ => ⟨_, rfl⟩

/-- An inlined constant can be written, and so can the array that is added for it. -/
theorem emitInline_renders {target : Target} {op : Operation} {f : Fragment} {e e' : Emission}
    (run : (emitInline target op).runOn e = (e', .ok f)) :
    f.Renders ∧ ∃ w, w.Renders ∧ e'.weights = e.weights ++ [w] := by
  obtain ⟨_, _, _, _, _, _, _, _, _, _, _, built, weighed, rfl, rfl⟩ := emitInline_spec run
  refine ⟨?_, _, weight_renders weighed, rfl⟩
  obtain ⟨_, _, _, _, _, isSet, _, _, rfl⟩ := binaryTensorVariables_ok built
  refine (Template.Renderable.set ⟨?_, ?_, ?_⟩ (.inl rfl) isSet).renders (by decide)
  · simp [withheldNames]
  · simp [testedNames, Decided, Value.truth?]
  · exact List.forall_mem_nil _

/-! ## Emission -/

/-- The code of a steady operation can be written, and so can an array that it adds. -/
theorem emitOperation_renders {target : Target} {op : Operation} {f : Fragment} {e e' : Emission}
    (steady : op.Steady) (run : (emitOperation target op).runOn e = (e', .ok f)) :
    f.Renders ∧ ∀ w ∈ e'.weights, w ∈ e.weights ∨ w.Renders := by
  unfold emitOperation at run
  split at run
  · exact absurd run Emit.runOn_throw_ne_ok
  · obtain ⟨renders, kept⟩ := emitConst_renders run
    exact ⟨renders, fun w member => .inl (kept ▸ member)⟩
  · obtain ⟨renders, w, rendersToo, added⟩ := emitInline_renders run
    refine ⟨renders, fun w' member => ?_⟩
    rw [added] at member
    rcases List.mem_append.mp member with earlier | last
    · exact .inl earlier
    · rw [List.mem_singleton.mp last]
      exact .inr rendersToo
  all_goals
    obtain ⟨rfl, made⟩ := Emit.runOn_lift_ok_iff.mp run
    refine ⟨?_, fun w member => .inl member⟩
  · exact steady.addFragment made
  · exact steady.argMaxFragment made
  · exact steady.dequantizeFragment made
  · exact steady.extremeFragment (.inr rfl) made
  · exact steady.extremeFragment (.inl rfl) made
  · exact steady.maxPoolFragment made
  · exact steady.quantizeFragment made
  · exact steady.quantizedBinaryFragment (.inl rfl) made
  · exact steady.quantizedBinaryFragment (.inr rfl) made
  · exact steady.reluFragment made
  · exact steady.requantizeRangeFragment made
  · exact steady.requantizeFragment made
  · exact steady.reshapeFragment made
  · exact steady.quantizedReshapeFragment made
  · exact steady.conv2dFragment made

/-- All that is emitted so far can be written. -/
structure Draft.Writable (d : Draft) (e : Emission) : Prop where
  members : ∀ f ∈ d.members, f.Renders
  weights : ∀ f ∈ e.weights, f.Renders

theorem Draft.Writable.addMember {d : Draft} {f : Fragment} {e e' : Emission}
    (writable : d.Writable e) (weights : ∀ w ∈ e'.weights, w ∈ e.weights ∨ w.Renders)
    (renders : f.Renders) : Writable { d with members := d.members ++ [f] } e' := by
  refine ⟨fun f' member => ?_, fun w member => (weights w member).elim (writable.weights w) id⟩
  rcases List.mem_append.mp member with earlier | last
  · exact writable.members f' earlier
  · rw [List.mem_singleton.mp last]
    exact renders

theorem writable_of_adds {target : Target} {d d' : Draft} {op : Operation} {e e' : Emission}
    (writable : d.Writable e) (steady : op.Steady) (adds : d.Adds target op e d' e') :
    d'.Writable e' := by
  cases adds with
  | input => exact ⟨writable.members, writable.weights⟩
  | code _ emitted =>
    obtain ⟨renders, weights⟩ := emitOperation_renders steady emitted
    exact writable.addMember weights renders

theorem operationComment_renders (i : Nat) (name : String) : (operationComment i name).Renders :=
  Fragment.renders_of rfl fun _ => ⟨_, rfl⟩

/-- Once the operations of a graph are emitted, all that was emitted for them can be written. -/
theorem writable_addOperations {target : Target} {comments : Bool} {g : Graph} {names : List String}
    (steady : ∀ op ∈ names.filterMap g.find?, op.Steady) {i : Nat} {d d' : Draft} {e e' : Emission}
    (writable : d.Writable e)
    (run : (addOperations target comments g i d names).runOn e = (e', .ok d')) :
    d'.Writable e' := by
  refine addOperations_invariant (fun _ d e => d.Writable e) ?_ ?_ writable run
  · intro done op d e d' e' member writable adds
    exact writable_of_adds writable (steady op member) adds
  · intro done op d e i sets _ writable
    exact writable.addMember (fun _ => .inl) (operationComment_renders i op.name)

/-! ## Texts -/

theorem Draft.Writable.weightsText {d : Draft} {e : Emission} (writable : d.Writable e) :
    ∃ t, weightsText e.weights = .ok t := by
  obtain ⟨sss, members⟩ := exists_mapM_iff.mpr writable.weights
  rw [weightsText_eq, members]
  exact ⟨_, rfl⟩

/-- The entry point can be written around members that can. -/
theorem Draft.Writable.statements {d : Draft} {e : Emission} (writable : d.Writable e)
    (graph : String) : ∃ body, d.statements graph = .ok body := by
  obtain ⟨sss, members⟩ := exists_mapM_iff.mpr writable.members
  rw [statements_eq, members]
  obtain ⟨inputs, counts, fragments⟩ := d
  cases inputs with
  | nil => exact ⟨_, rfl⟩
  | cons v vs => exact ⟨_, rfl⟩

end TensorEmit
