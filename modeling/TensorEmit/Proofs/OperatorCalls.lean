import TensorEmit.Proofs.Arguments
import TensorEmit.Proofs.ContextCalls
import TensorEmit.Proofs.Emission

/-!
# Calls of operations

What the code of one operation does to the context: it adds every output, with the number of its
uses, and pushes the operator behind them. `Operation.adds` and `Operation.pushes` say so in terms
of the operation alone, and `emitOperation_calls` is the lemma that every operator keeps to it.
Constants are added and push nothing. A product and a sum of quantised tensors list their inputs in
another order than the graph does.
-/

namespace TensorEmit

open Code

namespace OperatorKind

/-- How many outputs the code of a kind registers. -/
def outputCount : OperatorKind → Nat
  | requantizeRange => 2
  | maxPool | quantize | matMul | relu | quantizedAdd | requantize | quantizedReshape | conv2d => 3
  | _ => 1

/-- Whether operations of a kind compute their outputs from inputs. -/
def computes : OperatorKind → Bool
  | const | inline => false
  | _ => true

/-- Whether operations of a kind list the operands before their ranges. -/
def takesOperandsFirst : OperatorKind → Bool
  | matMul | quantizedAdd => true
  | _ => false

end OperatorKind

/-- The places of the inputs as a product or a sum of quantised tensors lists them. -/
def operandOrder : List Int := [0, 2, 3, 1, 4, 5]

theorem operandsFirst_eq : operandsFirst = .list (operandOrder.map Value.int) := rfl

theorem elementOf_type_eq_ok_iff {t : ElementType} {v : Value} :
    TypeName.elementOf (.type t) = .ok v ↔
      ∃ names, TypeName.of? t = some names ∧ Value.text names.element = v := by
  unfold TypeName.elementOf TypeName.find TypeName.find?
  simp only [bind_eq_ok_iff, pure_eq_ok_iff]
  cases TypeName.of? t with
  | none => simp
  | some names => simp

namespace Operation

/-- The names of the inputs. -/
def readNames (op : Operation) : List String := op.inputs.map Tensor.name

/-- The names of the outputs. -/
def madeNames (op : Operation) : List String := op.outputs.map Tensor.name

/-- The number of uses that is shown for each output. -/
def countTexts (op : Operation) : List (Option String) :=
  match op.outputs with
  | [_] =>
    match op.useCount with
    | .ok count => [countText count]
    | .error _ => [none]
  | outs => (List.range outs.length).map (countTextAt op.useCounts)

/-- The names that the operator reads, in its own order. -/
def arguments (k : OperatorKind) (op : Operation) : List String :=
  if k.takesOperandsFirst then listed (operandOrder.filterMap (pick op.readNames))
  else listed op.readNames

/-- The calls that register the outputs. -/
def adds (op : Operation) : List ContextCall :=
  List.zipWith ContextCall.add op.madeNames op.countTexts

/-- The calls that push the operator. -/
def pushes (k : OperatorKind) (op : Operation) : List ContextCall :=
  if k.computes then [.push (op.arguments k) op.madeNames] else []

/-- What does not compute pushes nothing. -/
theorem pushes_eq_nil {k : OperatorKind} {op : Operation} (constant : k.computes = false) :
    op.adds ++ op.pushes k = op.adds := by
  unfold pushes
  rw [constant]
  exact List.append_nil _

theorem inputList_eq (op : Operation) : op.inputList = .list (op.readNames.map Value.text) := by
  unfold inputList readNames
  rw [List.map_map]
  rfl

theorem outputList_eq (op : Operation) : op.outputList = .list (op.madeNames.map Value.text) := by
  unfold outputList madeNames
  rw [List.map_map]
  rfl

/-! ## The shapes of fragments -/

/-- A fragment that adds one tensor. -/
def TensorFragment (op : Operation) (f : Fragment) : Prop :=
  ∃ t vars out count, f = .of t vars ∧ (t = .loadTensor ∨ t = .binaryTensor) ∧
    op.output 0 = .ok out ∧ op.useCount = .ok count ∧ TensorVariables vars out.name count

/-- Variables of a template that makes its output first, with the type and the shape of a tensor. -/
structure MadeVariables (vars : Variables) (out : Tensor) : Prop where
  type : ∃ names, TypeName.of? out.type = some names ∧
    vars.get? "out_dtype" = some (.text names.element)
  shape : vars.get? "out_shape" = some (shapeOrSingle out)

/-- A fragment that computes one output. -/
def SingleFragment (op : Operation) (f : Fragment) : Prop :=
  ∃ t vars out count, f = .of t vars ∧ t ∈ Template.singles ∧ op.output 0 = .ok out ∧
    op.useCount = .ok count ∧ SingleVariables vars op.readNames out.name count ∧
    (t ∈ Template.extremes → MadeVariables vars out)

/-- A fragment that computes `n` outputs from inputs of the given names. -/
def ListFragment (op : Operation) (n : Nat) (ins : List String) (f : Fragment) : Prop :=
  ∃ t vars, f = .of t vars ∧ (t, n) ∈ Template.severals ∧
    ListVariables vars ins op.madeNames op.useCounts

theorem output_zero {op : Operation} {out : Tensor} (found : op.output 0 = .ok out)
    (one : op.outputs.length = 1) : op.outputs = [out] := by
  obtain ⟨t, single⟩ := List.length_eq_one_iff.mp one
  unfold output at found
  rw [single] at found
  cases found
  exact single

theorem head?_of_output {op : Operation} {out : Tensor} (found : op.output 0 = .ok out) :
    op.outputs.head? = some out := by
  unfold output at found
  split at found
  case h_1 there =>
    cases found
    rw [List.head?_eq_getElem?, there]
  case h_2 => cases found

theorem TensorFragment.calls {op : Operation} {f : Fragment} {ss : List Statement}
    (fragment : op.TensorFragment f) (one : op.outputs.length = 1) (run : f.statements = .ok ss) :
    contextCalls ss = op.adds := by
  obtain ⟨t, vars, out, count, rfl, isTensor, found, counted, held⟩ := fragment
  obtain ⟨_, run⟩ := Fragment.statements_of run
  rw [Template.contextCalls_tensor isTensor held run]
  simp [adds, madeNames, countTexts, output_zero found one, counted]

theorem SingleFragment.calls {op : Operation} {f : Fragment} {ss : List Statement}
    (fragment : op.SingleFragment f) (one : op.outputs.length = 1) (run : f.statements = .ok ss) :
    contextCalls ss = op.adds ++ [.push (listed op.readNames) op.madeNames] := by
  obtain ⟨t, vars, out, count, rfl, single, found, counted, held, _⟩ := fragment
  obtain ⟨_, run⟩ := Fragment.statements_of run
  rw [Template.contextCalls_single single held run]
  simp [adds, madeNames, countTexts, output_zero found one, counted]

theorem ListFragment.calls {op : Operation} {n : Nat} {ins : List String} {f : Fragment}
    {ss : List Statement} (fragment : op.ListFragment n ins f) (several : 2 ≤ n)
    (arity : op.outputs.length = n) (run : f.statements = .ok ss) :
    contextCalls ss = op.adds ++ [.push (listed ins) op.madeNames] := by
  obtain ⟨t, vars, rfl, ofTemplate, held⟩ := fragment
  obtain ⟨_, run⟩ := Fragment.statements_of run
  have length : op.madeNames.length = n := by
    unfold madeNames
    rw [List.length_map, arity]
  rw [Template.contextCalls_several ofTemplate held length run]
  have some : op.madeNames ≠ [] := List.ne_nil_of_length_pos (by omega)
  unfold Template.listCalls
  rw [listed_of_ne_nil some]
  have counts : op.countTexts = (List.range n).map (countTextAt op.useCounts) := by
    unfold countTexts
    split
    · rename_i single
      rw [single] at arity
      simp only [List.length_singleton] at arity
      omega
    · rw [arity]
  congr 1
  unfold adds
  rw [counts, ← length, List.zipIdx_eq_zip_range', List.zip_eq_zipWith, List.map_zipWith,
    List.zipWith_map_right, List.range_eq_range']

/-! ## Variables of fragments -/

theorem setIfTrue_ok {key : String} {v : Value} {set : Variables}
    (run : setIfTrue key v = .ok set) :
    (v.truth? = some true ∧ set = [(key, v)]) ∨ (v.truth? = some false ∧ set = []) := by
  simp only [setIfTrue, truth, holds, bind_eq_ok_iff, pure_eq_ok_iff] at run
  obtain ⟨isTrue, test, rfl⟩ := run
  split at test
  · rename_i b found
    cases test
    cases isTrue
    · exact .inr ⟨found, rfl⟩
    · exact .inl ⟨found, rfl⟩
  · cases test

theorem heldIfTrue_of_setIfTrue {key : String} {v : Value} {set rest : Variables}
    (run : setIfTrue key v = .ok set) (fresh : rest.get? key = none) :
    HeldIfTrue (set ++ rest) key v := by
  rcases setIfTrue_ok run with ⟨isTrue, rfl⟩ | ⟨isFalse, rfl⟩
  · exact .inl ⟨isTrue, by simp [Entries.get?]⟩
  · refine .inr ⟨isFalse, ?_⟩
    unfold Variables.test
    rw [List.nil_append, fresh]
    rfl

/-- A variable that is set only if it counts as true hides no other. -/
theorem get?_of_setIfTrue {key other : String} {v : Value} {set rest : Variables}
    (run : setIfTrue key v = .ok set) (differs : key ≠ other) :
    Entries.get? (set ++ rest) other = rest.get? other := by
  rcases setIfTrue_ok run with ⟨_, rfl⟩ | ⟨_, rfl⟩
  · simp [Entries.get?, differs]
  · rfl

/-- The check of the numbers of uses keeps them; only nothing becomes an empty list. -/
theorem checkCounts_ok {counts names counts' : Value}
    (run : checkCounts counts names = .ok counts') :
    (counts' = counts ∧ ∃ b, counts.truth? = some b) ∨ (counts = .none ∧ counts' = .list []) := by
  unfold checkCounts at run
  split at run
  · cases run
    exact .inr ⟨rfl, rfl⟩
  · simp only [truth, holds, bind_eq_ok_iff] at run
    obtain ⟨b, test, run⟩ := run
    split at test
    · rename_i found
      cases test
      refine .inl ⟨?_, b, found⟩
      cases b with
      | false =>
        cases run
        rfl
      | true =>
        simp only [if_true, bind_eq_ok_iff] at run
        obtain ⟨n, _, m, _, run⟩ := run
        split at run
        · cases run
        · cases run
          rfl
    · cases test

theorem heldIfTrue_of_checkCounts {key : String} {counts names counts' : Value}
    {vars : Variables} (run : checkCounts counts names = .ok counts')
    (held : HeldIfTrue vars key counts') : HeldIfTrue vars key counts := by
  rcases checkCounts_ok run with ⟨rfl, _⟩ | ⟨rfl, rfl⟩
  · exact held
  · rcases held with ⟨isTrue, _⟩ | ⟨_, untested⟩
    · cases isTrue
    · exact .inr ⟨rfl, untested⟩

/-- Numbers of uses that were checked and are always set. -/
theorem heldIfTrue_of_checked {key : String} {counts names counts' : Value} {vars : Variables}
    (run : checkCounts counts names = .ok counts') (found : vars.get? key = some counts') :
    HeldIfTrue vars key counts := by
  refine heldIfTrue_of_checkCounts run ?_
  obtain ⟨b, truth⟩ : ∃ b, counts'.truth? = some b := by
    rcases checkCounts_ok run with ⟨rfl, decided⟩ | ⟨_, rfl⟩
    · exact decided
    · exact ⟨false, rfl⟩
  cases b with
  | true => exact .inl ⟨truth, found⟩
  | false =>
    refine .inr ⟨truth, ?_⟩
    unfold Variables.test
    rw [found]
    simp [holds, truth]

theorem handleless_of_setIfTrue {key : String} {v : Value} {set rest : Variables}
    (run : setIfTrue key v = .ok set) (counts : key = "ref_count" ∨ key = "ref_counts")
    (handleless : rest.Handleless) : Variables.Handleless (set ++ rest) := by
  have other : key ≠ "create_sptr" ∧ key ≠ "sptr_names" := by
    rcases counts with rfl | rfl
    · decide
    · decide
  constructor
  · rw [get?_of_setIfTrue run other.1, handleless.unwanted]
  · rw [get?_of_setIfTrue run other.2, handleless.unnamed]

/-! ## Operators with one output -/

theorem singleVariables_of_set {op : Operation} {out : String} {count : Value}
    {set rest : Variables} (isSet : setIfTrue "ref_count" count = .ok set)
    (fresh : rest.get? "ref_count" = none) (inputs : rest.get? "inputs" = some op.inputList)
    (output : rest.get? "output" = some (.text out)) (handleless : rest.Handleless) :
    SingleVariables (set ++ rest) op.readNames out count := by
  refine ⟨?_, ?_, heldIfTrue_of_setIfTrue isSet fresh,
    handleless_of_setIfTrue isSet (.inl rfl) handleless⟩
  · rw [get?_of_setIfTrue isSet (by decide), inputs, inputList_eq]
  · rw [get?_of_setIfTrue isSet (by decide), output]

section Singles

variable {op : Operation} {f : Fragment}

theorem addFragment_single (run : op.addFragment = .ok f) : op.SingleFragment f := by
  simp only [addFragment, addVariables, bind_eq_ok_iff, pure_eq_ok_iff] at run
  obtain ⟨out, found, _, _, count, counted, _, ⟨set, isSet, _, _, rfl⟩, rfl⟩ := run
  exact ⟨.add, _, out, count, rfl, by decide, found, counted,
    singleVariables_of_set isSet rfl rfl rfl ⟨rfl, rfl⟩, by simp [Template.extremes]⟩

theorem argMaxFragment_single (run : op.argMaxFragment = .ok f) : op.SingleFragment f := by
  simp only [argMaxFragment, argMaxVariables, bind_eq_ok_iff, pure_eq_ok_iff] at run
  obtain ⟨out, found, _, _, count, counted, _, ⟨set, isSet, _, _, _, _, rfl⟩, rfl⟩ := run
  exact ⟨.argMax, _, out, count, rfl, by decide, found, counted,
    singleVariables_of_set isSet rfl rfl rfl ⟨rfl, rfl⟩, by simp [Template.extremes]⟩

theorem dequantizeFragment_single (run : op.dequantizeFragment = .ok f) :
    op.SingleFragment f := by
  simp only [dequantizeFragment, dequantizeVariables, bind_eq_ok_iff, pure_eq_ok_iff] at run
  obtain ⟨out, found, count, counted, _, ⟨set, isSet, _, _, rfl⟩, rfl⟩ := run
  exact ⟨.dequantize, _, out, count, rfl, by decide, found, counted,
    singleVariables_of_set isSet rfl rfl rfl ⟨rfl, rfl⟩, by simp [Template.extremes]⟩

theorem extremeFragment_single {t : Template} (single : t ∈ Template.singles)
    (run : op.extremeFragment t = .ok f) : op.SingleFragment f := by
  simp only [extremeFragment, extremeVariables, bind_eq_ok_iff, pure_eq_ok_iff] at run
  obtain ⟨out, found, count, counted, _, ⟨set, isSet, type, isType, rfl⟩, rfl⟩ := run
  refine ⟨t, _, out, count, rfl, single, found, counted,
    singleVariables_of_set isSet rfl rfl rfl ⟨rfl, rfl⟩, fun _ => ⟨?_, ?_⟩⟩
  · rw [get?_of_setIfTrue isSet (by decide)]
    obtain ⟨names, isNamed, rfl⟩ := elementOf_type_eq_ok_iff.mp isType
    exact ⟨names, isNamed, rfl⟩
  · rw [get?_of_setIfTrue isSet (by decide)]
    rfl

theorem reshapeFragment_single (run : op.reshapeFragment = .ok f) : op.SingleFragment f := by
  simp only [reshapeFragment, reshapeVariables, bind_eq_ok_iff, pure_eq_ok_iff] at run
  obtain ⟨out, found, count, counted, _, ⟨set, isSet, rfl⟩, rfl⟩ := run
  exact ⟨.reshape, _, out, count, rfl, by decide, found, counted,
    singleVariables_of_set isSet rfl rfl rfl ⟨rfl, rfl⟩, by simp [Template.extremes]⟩

end Singles

/-! ## Operators with several outputs -/

theorem listVariables_of_set {op : Operation} {ins : List String} {counts inputs : Value}
    {set rest : Variables} (isSet : setIfTrue "ref_counts" counts = .ok set)
    (kept : ∀ vars, HeldIfTrue vars "ref_counts" counts →
      HeldIfTrue vars "ref_counts" op.useCounts)
    (texts : inputs = .list (ins.map Value.text)) (fresh : rest.get? "ref_counts" = none)
    (read : rest.get? "inputs" = some inputs) (made : rest.get? "outputs" = some op.outputList)
    (handleless : rest.Handleless) :
    ListVariables (set ++ rest) ins op.madeNames op.useCounts := by
  refine ⟨?_, ?_, kept _ (heldIfTrue_of_setIfTrue isSet fresh),
    handleless_of_setIfTrue isSet (.inr rfl) handleless⟩
  · rw [get?_of_setIfTrue isSet (by decide), read, texts]
  · rw [get?_of_setIfTrue isSet (by decide), made, outputList_eq]

theorem listVariables_of_checked {op : Operation} {counts : Value} {vars : Variables}
    (checked : checkCounts op.useCounts op.outputList = .ok counts)
    (found : vars.get? "ref_counts" = some counts) (inputs : vars.get? "inputs" = some op.inputList)
    (outputs : vars.get? "outputs" = some op.outputList) (handleless : vars.Handleless) :
    ListVariables vars op.readNames op.madeNames op.useCounts := by
  refine ⟨?_, ?_, heldIfTrue_of_checked checked found, handleless⟩
  · rw [inputs, inputList_eq]
  · rw [outputs, outputList_eq]

section Lists

variable {op : Operation} {f : Fragment}

theorem maxPoolFragment_list (run : op.maxPoolFragment = .ok f) :
    op.ListFragment 3 op.readNames f := by
  simp only [maxPoolFragment, maxPoolVariables, bind_eq_ok_iff, pure_eq_ok_iff] at run
  obtain ⟨_, _, _, _, _, _, _, _, _, ⟨_, checked, _, isSet, _, _, _, _, _, _, rfl⟩, rfl⟩ := run
  exact ⟨.maxPool, _, rfl, by decide, listVariables_of_set isSet
    (fun _ => heldIfTrue_of_checkCounts checked) op.inputList_eq rfl rfl rfl ⟨rfl, rfl⟩⟩

theorem quantizeFragment_list (run : op.quantizeFragment = .ok f) :
    op.ListFragment 3 op.readNames f := by
  simp only [quantizeFragment, quantizeVariables, bind_eq_ok_iff, pure_eq_ok_iff] at run
  obtain ⟨_, _, _, ⟨_, checked, _, isSet, _, _, rfl⟩, rfl⟩ := run
  exact ⟨.quantize, _, rfl, by decide, listVariables_of_set isSet
    (fun _ => heldIfTrue_of_checkCounts checked) op.inputList_eq rfl rfl rfl ⟨rfl, rfl⟩⟩

theorem reluFragment_list (run : op.reluFragment = .ok f) : op.ListFragment 3 op.readNames f := by
  simp only [reluFragment, reluVariables, bind_eq_ok_iff, pure_eq_ok_iff] at run
  obtain ⟨_, _, _, _, _, ⟨_, checked, _, _, _, _, _, _, _, _, rfl⟩, rfl⟩ := run
  exact ⟨.relu, _, rfl, by decide, listVariables_of_checked checked rfl rfl rfl ⟨rfl, rfl⟩⟩

theorem requantizeRangeFragment_list (run : op.requantizeRangeFragment = .ok f) :
    op.ListFragment 2 op.readNames f := by
  simp only [requantizeRangeFragment, requantizeRangeVariables, bind_eq_ok_iff,
    pure_eq_ok_iff] at run
  obtain ⟨_, _, _, ⟨_, checked, _, _, rfl⟩, rfl⟩ := run
  exact ⟨.requantizeRange, _, rfl, by decide,
    listVariables_of_checked checked rfl rfl rfl ⟨rfl, rfl⟩⟩

theorem requantizeFragment_list (run : op.requantizeFragment = .ok f) :
    op.ListFragment 3 op.readNames f := by
  simp only [requantizeFragment, requantizeVariables, bind_eq_ok_iff, pure_eq_ok_iff] at run
  obtain ⟨_, _, _, _, _, ⟨_, checked, _, _, _, _, rfl⟩, rfl⟩ := run
  exact ⟨.requantize, _, rfl, by decide, listVariables_of_checked checked rfl rfl rfl ⟨rfl, rfl⟩⟩

theorem quantizedReshapeFragment_list (run : op.quantizedReshapeFragment = .ok f) :
    op.ListFragment 3 op.readNames f := by
  simp only [quantizedReshapeFragment, quantizedReshapeVariables, bind_eq_ok_iff,
    pure_eq_ok_iff] at run
  obtain ⟨_, ⟨_, isSet, rfl⟩, rfl⟩ := run
  exact ⟨.quantizedReshape, _, rfl, by decide,
    listVariables_of_set isSet (fun _ held => held) op.inputList_eq rfl rfl rfl ⟨rfl, rfl⟩⟩

theorem conv2dFragment_list (run : op.conv2dFragment = .ok f) :
    op.ListFragment 3 op.readNames f := by
  simp only [conv2dFragment, conv2dVariables, bind_eq_ok_iff, pure_eq_ok_iff] at run
  obtain ⟨_, _, _, _, _, _, _, _, _, ⟨_, checked, _, _, _, _, _, _, _, _, rfl⟩, rfl⟩ := run
  exact ⟨.conv2d, _, rfl, by decide, listVariables_of_checked checked rfl rfl rfl ⟨rfl, rfl⟩⟩

/-- A product or a sum of quantised tensors lists its inputs in its own order. -/
theorem quantizedBinaryFragment_list {t : Template} (several : (t, 3) ∈ Template.severals)
    (unpadded : ∀ s ∈ op.readNames, Text.Unpadded s)
    (run : op.quantizedBinaryFragment t = .ok f) :
    op.ListFragment 3 (operandOrder.filterMap (pick op.readNames)) f := by
  simp only [quantizedBinaryFragment, quantizedBinaryVariables, bind_eq_ok_iff,
    pure_eq_ok_iff] at run
  obtain ⟨_, _, _, _, _, _, _, ⟨ins, arranged, _, checked, _, isSet, _, _, _, _, _, _, rfl⟩, rfl⟩ :=
    run
  rw [inputList_eq, operandsFirst_eq, arrange_texts unpadded (by decide)] at arranged
  obtain ⟨names, picked, rfl⟩ := arranged
  rw [filterMap_of_pickAll picked]
  exact ⟨t, _, rfl, several, listVariables_of_set isSet
    (fun _ => heldIfTrue_of_checkCounts checked) rfl rfl rfl rfl ⟨rfl, rfl⟩⟩

end Lists

end Operation

/-! ## Constants -/

theorem Operation.tensorVariables_of_set {name : String} {count : Value} {set rest : Variables}
    (isSet : setIfTrue "ref_count" count = .ok set) (fresh : rest.get? "ref_count" = none)
    (named : rest.get? "tensor_name" = some (.text name)) (handleless : rest.Handleless) :
    TensorVariables (set ++ rest) name count := by
  refine ⟨?_, heldIfTrue_of_setIfTrue isSet fresh,
    handleless_of_setIfTrue isSet (.inl rfl) handleless⟩
  rw [get?_of_setIfTrue isSet (by decide), named]

theorem emitConst_tensor {target : Target} {op : Operation} {f : Fragment} {e e' : Emission}
    (run : (emitConst target op).runOn e = (e', .ok f)) : op.TensorFragment f := by
  obtain ⟨out, count, _, _, _, _, _, found, counted, _, _, loaded, _, _, _, rfl⟩ :=
    emitConst_spec run
  obtain ⟨_, set, _, isSet, rfl⟩ := loadTensorVariables_ok loaded
  exact ⟨.loadTensor, _, out, count, rfl, .inl rfl, found, counted,
    Operation.tensorVariables_of_set isSet rfl rfl ⟨rfl, rfl⟩⟩

theorem emitInline_tensor {target : Target} {op : Operation} {f : Fragment} {e e' : Emission}
    (run : (emitInline target op).runOn e = (e', .ok f)) : op.TensorFragment f := by
  obtain ⟨out, count, _, _, _, _, _, found, counted, _, _, built, _, _, rfl⟩ := emitInline_spec run
  obtain ⟨_, set, _, _, _, isSet, _, _, rfl⟩ := binaryTensorVariables_ok built
  exact ⟨.binaryTensor, _, out, count, rfl, .inr rfl, found, counted,
    Operation.tensorVariables_of_set isSet rfl rfl ⟨rfl, rfl⟩⟩

/-! ## All operations -/

/-- The code of an operation of a kind: that of a constant adds one tensor, and that of an operator
computes one output or several. -/
inductive Operation.Emits (op : Operation) (k : OperatorKind) (f : Fragment) : Prop
  | tensor (constant : k.computes = false) (one : k.outputCount = 1)
      (fragment : op.TensorFragment f)
  | single (computes : k.computes = true) (one : k.outputCount = 1)
      (inOrder : k.takesOperandsFirst = false) (fragment : op.SingleFragment f)
  | list {ins : List String} (computes : k.computes = true) (several : 2 ≤ k.outputCount)
      (reads : op.arguments k = listed ins) (fragment : op.ListFragment k.outputCount ins f)

/-- What is emitted for an operation is code of its kind. -/
theorem emits_of_emitOperation {target : Target} {op : Operation} {k : OperatorKind} {f : Fragment}
    {e e' : Emission} (kind : OperatorKind.ofType? op.type = some k)
    (unpadded : ∀ s ∈ op.readNames, Text.Unpadded s)
    (run : (emitOperation target op).runOn e = (e', .ok f)) : op.Emits k f := by
  unfold emitOperation at run
  rw [kind] at run
  cases k with
  | const => exact .tensor rfl rfl (emitConst_tensor run)
  | inline => exact .tensor rfl rfl (emitInline_tensor run)
  | add =>
    obtain ⟨_, run⟩ := Emit.runOn_lift_ok_iff.mp run
    exact .single rfl rfl rfl (Operation.addFragment_single run)
  | argMax =>
    obtain ⟨_, run⟩ := Emit.runOn_lift_ok_iff.mp run
    exact .single rfl rfl rfl (Operation.argMaxFragment_single run)
  | dequantize =>
    obtain ⟨_, run⟩ := Emit.runOn_lift_ok_iff.mp run
    exact .single rfl rfl rfl (Operation.dequantizeFragment_single run)
  | max =>
    obtain ⟨_, run⟩ := Emit.runOn_lift_ok_iff.mp run
    exact .single rfl rfl rfl (Operation.extremeFragment_single (by decide) run)
  | min =>
    obtain ⟨_, run⟩ := Emit.runOn_lift_ok_iff.mp run
    exact .single rfl rfl rfl (Operation.extremeFragment_single (by decide) run)
  | reshape =>
    obtain ⟨_, run⟩ := Emit.runOn_lift_ok_iff.mp run
    exact .single rfl rfl rfl (Operation.reshapeFragment_single run)
  | maxPool =>
    obtain ⟨_, run⟩ := Emit.runOn_lift_ok_iff.mp run
    exact .list rfl (by decide) rfl (Operation.maxPoolFragment_list run)
  | quantize =>
    obtain ⟨_, run⟩ := Emit.runOn_lift_ok_iff.mp run
    exact .list rfl (by decide) rfl (Operation.quantizeFragment_list run)
  | matMul =>
    obtain ⟨_, run⟩ := Emit.runOn_lift_ok_iff.mp run
    exact .list rfl (by decide) rfl
      (Operation.quantizedBinaryFragment_list (by decide) unpadded run)
  | quantizedAdd =>
    obtain ⟨_, run⟩ := Emit.runOn_lift_ok_iff.mp run
    exact .list rfl (by decide) rfl
      (Operation.quantizedBinaryFragment_list (by decide) unpadded run)
  | relu =>
    obtain ⟨_, run⟩ := Emit.runOn_lift_ok_iff.mp run
    exact .list rfl (by decide) rfl (Operation.reluFragment_list run)
  | requantizeRange =>
    obtain ⟨_, run⟩ := Emit.runOn_lift_ok_iff.mp run
    exact .list rfl (by decide) rfl (Operation.requantizeRangeFragment_list run)
  | requantize =>
    obtain ⟨_, run⟩ := Emit.runOn_lift_ok_iff.mp run
    exact .list rfl (by decide) rfl (Operation.requantizeFragment_list run)
  | quantizedReshape =>
    obtain ⟨_, run⟩ := Emit.runOn_lift_ok_iff.mp run
    exact .list rfl (by decide) rfl (Operation.quantizedReshapeFragment_list run)
  | conv2d =>
    obtain ⟨_, run⟩ := Emit.runOn_lift_ok_iff.mp run
    exact .list rfl (by decide) rfl (Operation.conv2dFragment_list run)

/-- The code of an operation adds its outputs and, if it computes them, pushes its operator behind
them. -/
theorem emitOperation_calls {target : Target} {op : Operation} {k : OperatorKind} {f : Fragment}
    {e e' : Emission} {ss : List Statement} (kind : OperatorKind.ofType? op.type = some k)
    (arity : op.outputs.length = k.outputCount)
    (unpadded : ∀ s ∈ op.readNames, Text.Unpadded s)
    (run : (emitOperation target op).runOn e = (e', .ok f)) (made : f.statements = .ok ss) :
    contextCalls ss = op.adds ++ op.pushes k := by
  cases emits_of_emitOperation kind unpadded run with
  | tensor constant one fragment =>
    rw [fragment.calls (arity.trans one) made, Operation.pushes_eq_nil constant]
  | single computes one inOrder fragment =>
    rw [fragment.calls (arity.trans one) made]
    simp [Operation.pushes, Operation.arguments, computes, inOrder]
  | list computes several reads fragment =>
    rw [fragment.calls several arity made]
    simp [Operation.pushes, computes, reads]

/-! ## Templates of operations -/

/-- The templates of the code of operations. -/
def Code.Template.ofOperations : List Template :=
  [loadTensor, binaryTensor] ++ singles ++ severals.map Prod.fst

/-- A fragment of a template for operations. -/
def Code.Fragment.OfOperation (f : Fragment) : Prop :=
  ∃ t ∈ Template.ofOperations, ∃ vars, f = .of t vars

/-- The templates of the code of operations other than inlined constants. -/
def Code.Template.ordinary : List Template := loadTensor :: (singles ++ severals.map Prod.fst)

/-- A fragment of a template for operations other than inlined constants. -/
def Code.Fragment.Ordinary (f : Fragment) : Prop :=
  ∃ t ∈ Template.ordinary, ∃ vars, f = .of t vars

theorem Code.Fragment.Ordinary.ofOperation {f : Fragment} (ordinary : f.Ordinary) :
    f.OfOperation := by
  obtain ⟨t, listed, vars, rfl⟩ := ordinary
  have sub : ∀ t ∈ Template.ordinary, t ∈ Template.ofOperations := by decide
  exact ⟨t, sub t listed, vars, rfl⟩

namespace Operation

variable {op : Operation} {f : Fragment}

theorem SingleFragment.ordinary (fragment : op.SingleFragment f) : f.Ordinary := by
  obtain ⟨t, vars, _, _, rfl, single, _⟩ := fragment
  have listed : ∀ t ∈ Template.singles, t ∈ Template.ordinary := by decide
  exact ⟨t, listed t single, vars, rfl⟩

theorem ListFragment.ordinary {n : Nat} {ins : List String} (fragment : op.ListFragment n ins f) :
    f.Ordinary := by
  obtain ⟨t, vars, rfl, several, _⟩ := fragment
  have listed : ∀ e ∈ Template.severals, e.1 ∈ Template.ordinary := by decide
  exact ⟨t, listed _ several, vars, rfl⟩

theorem quantizedBinaryFragment_ordinary {t : Template} (listed : t ∈ Template.ordinary)
    (run : op.quantizedBinaryFragment t = .ok f) : f.Ordinary := by
  simp only [quantizedBinaryFragment, bind_eq_ok_iff, pure_eq_ok_iff] at run
  obtain ⟨_, _, _, _, _, _, vars, _, rfl⟩ := run
  exact ⟨t, listed, vars, rfl⟩

end Operation

theorem emitConst_ordinary {target : Target} {op : Operation} {f : Fragment} {e e' : Emission}
    (run : (emitConst target op).runOn e = (e', .ok f)) : f.Ordinary := by
  obtain ⟨_, _, _, _, vars, _, _, _, _, _, _, _, _, _, _, rfl⟩ := emitConst_spec run
  exact ⟨.loadTensor, by decide, vars, rfl⟩

/-- Only an inlined constant becomes a tensor over an array. -/
theorem emitOperation_ordinary {target : Target} {op : Operation} {f : Fragment} {e e' : Emission}
    (other : OperatorKind.ofType? op.type ≠ some .inline)
    (run : (emitOperation target op).runOn e = (e', .ok f)) : f.Ordinary := by
  unfold emitOperation at run
  split at run
  case h_1 => exact absurd run Emit.runOn_throw_ne_ok
  case h_2 => exact emitConst_ordinary run
  case h_3 kind => exact absurd kind other
  all_goals obtain ⟨_, run⟩ := Emit.runOn_lift_ok_iff.mp run
  · exact (Operation.addFragment_single run).ordinary
  · exact (Operation.argMaxFragment_single run).ordinary
  · exact (Operation.dequantizeFragment_single run).ordinary
  · exact (Operation.extremeFragment_single (by decide) run).ordinary
  · exact (Operation.extremeFragment_single (by decide) run).ordinary
  · exact (Operation.maxPoolFragment_list run).ordinary
  · exact (Operation.quantizeFragment_list run).ordinary
  · exact Operation.quantizedBinaryFragment_ordinary (by decide) run
  · exact Operation.quantizedBinaryFragment_ordinary (by decide) run
  · exact (Operation.reluFragment_list run).ordinary
  · exact (Operation.requantizeRangeFragment_list run).ordinary
  · exact (Operation.requantizeFragment_list run).ordinary
  · exact (Operation.reshapeFragment_single run).ordinary
  · exact (Operation.quantizedReshapeFragment_list run).ordinary
  · exact (Operation.conv2dFragment_list run).ordinary

theorem emitOperation_template {target : Target} {op : Operation} {f : Fragment} {e e' : Emission}
    (run : (emitOperation target op).runOn e = (e', .ok f)) : f.OfOperation := by
  by_cases kind : OperatorKind.ofType? op.type = some .inline
  · unfold emitOperation at run
    rw [kind] at run
    obtain ⟨_, _, _, _, vars, _, _, _, _, _, _, _, _, _, rfl⟩ := emitInline_spec run
    exact ⟨.binaryTensor, by decide, vars, rfl⟩
  · exact (emitOperation_ordinary kind run).ofOperation

end TensorEmit
