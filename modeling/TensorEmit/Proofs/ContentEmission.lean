import TensorEmit.Proofs.PairedRuns
import TensorEmit.Proofs.Renumbering

/-!
# Emission and numbers

What is emitted for an operation depends on its content: its type, its attributes and what is known
of its tensors, but neither on numbers nor on owners. So graphs with the same operations in the same
order are emitted alike (`Graph.SameLive.sameEmission`).
-/

namespace TensorEmit

open Code

/-! ## Parts of an operation -/

theorem Emit.lift_map_bind {α β γ : Type} (x : Except Fault α) (f : α → β) (rest : β → Emit γ) :
    (Emit.lift (x.map f) >>= rest) = Emit.lift x >>= fun a => rest (f a) := by
  cases x with
  | ok a => rfl
  | error f => rfl

theorem map_bind_eq {α β γ : Type} (x : Except Fault α) (f : α → β) (rest : β → Except Fault γ) :
    (x.map f >>= rest) = x >>= fun a => rest (f a) := by
  cases x with
  | ok a => rfl
  | error f => rfl

namespace Operation

theorem output_content (op : Operation) (i : Nat) :
    op.content.output i = (op.output i).map Tensor.content := by
  unfold output content
  dsimp only
  rw [List.getElem?_map]
  cases op.outputs[i]? with
  | none => rfl
  | some t => rfl

theorem input_content (op : Operation) (i : Nat) :
    op.content.input i = (op.input i).map Tensor.content := by
  unfold input content
  dsimp only
  rw [List.getElem?_map]
  cases op.inputs[i]? with
  | none => rfl
  | some t => rfl

theorem inputList_content (op : Operation) : op.content.inputList = op.inputList := by
  unfold inputList content
  rw [List.map_map]
  rfl

theorem outputList_content (op : Operation) : op.content.outputList = op.outputList := by
  unfold outputList content
  rw [List.map_map]
  rfl

/-- The types of all outputs from some place on. -/
theorem outputTypes_content (op : Operation) (n : Nat) :
    ((op.content.outputs.drop n).map fun t => Value.type t.type) =
      (op.outputs.drop n).map fun t => Value.type t.type := by
  unfold content
  rw [← List.map_drop, List.map_map]
  rfl

end Operation

/-! ## Operations -/

theorem emitConst_content (target : Target) (op : Operation) :
    emitConst target op.content = emitConst target op := by
  unfold emitConst
  rw [op.output_content, Emit.lift_map_bind]
  rfl

theorem emitInline_content (target : Target) (op : Operation) :
    emitInline target op.content = emitInline target op := by
  unfold emitInline
  rw [op.output_content, Emit.lift_map_bind]
  rfl

/-- The fragments that compute, one case for each kind of operation. -/
theorem emitOperation_content (target : Target) (op : Operation) :
    emitOperation target op.content = emitOperation target op := by
  have type : op.content.type = op.type := rfl
  have types := op.outputTypes_content 0
  rw [List.drop_zero, List.drop_zero] at types
  unfold emitOperation
  rw [type]
  cases OperatorKind.ofType? op.type with
  | none => rfl
  | some kind =>
    cases kind with
    | const => exact emitConst_content target op
    | inline => exact emitInline_content target op
    | relu =>
      simp only [Operation.reluFragment, op.output_content, op.input_content, op.inputList_content,
        op.outputList_content, op.outputTypes_content, map_bind_eq]
      rfl
    | conv2d =>
      simp only [Operation.conv2dFragment, op.input_content, op.inputList_content,
        op.outputList_content, types, map_bind_eq]
      rfl
    | _ =>
      simp only [Operation.addFragment, Operation.argMaxFragment, Operation.dequantizeFragment,
        Operation.extremeFragment, Operation.maxPoolFragment, Operation.quantizeFragment,
        Operation.quantizedBinaryFragment, Operation.requantizeRangeFragment,
        Operation.requantizeFragment, Operation.reshapeFragment, Operation.quantizedReshapeFragment,
        op.output_content, op.input_content, op.inputList_content, op.outputList_content,
        map_bind_eq]
      rfl

theorem addOperation_content (target : Target) (d : Draft) (op : Operation) :
    addOperation target d op.content = addOperation target d op := by
  have type : op.content.type = op.type := rfl
  unfold addOperation
  rw [type, emitOperation_content, op.output_content, Emit.lift_map_bind]
  rfl

/-! ## Graphs -/

namespace Graph

/-- Graphs are emitted alike under names where they have the same view of an operation, if what is
emitted for an operation can be read off the view. -/
theorem addOperations_congr_of_view {view : Operation → Operation}
    (emits : ∀ target d op, addOperation target d (view op) = addOperation target d op)
    {g g' : Graph} {names : List String}
    (same : ∀ name ∈ names, (g'.find? name).map view = (g.find? name).map view) (target : Target)
    (comments : Bool) (i : Nat) (d : Draft) :
    addOperations target comments g' i d names = addOperations target comments g i d names := by
  induction names generalizing i d with
  | nil => rfl
  | cons name rest ih =>
    have later : ∀ i d, addOperations target comments g' i d rest =
        addOperations target comments g i d rest :=
      ih fun other member => same other (by simp [member])
    have here := same name (by simp)
    rw [addOperations, addOperations]
    simp only [later]
    unfold Graph.find
    cases found : g.find? name with
    | none =>
      rw [found] at here
      rw [Option.map_eq_none_iff.mp here]
    | some op =>
      rw [found] at here
      obtain ⟨op', found', view⟩ := Option.map_eq_some_iff.mp here
      have added : addOperation target d op' = addOperation target d op := by
        rw [← emits target d op', view, emits]
      rw [found']
      show (addOperation target d op' >>= _) = (addOperation target d op >>= _)
      rw [added]

theorem addOperations_congr {g g' : Graph} {names : List String}
    (same : ∀ name ∈ names, g.SameAt g' name) (target : Target) (comments : Bool) (i : Nat)
    (d : Draft) :
    addOperations target comments g' i d names = addOperations target comments g i d names :=
  addOperations_congr_of_view addOperation_content same target comments i d

/-- Graphs with the same operations in the same order are emitted alike. -/
theorem SameLive.sameEmission {g g' : Graph} (same : g.SameLive g') : g.SameEmission g' := by
  intro target comments d
  rw [same.order]
  exact addOperations_congr same.found target comments 0 d

end Graph

end TensorEmit
