import TensorEmit.Code.Fragment
import TensorEmit.Disk.Site
import TensorEmit.Pass.Pipeline

/-!
# Operators

How each operation of a graph is emitted. A constant is stored in a file of its own, and the emitted
code loads it; an inlined constant becomes an array of the program. All other operations become a
fragment that computes their outputs.
-/

namespace TensorEmit

open Code

/-- The operations that can be emitted. -/
inductive OperatorKind where
  | add | argMax | dequantize | max | maxPool | min | quantize | matMul | relu | quantizedAdd
  | requantizeRange | requantize | reshape | quantizedReshape | conv2d | const | inline
  deriving DecidableEq, Repr

namespace OperatorKind

/-- All kinds. -/
def all : List OperatorKind :=
  [add, argMax, dequantize, max, maxPool, min, quantize, matMul, relu, quantizedAdd,
   requantizeRange, requantize, reshape, quantizedReshape, conv2d, const, inline]

/-- The type that operations of a kind have in a graph. -/
def typeName : OperatorKind → String
  | add => "Add"
  | argMax => "ArgMax"
  | dequantize => "Dequantize"
  | max => "Max"
  | maxPool => "QuantizedMaxPool"
  | min => "Min"
  | quantize => "QuantizeV2"
  | matMul => "QuantizedMatMul"
  | relu => "QuantizedRelu"
  | quantizedAdd => "QuantizedAdd"
  | requantizeRange => "RequantizationRange"
  | requantize => "Requantize"
  | reshape => "Reshape"
  | quantizedReshape => "QuantizedReshape"
  | conv2d => "QuantizedConv2D"
  | const => "Const"
  | inline => "Inline"

/-- Whether operations of a kind only occur in quantised graphs. -/
def isQuantized : OperatorKind → Bool
  | dequantize | maxPool | quantize | matMul | relu | quantizedAdd | requantizeRange | requantize
  | quantizedReshape | conv2d => true
  | _ => false

/-- The kind of a type. -/
def ofType? (s : String) : Option OperatorKind := all.find? fun k => k.typeName == s

end OperatorKind

/-! ## Parts of an operation -/

/-- The first member of a value; that of a quantised type is its base type. -/
def firstOf : Value → Except Fault Value
  | .table entries =>
    match Value.atNumber? entries 0 with
    | some v => .ok v
    | none => .error (.unfiled (.int 0))
  | .type t => if t.isQuantized then .ok (.type t.base) else .error (.noFields t)
  | .array a =>
    match (Value.array a).members? with
    | some (v :: _) => .ok v
    | _ => .error .outOfRange
  | v =>
    match v.members? with
    | some (v :: _) => .ok v
    | some [] => .error .outOfRange
    | none => .error .unfit

/-- The value that an attribute holds. -/
def heldValue : Value → Except Fault Value
  | .attr _ v => .ok v
  | _ => .error .noPart

/-- The whole numbers of a list attribute. -/
def heldInts : Value → Except Fault Value
  | .items _ ints _ _ _ _ _ _ => .ok ints
  | _ => .error .noPart

/-- The array of a constant. -/
def heldArray : Value → Except Fault NumArray
  | .tensor a _ => .ok a
  | _ => .error .noPart

/-- The text of a byte string. -/
def heldText : Value → Except Fault Value
  | .bytes bs =>
    match String.fromUTF8? ⟨bs.toArray⟩ with
    | some s => .ok (.text s)
    | none => .error .notText
  | _ => .error .noPart

namespace Operation

/-- An input by its place. -/
def input (op : Operation) (i : Nat) : Except Fault Tensor :=
  match op.inputs[i]? with
  | some t => .ok t
  | none => .error .outOfRange

/-- An output by its place. -/
def output (op : Operation) (i : Nat) : Except Fault Tensor :=
  match op.outputs[i]? with
  | some t => .ok t
  | none => .error .outOfRange

/-- An attribute. -/
def attr (op : Operation) (key : String) : Except Fault Value :=
  match op.attrs.get? key with
  | some v => .ok v
  | none => .error (.missing key)

/-- The names of the inputs as a value. -/
def inputList (op : Operation) : Value := .list (op.inputs.map fun t => .text t.name)

/-- The names of the outputs as a value. -/
def outputList (op : Operation) : Value := .list (op.outputs.map fun t => .text t.name)

/-- The notes that counting references leaves on an operation. -/
def notes (op : Operation) : Options := Options.ofEntries Pass.refCount.scope op.attrs

/-- How often the one output is read. -/
def useCount (op : Operation) : Except Fault Value :=
  firstOf (op.notes.getD "ref_counts" (.list [.int 0]))

/-- How often each output is read. -/
def useCounts (op : Operation) : Value := op.notes.getD "ref_counts" (.list [])

/-- Whether the operation is to be evaluated at once. -/
def evalNote (op : Operation) : Value := op.notes.getD "to_eval" (.bool false)

/-- The shape of a tensor, or that of a single element if it has none. -/
def shapeOrSingle (t : Tensor) : Value :=
  match t.shape with
  | some (v :: vs) => .list (v :: vs)
  | _ => .list [.int 1]

/-- The whole numbers of a list attribute of an operation. -/
def ints (op : Operation) (key : String) : Except Fault Value := do
  heldInts (← heldValue (← op.attr key))

/-- The text of an attribute of an operation. -/
def text (op : Operation) (key : String) : Except Fault Value := do
  heldText (← heldValue (← op.attr key))

/-! ## Fragments that compute -/

/-- A sum. -/
def addFragment (op : Operation) : Except Fault Fragment := do
  let output := (← op.output 0).name
  let type := (← op.input 0).type
  let count ← op.useCount
  return .of .add (← addVariables op.inputList (.text output) (.type type) count op.evalNote)

/-- The place of a greatest element. -/
def argMaxFragment (op : Operation) : Except Fault Fragment := do
  let out ← op.output 0
  let type := (← op.input 0).type
  let count ← op.useCount
  return .of .argMax (← argMaxVariables op.inputList (.text out.name) (.type type) (.type out.type)
    count op.evalNote)

/-- A tensor back from its quantised form. -/
def dequantizeFragment (op : Operation) : Except Fault Fragment := do
  let out ← op.output 0
  let count ← op.useCount
  return .of .dequantize (← dequantizeVariables op.inputList (.text out.name) (.type out.type) count
    op.evalNote)

/-- A least or greatest element. -/
def extremeFragment (t : Template) (op : Operation) : Except Fault Fragment := do
  let out ← op.output 0
  let count ← op.useCount
  return .of t (← extremeVariables op.inputList (.text out.name) (.type out.type)
    (shapeOrSingle out) count op.evalNote)

/-- A tensor in another shape. -/
def reshapeFragment (op : Operation) : Except Fault Fragment := do
  let out ← op.output 0
  let count ← op.useCount
  return .of .reshape (← reshapeVariables op.inputList (.text out.name) count op.evalNote)

/-- Pooling. -/
def maxPoolFragment (op : Operation) : Except Fault Fragment := do
  let type := (← op.output 0).type
  let window ← op.ints "ksize"
  let strides ← op.ints "strides"
  let padding ← op.text "padding"
  return .of .maxPool (← maxPoolVariables op.inputList op.outputList (.type type) window strides
    padding op.useCounts op.evalNote)

/-- A tensor in its quantised form. -/
def quantizeFragment (op : Operation) : Except Fault Fragment := do
  let type := (← op.output 0).type
  return .of .quantize (← quantizeVariables op.inputList op.outputList (.type type) op.useCounts
    op.evalNote)

/-- A product or a sum of quantised tensors. -/
def quantizedBinaryFragment (t : Template) (op : Operation) : Except Fault Fragment := do
  let left := (← op.input 0).type
  let right := (← op.input 1).type
  let out := (← op.output 0).type
  return .of t (← quantizedBinaryVariables op.inputList op.outputList (.type left) (.type right)
    (.type out) op.useCounts op.evalNote)

/-- The activation that cuts off negative elements. -/
def reluFragment (op : Operation) : Except Fault Fragment := do
  let type := (← op.input 0).type
  let out := (← op.output 0).type
  let rangeTypes := .list ((op.outputs.drop 1).map fun t => .type t.type)
  return .of .relu (← reluVariables op.inputList op.outputList (.type type) rangeTypes (.type out)
    op.useCounts op.evalNote)

/-- The range for another quantisation. -/
def requantizeRangeFragment (op : Operation) : Except Fault Fragment := do
  let type := (← op.output 0).type
  return .of .requantizeRange (← requantizeRangeVariables op.inputList op.outputList (.type type)
    op.useCounts op.evalNote)

/-- A quantised tensor in another quantisation. -/
def requantizeFragment (op : Operation) : Except Fault Fragment := do
  let out := (← op.output 0).type
  let range := (← op.output 1).type
  return .of .requantize (← requantizeVariables op.inputList op.outputList (.type out) (.type range)
    op.useCounts op.evalNote)

/-- A quantised tensor in another shape. -/
def quantizedReshapeFragment (op : Operation) : Except Fault Fragment := do
  return .of .quantizedReshape (← quantizedReshapeVariables op.inputList op.outputList op.useCounts
    op.evalNote)

/-- The convolution. -/
def conv2dFragment (op : Operation) : Except Fault Fragment := do
  let type := (← op.input 0).type
  let filter := (← op.input 1).type
  let outTypes := .list (op.outputs.map fun t => .type t.type)
  let strides ← op.ints "strides"
  let padding ← op.text "padding"
  return .of .conv2d (← conv2dVariables op.inputList op.outputList strides padding (.type type)
    (.type filter) outTypes op.useCounts op.evalNote)

end Operation

/-! ## Constants -/

/-- Where emitted code finds its data: the directory for files of constants, the directory in which
the emitted code looks for them, and whether there is a container for inlined constants. The second
directory is only shown, so it may be a value of any kind. -/
structure Target where
  dataDir : Option Value
  embedDir : Option Value
  hasWeights : Bool

/-- The state of emission: the disk, the sets of headers, the inlined constants so far, and the
graphs that were handed over to be quantised. -/
structure Emission where
  site : Site
  sets : HeaderSets
  weights : List Fragment
  handovers : List Handover

/-- The state before anything is emitted. -/
def Emission.start (site : Site) : Emission := ⟨site, [], [], []⟩

/-- A step of emission. -/
abbrev Emit := ExceptT Fault (StateM Emission)

namespace Emit

/-- A step that only computes. -/
def lift {α : Type} (r : Except Fault α) : Emit α :=
  match r with
  | .ok a => pure a
  | .error f => throw f

/-- A step on the disk. -/
def onSite {α : Type} (t : Job α) : Emit α := do
  let e ← get
  let (site, r) := t.runOn e.site
  set { e with site }
  lift r

/-- Runs a step; what it did stays done if it fails. -/
def runOn {α : Type} (step : Emit α) (e : Emission) : Emission × Except Fault α :=
  let (r, e') := step.run.run e
  (e', r)

/-- Adds an inlined constant to its container, which takes over its headers. -/
def addWeight (f : Fragment) : Emit Unit := do
  let e ← get
  let hs ← lift (f.headers e.sets)
  set { e with sets := e.sets.addAll (.builtIn .weights) hs, weights := e.weights ++ [f] }

end Emit

/-- The directory below which emitted code looks for files unless told otherwise. -/
def boardRoot : String := "/fs"

/-- The name of the array of an inlined constant. -/
def arrayName (tensor : String) : String := "inline_" ++ flatName tensor

/-- Emits a constant: a file with its array, and a fragment that loads it. -/
def emitConst (target : Target) (op : Operation) : Emit Fragment := do
  let out ← Emit.lift (op.output 0)
  let count ← Emit.lift op.useCount
  let file := flatName out.name ++ ".idx"
  match target.dataDir with
  | none => throw (.missing "idx_dir")
  | some dir =>
    let dir ← Emit.lift dir.asText
    let embed := target.embedDir.getD (.text (Path.join boardRoot dir))
    let vars ← Emit.lift (loadTensorVariables embed (.text out.name) (.type out.type) count
      (.text file) .none (.bool false) (.bool false))
    let array ← Emit.lift (op.attr "value" >>= heldValue >>= heldArray)
    let path := Path.join dir file
    Emit.onSite do
      Job.writeArray path array.atLeastOneDimension
      Job.info ("saving " ++ path)
    return .of .loadTensor vars

/-- Emits an inlined constant: an array of the program, and a fragment that makes a tensor of it. -/
def emitInline (target : Target) (op : Operation) : Emit Fragment := do
  let out ← Emit.lift (op.output 0)
  let count ← Emit.lift op.useCount
  let array ← Emit.lift (op.attr "value" >>= heldValue >>= heldArray)
  let name := Value.text (arrayName out.name)
  let shape := match out.shape with
    | some vs => Value.list vs
    | none => .none
  let vars ← Emit.lift (binaryTensorVariables (.text out.name) (.type out.type) shape count
    (.text (flatName out.name)) name (.bool false) (.bool false))
  let weight ← Emit.lift (weightVariables name (.type out.type) shape (.array array.flatten))
  if !target.hasWeights then throw (.missing "weight_container")
  Emit.addWeight (.of .weight weight)
  return .of .binaryTensor vars

/-! ## All operations -/

/-- Emits an operation. -/
def emitOperation (target : Target) (op : Operation) : Emit Fragment := do
  match OperatorKind.ofType? op.type with
  | none => throw (.unsupportedOperation op.type)
  | some .const => emitConst target op
  | some .inline => emitInline target op
  | some .add => Emit.lift op.addFragment
  | some .argMax => Emit.lift op.argMaxFragment
  | some .dequantize => Emit.lift op.dequantizeFragment
  | some .max => Emit.lift (op.extremeFragment .max)
  | some .min => Emit.lift (op.extremeFragment .min)
  | some .maxPool => Emit.lift op.maxPoolFragment
  | some .quantize => Emit.lift op.quantizeFragment
  | some .matMul => Emit.lift (op.quantizedBinaryFragment .matMul)
  | some .quantizedAdd => Emit.lift (op.quantizedBinaryFragment .quantizedAdd)
  | some .relu => Emit.lift op.reluFragment
  | some .requantizeRange => Emit.lift op.requantizeRangeFragment
  | some .requantize => Emit.lift op.requantizeFragment
  | some .reshape => Emit.lift op.reshapeFragment
  | some .quantizedReshape => Emit.lift op.quantizedReshapeFragment
  | some .conv2d => Emit.lift op.conv2dFragment

/-- The container of inlined constants. -/
def weightsFragment : Fragment := .of .weights []

/-- The text of the container of inlined constants. -/
def weightsText (weights : List Fragment) : Except Fault String :=
  textOf <$> weightsFragment.statementsAround (weights.mapM Fragment.statements)

end TensorEmit
