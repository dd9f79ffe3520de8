import TensorEmit.Options
import TensorEmit.Pass.Dropout
import TensorEmit.Pass.Inline
import TensorEmit.Pass.RefCount

/-!
# Passes

A pass makes a new graph from a graph, or changes it. After every pass the graph is put in order
again and, unless that is switched off, pruned. A pipeline runs passes one after the other.
-/

namespace TensorEmit

/-- The passes. -/
inductive Pass where
  | refCount | dropout | batchNorm | quantize | inline
  deriving DecidableEq, Repr

namespace Pass

/-- All passes. -/
def all : List Pass := [refCount, dropout, batchNorm, quantize, inline]

/-- The name by which a pass is asked for. -/
def method : Pass → String
  | refCount => "refcnt"
  | dropout => "dropout"
  | batchNorm => "batch_norm"
  | quantize => "quantize"
  | inline => "inline"

/-- The scope of a pass's options. -/
def scope : Pass → String
  | refCount => "_utensor_refcnt"
  | dropout => "_utensor_dropout"
  | batchNorm => "_batch_norm"
  | quantize => "_quantize"
  | inline => "_utensor_inline"

/-- The name of the class of a pass. -/
def className : Pass → String
  | refCount => "RefCntOptimizer"
  | dropout => "DropoutTransformer"
  | batchNorm => "BatchNormTransformer"
  | quantize => "QuantizeTransformer"
  | inline => "InlineTransformer"

/-- The pass of a name. -/
def ofMethod (s : String) : Except Fault Pass :=
  match all.find? fun p => p.method == s with
  | some p => .ok p
  | none => .error (.missing s)

/-- The pass that a value names. -/
def ofValue : Value → Except Fault Pass
  | .text s => ofMethod s
  | v => .error (if v.isKey then .unfiled v else .unfit)

end Pass

/-- A pass with its option on pruning. -/
structure PassStep where
  pass : Pass
  prune : Value

/-- Options that clash with what every pass is given. -/
def isReservedOption (key : Option String) : Bool := key = some "cls" || key = some "self"

/-- A pass with the options that are meant for it. Counting references never prunes. -/
def Pass.configure (p : Pass) (given : Entries String Value) : Except Fault PassStep :=
  let options := Options.ofEntries p.scope given
  if options.toEntries.any fun e => isReservedOption e.1 then .error .unfit
  else
    match p with
    | .refCount => .ok ⟨p, .bool false⟩
    | p => .ok ⟨p, options.getD "prune_graph" (.bool true)⟩

/-- A pipeline. -/
abbrev Pipeline := List PassStep

/-- The pipeline of named passes. -/
def Pipeline.ofMethods (methods : Value) (given : Entries String Value) : Except Fault Pipeline :=
  match methods.members? with
  | some ms => ms.mapM fun m => do (← Pass.ofValue m).configure given
  | none => .error .unfit

/-- Quantises a graph that is handed over. -/
abbrev Quantizer := Handover → Except Fault (List Node)

/-- The transformations that quantise a graph. -/
def quantizeTransforms : List String := ["quantize_weights", "quantize_nodes"]

namespace Workspace

/-- Hands a graph over and reads what comes back. -/
def quantize [Importer] (quantizer : Quantizer) (w : Workspace) (id : GraphId) :
    Workspace × Except Fault GraphId :=
  let g := w.graph id
  match g.nodes with
  | .error f => (w, .error f)
  | .ok nodes =>
    let handover : Handover := ⟨nodes, [], g.outputs, quantizeTransforms⟩
    let w := { w with handovers := w.handovers ++ [handover] }
    match quantizer handover with
    | .error f => (w, .error f)
    | .ok nodes' => w.ofNodes nodes' (.list (g.outputs.map Value.text))

/-- The pass itself. -/
def apply [Importer] (quantizer : Quantizer) (w : Workspace) (id : GraphId) : Pass →
    Workspace × Except Fault GraphId
  | .refCount => w.countReferences id
  | .dropout => w.removeDropout id
  | .batchNorm => (w, .error .noPart)
  | .quantize => w.quantize quantizer id
  | .inline => w.inlineConstants id

/-- A pass with what follows it. -/
def runStep [Importer] (quantizer : Quantizer) (w : Workspace) (id : GraphId) (s : PassStep) :
    Workspace × Except Fault GraphId :=
  match w.apply quantizer id s.pass with
  | (w, .error f) => (w, .error f)
  | (w, .ok id') =>
    match w.sort id' with
    | (w, .error f) => (w, .error f)
    | (w, .ok _) =>
      match s.prune.truth? with
      | none => (w, .error .noTruth)
      | some false => (w, .ok id')
      | some true => w.prune id'

/-- Runs passes one after the other. -/
def run [Importer] (quantizer : Quantizer) (w : Workspace) (id : GraphId) : Pipeline →
    Workspace × Except Fault GraphId
  | [] => (w, .ok id)
  | s :: rest =>
    match w.runStep quantizer id s with
    | (w, .error f) => (w, .error f)
    | (w, .ok id') => w.run quantizer id' rest

end Workspace

end TensorEmit
