import TensorEmit.Graph.Workspace

/-!
# Removing dropout

Dropout is a set of operations under one name scope that only training needs. The scope has one data
input from outside; whatever reads a tensor made inside the scope reads that input instead, and the
operations of the scope are left out.
-/

namespace TensorEmit

/-- The dropout scope that an operation belongs to by its name. -/
def dropoutScope? (name : String) : Option String :=
  if Text.startsWith "dropout" name then
    let rest := name.toList.drop 7
    let word := rest.takeWhile Text.isWordChar
    match rest.dropWhile Text.isWordChar with
    | '/' :: _ => some ("dropout" ++ String.ofList word)
    | _ => none
  else none

/-- Whether a name is that of an input that controls dropout. -/
def isKeepProbability (name : String) : Bool := Text.startsWith "keep_prob" name

namespace Graph

/-- The operations of each dropout scope in the order of evaluation. -/
def dropoutClusters (g : Graph) : Entries String (List String) :=
  g.order.foldl (fun acc name =>
    match dropoutScope? name with
    | some scope => acc.set scope ((acc.get? scope).getD [] ++ [name])
    | none => acc) []

/-- The first tensor that comes from outside a scope and does not control dropout. -/
def outsideInput? (cluster : List String) : List Tensor → Except Fault (Option Tensor)
  | [] => .ok none
  | t :: rest => do
    let producer ← TensorName.producer t.name
    if producer ∉ cluster ∧ !isKeepProbability producer then return some t
    outsideInput? cluster rest

/-- The data input of each dropout scope. -/
def dropoutInputs (g : Graph) : Except Fault (Entries String Tensor) :=
  g.order.foldlM (fun acc name => do
    match dropoutScope? name with
    | none => return acc
    | some scope =>
      let op ← g.find name
      match ← outsideInput? ((g.dropoutClusters.get? scope).getD []) op.inputs with
      | some t => return acc.set scope t
      | none => return acc) []

/-- An input as it is after the removal: one that a scope made is replaced by the data input of the
scope. -/
def bypass (inputs : Entries String Tensor) (t : Tensor) : Except Fault Tensor := do
  match dropoutScope? (← TensorName.producer t.name) with
  | none => return t
  | some scope =>
    match inputs.get? scope with
    | some source => return source
    | none => throw (.missing scope)

/-- A tensor of the new graph. -/
def renewed (id : Nat) (owner : GraphId) (t : Tensor) : Except Fault Tensor := do
  Tensor.checkShape t.shape
  return { t with id, owner }

/-- An operation of the new graph, with numbers from `base` on. -/
def withoutDropout (inputs : Entries String Tensor) (base : Nat) (owner : GraphId)
    (op : Operation) : Except Fault Operation := do
  let ins ← op.inputs.zipIdx.mapM fun e => renewed (base + e.2) owner e.1
  let start := base + ins.length
  let outs ← op.outputs.zipIdx.mapM fun e => renewed (start + e.2) owner e.1
  let ins ← ins.mapM (bypass inputs)
  let attrs ← storedAttrs op.attrs
  return ⟨start + outs.length, op.name, op.type, ins, outs, attrs, owner⟩

/-- The operations outside of dropout scopes, for a new graph. -/
def keptOperations (g : Graph) (inputs : Entries String Tensor) (owner : GraphId) :
    (base : Nat) → List String → Except Fault (List Operation)
  | _, [] => .ok []
  | base, name :: rest => do
    if (dropoutScope? name).isSome then g.keptOperations inputs owner base rest
    else
      let op ← g.find name
      let op' ← withoutDropout inputs base owner op
      let later ← g.keptOperations inputs owner (base + op.inputs.length + op.outputs.length + 1)
        rest
      return op' :: later

/-- The graph without dropout, not yet in order. -/
def dropoutRemoved (g : Graph) (base : Nat) (owner : GraphId) : Except Fault Graph := do
  let inputs ← g.dropoutInputs
  let ops ← g.keptOperations inputs owner base g.order
  return ⟨ops, [], g.outputs, g.backend⟩

/-- How many numbers the operations of a graph take. -/
def numbers (g : Graph) : Nat :=
  Number.total (g.ops.map fun op => op.inputs.length + op.outputs.length + 1)

end Graph

/-- Removes dropout from a copy of a graph. -/
def Workspace.removeDropout (w : Workspace) (id : GraphId) : Workspace × Except Fault GraphId :=
  match (w.graph id).dropoutRemoved w.next w.nextGraph with
  | .error f => (w, .error f)
  | .ok g => ((w.add g).reserve (w.graph id).numbers, .ok w.nextGraph)

end TensorEmit
