import TensorEmit.Entries
import TensorEmit.Fault
import TensorEmit.Text.Search

/-!
# Clusters by name scope

Groups operations without tensors by the name scope of the first one. Grouping operations that have
tensors asks for a step that is defined nowhere.
-/

namespace TensorEmit

/-- An operation as grouping sees it. -/
structure ScopedOperation where
  name : String
  hasTensors : Bool

/-- The part of a name before its first slash. -/
def outerScope (name : String) : String := Text.before '/' name

/-- The clusters of operations whose names start as given. -/
def scopeClusters (start : Option String) (ops : List ScopedOperation) :
    Except Fault (Entries String (List String)) :=
  let chosen := ops.filter fun op =>
    match start with
    | some s => Text.startsWith s op.name
    | none => true
  match chosen with
  | [] => .ok []
  | first :: _ =>
    if chosen.any ScopedOperation.hasTensors then .error .undefinedStep
    else .ok [(outerScope first.name, [])]

end TensorEmit
