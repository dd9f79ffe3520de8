import TensorEmit.Code.Arrange
import TensorEmit.Entries

/-!
# Variables of a fragment

The text of a code fragment depends on named variables that can hold any value. A variable that is
not set shows as nothing, does not count as true and has no members; only taking a part of it is a
fault. A position outside a list gives nothing.
-/

namespace TensorEmit.Code

/-- The variables of a fragment. -/
abbrev Variables := Entries String Value

/-- The text of a value that may be missing. -/
def shown : Option Value → String
  | some v => v.plain
  | none => ""

/-- Whether a value that may be missing counts as true. -/
def holds : Option Value → Except Fault Bool
  | none => .ok false
  | some v =>
    match v.truth? with
    | some b => .ok b
    | none => .error .noTruth

/-- The member of a value at a position. In a table that is what stands under the number, and the
one field of a quantised type is its base type. -/
def memberOf (v : Value) (i : Int) : Option Value :=
  match v with
  | .table entries => Value.atNumber? entries i
  | .type t => if t.isQuantized then pick [.type t.base] i else none
  | v => v.members?.bind fun vs => pick vs i

/-- The member of a variable at a position. -/
def Variables.at (vars : Variables) (name : String) (i : Int) : Except Fault (Option Value) :=
  match vars.get? name with
  | none => .error (.undefinedVariable name)
  | some v => .ok (memberOf v i)

/-- All members of a variable but the last. -/
def Variables.allButLast (vars : Variables) (name : String) : Except Fault (List Value) :=
  match vars.get? name with
  | none => .error (.undefinedVariable name)
  | some (.table _) => .error .unfit
  | some (.type t) => if t.isQuantized then .error .unfit else .error (.noFields t)
  | some v =>
    match v, v.members? with
    | _, some vs => .ok vs.dropLast
    | .array _, none => .error .outOfRange
    | _, none => .error .unfit

/-- The members of a variable. -/
def Variables.each (vars : Variables) (name : String) : Except Fault (List Value) :=
  match vars.get? name with
  | none => .ok []
  | some v =>
    match v.members? with
    | some vs => .ok vs
    | none => .error .unfit

/-- The texts of the members of a variable. An empty list gives one empty text. -/
def Variables.names (vars : Variables) (name : String) : Except Fault (List String) := do
  let front ← vars.allButLast name
  let last ← vars.at name (-1)
  return front.map Value.plain ++ [shown last]

/-- Whether a variable counts as true. -/
def Variables.test (vars : Variables) (name : String) : Except Fault Bool := holds (vars.get? name)

/-- The text of a variable. -/
def Variables.show (vars : Variables) (name : String) : String := shown (vars.get? name)

/-- The text of a member of a variable. -/
def Variables.showAt (vars : Variables) (name : String) (i : Int) : Except Fault String := do
  return shown (← vars.at name i)

end TensorEmit.Code
