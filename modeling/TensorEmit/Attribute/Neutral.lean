import TensorEmit.Entries
import TensorEmit.Fault

/-!
# Building neutral attributes

The neutral forms are built through the functions of this module, which check the kinds of their
parts. A list attribute checks the members of its lists one list after the other; the list of whole
numbers alone is taken as it is.
-/

namespace TensorEmit

/-- The kinds of members that a list can be asked to have. -/
inductive MemberKind where
  | bytes | float | bool | int | text | type | shape | tensor | func
  deriving DecidableEq, Repr

namespace MemberKind

/-- How a message names the kind. -/
def label : MemberKind → String
  | bytes => Value.bytesClass
  | float => Value.floatClass
  | bool => Value.boolClass
  | int => Value.intClass
  | text => Value.textClass
  | type => Value.typeClass
  | shape => Value.shapeClass
  | tensor => Value.tensorClass
  | func => Value.funcClass

/-- Whether a value is of the kind; a truth value is also a whole number. -/
def admits : MemberKind → Value → Bool
  | bytes, .bytes _ => true
  | float, .float _ => true
  | bool, .bool _ => true
  | int, .int _ => true
  | int, .bool _ => true
  | text, .text _ => true
  | type, .type _ => true
  | shape, .shape _ => true
  | tensor, .tensor _ _ => true
  | func, .func _ _ => true
  | _, _ => false

end MemberKind

/-- The members of a list all of which are of one kind. -/
def membersOfKind (k : MemberKind) (v : Value) : Except Fault (List Value) :=
  match v with
  | .list vs => if vs.all k.admits then .ok vs else .error (.wrongMembers k.label v)
  | _ => .error (.wrongMembers k.label v)

namespace Neutral

/-- A constant. Without an element type it takes that of its array. -/
def tensor (array type : Value) : Except Fault Value :=
  match array with
  | .array a =>
    match type with
    | .none => .ok (.tensor a (.type a.type))
    | t => .ok (.tensor a t)
  | v => .error (.wrongField "np_array" Value.arrayClass v)

/-- Whether a value can be a size: a whole number, or nothing if the size is not known. -/
def isSize : Value → Bool
  | .int _ => true
  | .bool _ => true
  | .none => true
  | _ => false

/-- A shape. -/
def shape (sizes : Value) : Except Fault Value :=
  match sizes with
  | .none => .ok (.shape none)
  | .list vs => if vs.all isSize then .ok (.shape (some vs)) else .error (.badShape sizes)
  | _ => .error .shapeNotList

/-- Whether a value may stand in an attribute. -/
def fitsAttribute : Value → Bool
  | .bytes _ | .int _ | .float _ | .bool _ | .text _ | .type _ | .shape _ | .tensor _ _
  | .items .. | .func _ _ => true
  | _ => false

/-- The kinds of a name, as a message shows them. -/
def nameKinds : String := Value.bracketed "(" ")" [Value.textClass, Value.textClass]

/-- An attribute. -/
def attr (kind value : Value) : Except Fault Value :=
  match kind with
  | .text s => if fitsAttribute value then .ok (.attr s value) else .error (.badAttribute value)
  | v => .error (.wrongField "value_name" nameKinds v)

/-- An entry of a table as a named attribute. -/
def namedAttr? : Key × Value → Option (String × Value)
  | (.text name, .attr kind value) => some (name, .attr kind value)
  | _ => none

/-- A function with named attributes. -/
def func (name attrs : Value) : Except Fault Value :=
  match name with
  | .text s =>
    match attrs with
    | .table entries =>
      match entries.mapM namedAttr? with
      | some fields => .ok (.func s fields)
      | none => .error (.badFunctionAttributes attrs)
    | v => .error (.badFunctionAttributes v)
  | v => .error (.wrongField "name" nameKinds v)

/-- A list attribute. -/
def items (bytes ints floats bools types shapes tensors funcs : Value) : Except Fault Value := do
  let bs ← membersOfKind .bytes bytes
  let fs ← membersOfKind .float floats
  let os ← membersOfKind .bool bools
  let ts ← membersOfKind .type types
  let ss ← membersOfKind .shape shapes
  let ns ← membersOfKind .tensor tensors
  let gs ← membersOfKind .func funcs
  return .items bs ints fs os ts ss ns gs

/-! ## From named parts -/

/-- The names of the lists of a list attribute. -/
def listNames : List String :=
  ["bytes_value", "ints_value", "floats_value", "bools_value", "data_types_value",
   "tensorshape_protos_value", "tensor_protos_value", "name_attrs_value"]

/-- A part that has to be there. -/
def part (parts : Entries String Value) (name : String) : Except Fault Value :=
  match parts.get? name with
  | some v => .ok v
  | none => .error .unfit

/-- Whether all parts have one of the given names. -/
def onlyParts (names : List String) (parts : Entries String Value) : Except Fault Unit :=
  if parts.all fun e => names.contains e.1 then .ok () else .error .unfit

/-- A neutral form by its name and its named parts. A list that is not named is empty. -/
def ofParts (form : String) (parts : Entries String Value) : Except Fault Value :=
  match form with
  | "tensor" => do
    onlyParts ["np_array", "dtype"] parts
    tensor (← part parts "np_array") ((parts.get? "dtype").getD .none)
  | "shape" => do
    onlyParts ["list_view"] parts
    shape (← part parts "list_view")
  | "attr" => do
    onlyParts ["value_name", "value"] parts
    attr (← part parts "value_name") (← part parts "value")
  | "func" => do
    onlyParts ["name", "attr_map"] parts
    func (← part parts "name") (← part parts "attr_map")
  | "list" => do
    onlyParts listNames parts
    match listNames.map fun name => (parts.get? name).getD (.list []) with
    | [blobs, ints, floats, bools, types, shapes, tensors, funcs] =>
      items blobs ints floats bools types shapes tensors funcs
    | _ => throw .unfit
  | _ => .error (.missing form)

end Neutral

end TensorEmit
