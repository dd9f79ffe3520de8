import TensorEmit.Attribute.Neutral
import TensorEmit.Element.Spelling

/-!
# Converting attributes

A graph file holds attributes in wire form and a graph holds them in neutral form. `toNeutral` and
`toWire` convert a value of any kind and leave one that is already in the wanted form as it is.
Plain data is in both forms. `Converter` names the conversions for one kind of values, which refuse
all other kinds.

A function that has attributes takes the name of its last attribute when it becomes neutral. A shape
keeps only the sizes that the graph library reads from it; the names of its dimensions are lost.
-/

namespace TensorEmit

/-! ## Single steps -/

/-- The neutral form of an array from the wire: small quantised numbers become plain ones. -/
def neutralArray (a : NumArray) : Except Fault Value :=
  if a.type.isQuantized then
    match a.type with
    | .qint8 | .quint8 => .ok (.tensor (a.cast a.type.base) (.type a.type))
    | t => .error (.unsupportedConstant t)
  else .ok (.tensor a (.type a.type))

/-- The element type that a value stands for: itself, the one that a text spells, or that of a
constant. -/
def elementTypeOf? : Value → Option ElementType
  | .type t => some t
  | .tensor _ t => elementTypeOf? t
  | .text s => ElementType.ofSpelling? s
  | .bytes bs => ElementType.ofSpelling? (String.ofList (bs.map fun b => Char.ofNat b.toNat))
  | _ => none

/-- The wire form of a constant: its array in the element type it has on the wire. -/
def wireArray (a : NumArray) (type : Value) : Except Fault Value :=
  match elementTypeOf? type with
  | some t => .ok (.wireTensor (.array (a.cast t)))
  | none => .error .unfit

/-- The name that a function has in neutral form. -/
def neutralFuncName (name : String) (attrs : List (String × Value)) : String :=
  match attrs.getLast? with
  | some (k, _) => k
  | none => name

/-- The shape that the graph library writes for some sizes: it gives no names. -/
def Value.writtenShape (sizes : Option (List Value)) : Value :=
  .wireShape ((sizes.getD []).map fun size => ("", size)) sizes

/-! ## All kinds of values -/

mutual

/-- The neutral form of a value. -/
def Value.toNeutral : Value → Except Fault Value
  | .wireTensor (.array a) => neutralArray a
  | .wireTensor _ => .error .noPart
  | .wireShape _ Option.none => .ok (.shape Option.none)
  | .wireShape _ (some sizes) => Neutral.shape (.list sizes)
  | .wireAttr Option.none _ => .error .unfit
  | .wireAttr (some _) (.array _) => .error .undefinedStep
  | .wireAttr (some k) v => do
    let v' ← Value.toNeutral v
    Neutral.attr (.text k) v'
  | .wireFunc name attrs => do
    let attrs' ← Value.attrsToNeutral attrs
    Neutral.func (.text (neutralFuncName name attrs)) (.ofFields attrs')
  | .wireItems blobs ints floats bools types shapes tensors funcs => do
    let types' ← Value.allToNeutral types
    let shapes' ← Value.allToNeutral shapes
    let tensors' ← Value.allToNeutral tensors
    let funcs' ← Value.allToNeutral funcs
    Neutral.items (.list blobs) (.list ints) (.list floats) (.list bools) (.list types')
      (.list shapes') (.list tensors') (.list funcs')
  | .bool b => .ok (.bool b)
  | .int n => .ok (.int n)
  | .float bits => .ok (.float bits)
  | .text s => .ok (.text s)
  | .bytes bs => .ok (.bytes bs)
  | .tensor a t => .ok (.tensor a t)
  | .shape dims => .ok (.shape dims)
  | .attr k v => .ok (.attr k v)
  | .func n attrs => .ok (.func n attrs)
  | .items bs is fs os ts ss ns gs => .ok (.items bs is fs os ts ss ns gs)
  | .none => .error (.unknownWireKind .none)
  | .list vs => .error (.unknownWireKind (.list vs))
  | .table fs => .error (.unknownWireKind (.table fs))
  | .type t => .error (.unknownWireKind (.type t))
  | .array a => .error (.unknownWireKind (.array a))
  | .cell t c => .error (.unknownWireKind (.cell t c))

/-- The neutral forms of some values. -/
def Value.allToNeutral : List Value → Except Fault (List Value)
  | [] => .ok []
  | v :: vs => do
    let v' ← Value.toNeutral v
    let vs' ← Value.allToNeutral vs
    return v' :: vs'

/-- The neutral forms of named attributes, which have to be wire attributes. -/
def Value.attrsToNeutral : List (String × Value) → Except Fault (List (String × Value))
  | [] => .ok []
  | (k, v) :: rest =>
    match v with
    | .wireAttr _ _ => do
      let v' ← Value.toNeutral v
      let rest' ← Value.attrsToNeutral rest
      return (k, v') :: rest'
    | _ => .error (.wrongKind Value.wireAttrClass v)

end

mutual

/-- The wire form of a value. -/
def Value.toWire : Value → Except Fault Value
  | .tensor a t => wireArray a t
  | .shape sizes => .ok (.writtenShape sizes)
  | .attr k v => do
    let v' ← Value.toWire v
    return .wireAttr (some k) v'
  | .func name attrs => do
    let attrs' ← Value.attrsToWire attrs
    return .wireFunc name attrs'
  | .items blobs ints floats bools types shapes tensors funcs => do
    let types' ← Value.allToWire types
    let shapes' ← Value.allToWire shapes
    let tensors' ← Value.allToWire tensors
    let funcs' ← Value.allToWire funcs
    match ints.members? with
    | some is => return .wireItems blobs is floats bools types' shapes' tensors' funcs'
    | Option.none => throw .unfit
  | .bool b => .ok (.bool b)
  | .int n => .ok (.int n)
  | .float bits => .ok (.float bits)
  | .text s => .ok (.text s)
  | .bytes bs => .ok (.bytes bs)
  | .wireTensor a => .ok (.wireTensor a)
  | .wireShape dims sizes => .ok (.wireShape dims sizes)
  | .wireAttr f v => .ok (.wireAttr f v)
  | .wireFunc n attrs => .ok (.wireFunc n attrs)
  | .wireItems bs is fs os ts ss ns gs => .ok (.wireItems bs is fs os ts ss ns gs)
  | .none => .error (.unknownNeutralKind .none)
  | .list vs => .error (.unknownNeutralKind (.list vs))
  | .table fs => .error (.unknownNeutralKind (.table fs))
  | .type t => .error (.unknownNeutralKind (.type t))
  | .array a => .error (.unknownNeutralKind (.array a))
  | .cell t c => .error (.unknownNeutralKind (.cell t c))

/-- The wire forms of some values. -/
def Value.allToWire : List Value → Except Fault (List Value)
  | [] => .ok []
  | v :: vs => do
    let v' ← Value.toWire v
    let vs' ← Value.allToWire vs
    return v' :: vs'

/-- The wire forms of named values. -/
def Value.attrsToWire : List (String × Value) → Except Fault (List (String × Value))
  | [] => .ok []
  | (k, v) :: rest => do
    let v' ← Value.toWire v
    let rest' ← Value.attrsToWire rest
    return (k, v') :: rest'

end

/-! ## One kind of values -/

/-- The conversions, by the kind of values they take; `any` takes all of them. -/
inductive Converter where
  | any | plain | tensor | elementType | shape | attr | func | items
  deriving DecidableEq, Repr

namespace Converter

/-- The kinds of plain data, as a message shows them. -/
def plainKinds : String :=
  Value.bracketed "(" ")" [Value.bytesClass, Value.intClass, Value.intClass, Value.boolClass,
    Value.floatClass, Value.textClass, Value.textClass]

/-- Whether a value is plain data. -/
def isPlain : Value → Bool
  | .bytes _ | .int _ | .bool _ | .float _ | .text _ => true
  | _ => false

/-- The neutral form of an element type from the wire: small quantised types become plain ones. -/
def neutralElementType (t : ElementType) : Except Fault Value :=
  match t with
  | .qint8 => .ok (.type .int8)
  | .quint8 => .ok (.type .uint8)
  | t => if t.isQuantized then .error (.unsupportedElement t) else .ok (.type t)

/-- The element type of a number on the wire, which `v` is; not every number has one. -/
def elementTypeOfCode (n : Int) (v : Value) : Except Fault Value :=
  match ElementType.ofWireCode? n with
  | some t => neutralElementType t
  | none => .error (.unfiled v)

/-- The number of an element type on the wire; not every element type has one. -/
def codeOfElementType (t : ElementType) : Except Fault Value :=
  match t.wireCode? with
  | some n => .ok (.int n)
  | none => .error (.unfiled (.type t))

/-- Converts to the neutral form. -/
def toNeutral (c : Converter) (v : Value) : Except Fault Value :=
  match c with
  | any => v.toNeutral
  | plain => if isPlain v then .ok v else .error (.wrongKind plainKinds v)
  | tensor =>
    match v with
    | .wireTensor _ => v.toNeutral
    | _ => .error (.wrongKind Value.wireTensorClass v)
  | elementType =>
    match v with
    | .int n => elementTypeOfCode n v
    | .bool b => elementTypeOfCode (if b then 1 else 0) v
    | _ => .error (.wrongKind Value.intClass v)
  | shape =>
    match v with
    | .wireShape .. => v.toNeutral
    | _ => .error (.wrongKind Value.wireShapeClass v)
  | attr =>
    match v with
    | .wireAttr _ _ => v.toNeutral
    | _ => .error (.wrongKind Value.wireAttrClass v)
  | func =>
    match v with
    | .wireFunc _ _ => v.toNeutral
    | _ => .error (.wrongKind Value.wireFuncClass v)
  | items =>
    match v with
    | .wireItems .. => v.toNeutral
    | _ => .error (.wrongKind Value.wireItemsClass v)

/-- Converts to the wire form. -/
def toWire (c : Converter) (v : Value) : Except Fault Value :=
  match c with
  | any => v.toWire
  | plain => if isPlain v then .ok v else .error (.wrongKind plainKinds v)
  | tensor =>
    match v with
    | .tensor _ _ => v.toWire
    | _ => .error (.wrongKind Value.tensorClass v)
  | elementType =>
    match v with
    | .type t => codeOfElementType t
    | _ => .error (.wrongKind Value.typeClass v)
  | shape =>
    match v with
    | .shape _ => v.toWire
    | _ => .error (.wrongKind Value.shapeClass v)
  | attr =>
    match v with
    | .attr _ _ => v.toWire
    | _ => .error (.wrongKind Value.attrClass v)
  | func =>
    match v with
    | .func _ _ => v.toWire
    | _ => .error (.wrongKind Value.funcClass v)
  | items =>
    match v with
    | .items .. => v.toWire
    | _ => .error (.wrongKind Value.itemsClass v)

end Converter

end TensorEmit
