import TensorEmit.ArrayText
import TensorEmit.Text.Quoted

/-!
# Values

Attributes, options and template variables are not bound to one type, so they are held in one type
of values. Besides plain data it has the two forms of attribute data: the *wire* form, in which a
graph file holds it, and the *neutral* form, in which a graph holds it.
-/

namespace TensorEmit

/-- The key of an entry of a table. -/
inductive Key where
  | none
  | bool (b : Bool)
  | int (n : Int)
  | text (s : String)
  deriving DecidableEq, Repr, Inhabited

/-- The whole number that a key stands for, if it is one; a truth value is zero or one. -/
def Key.number? : Key → Option Int
  | bool b => some (if b then 1 else 0)
  | int n => some n
  | _ => Option.none

/-- A value of any kind. -/
inductive Value where
  | none
  | bool (b : Bool)
  | int (n : Int)
  /-- A float of 64 bits, by its bit pattern. -/
  | float (bits : Nat)
  | text (s : String)
  | bytes (bs : List UInt8)
  | list (vs : List Value)
  | table (entries : List (Key × Value))
  | type (t : ElementType)
  | array (a : NumArray)
  /-- One element of an array. -/
  | cell (t : ElementType) (c : Int)
  /-- Neutral: a constant with the element type that it has on the wire. -/
  | tensor (a : NumArray) (type : Value)
  /-- Neutral: the sizes of a shape, or nothing if not even their number is known. -/
  | shape (dims : Option (List Value))
  /-- Neutral: an attribute, with the name of the kind of its value. -/
  | attr (kind : String) (value : Value)
  /-- Neutral: a function with named attributes. -/
  | func (name : String) (attrs : List (String × Value))
  /-- Neutral: a list attribute, by kind of its members. -/
  | items (bytes : List Value) (ints : Value)
      (floats bools types shapes tensors funcs : List Value)
  /-- Wire: an attribute, which may have nothing set. -/
  | wireAttr (field : Option String) (value : Value)
  /-- Wire: a constant. -/
  | wireTensor (array : Value)
  /-- Wire: a shape, by the names and sizes that the file gives and the sizes that the graph library
  reads from them: none if it cannot tell how many there are, or refuses one. -/
  | wireShape (dims : List (String × Value)) (sizes : Option (List Value))
  /-- Wire: a function with named attributes. -/
  | wireFunc (name : String) (attrs : List (String × Value))
  /-- Wire: a list attribute, by kind of its members. -/
  | wireItems (bytes ints floats bools types shapes tensors funcs : List Value)
  deriving Inhabited

namespace Value

/-! ## Kinds -/

/-- How a message names a kind of values. -/
def classText (name : String) : String := "<class '" ++ name ++ "'>"

/-- The kind of a whole number. -/
def intClass : String := classText "int"

/-- The kind of a text. -/
def textClass : String := classText "str"

/-- The kind of a byte string. -/
def bytesClass : String := classText "bytes"

/-- The kind of a float. -/
def floatClass : String := classText "float"

/-- The kind of a truth value. -/
def boolClass : String := classText "bool"

/-- The kind of a list. -/
def listClass : String := classText "list"

/-- The kind of the value that stands for nothing. -/
def noneClass : String := classText "NoneType"

/-- The kind that all element types have in common. -/
def typeClass : String := classText "numpy.dtype"

/-- The kind of an array. -/
def arrayClass : String := classText "numpy.ndarray"

/-- The kind of a neutral constant. -/
def tensorClass : String :=
  classText "utensor_cgen.ir.converter.GenericTensorConverterMixin.GenericType"

/-- The kind of a neutral shape. -/
def shapeClass : String :=
  classText "utensor_cgen.ir.converter.GenericTensorShapeMixin.GenericType"

/-- The kind of a neutral attribute. -/
def attrClass : String := classText "utensor_cgen.ir.converter.AttrValueConverter.GenericType"

/-- The kind of a neutral function. -/
def funcClass : String := classText "utensor_cgen.ir.converter.NameAttrListConverter.GenericType"

/-- The kind of a neutral list attribute. -/
def itemsClass : String := classText "utensor_cgen.ir.converter.AttrListValueConverter.GenericType"

/-- The kind of a wire attribute. -/
def wireAttrClass : String := classText "tensorflow.core.framework.attr_value_pb2.AttrValue"

/-- The kind of a wire constant. -/
def wireTensorClass : String := classText "tensorflow.core.framework.tensor_pb2.TensorProto"

/-- The kind of a wire shape. -/
def wireShapeClass : String :=
  classText "tensorflow.core.framework.tensor_shape_pb2.TensorShapeProto"

/-- The kind of a wire function. -/
def wireFuncClass : String := classText "tensorflow.core.framework.attr_value_pb2.NameAttrList"

/-- The kind of a wire list attribute. -/
def wireItemsClass : String := classText "tensorflow.core.framework.attr_value_pb2.ListValue"

/-- How a message names the kind of a value. -/
def kindText : Value → String
  | none => noneClass
  | bool _ => boolClass
  | int _ => intClass
  | float _ => floatClass
  | text _ => textClass
  | bytes _ => bytesClass
  | list _ => listClass
  | table _ => classText "dict"
  | type t => t.kindText
  | array _ => arrayClass
  | cell t _ =>
    if t.isQuantized then classText "numpy.void"
    else classText ("numpy." ++ (if t.base = .bool then "bool_" else t.base.name))
  | tensor _ _ => tensorClass
  | shape _ => shapeClass
  | attr _ _ => attrClass
  | func _ _ => funcClass
  | items .. => itemsClass
  | wireAttr _ _ => wireAttrClass
  | wireTensor _ => wireTensorClass
  | wireShape .. => wireShapeClass
  | wireFunc _ _ => wireFuncClass
  | wireItems .. => wireItemsClass

/-- How a message names a value by its kind. -/
def objectText : Value → String
  | none => "None"
  | tensor _ _ | shape _ | attr _ _ | func _ _ | items .. =>
    "utensor_cgen.ir.converter.GenericType object"
  | v => String.ofList ((v.kindText.toList.drop 8).takeWhile (· ≠ '\x27')) ++ " object"

/-! ## Text -/

/-- Entries between brackets, divided by commas. -/
def bracketed (opening closing : String) (parts : List String) : String :=
  opening ++ ", ".intercalate parts ++ closing

/-- How a key is shown. -/
def quotedKey : Key → String
  | .none => "None"
  | .bool b => if b then "True" else "False"
  | .int n => toString n
  | .text s => Text.quoted s

mutual

/-- How a value is shown among other values. -/
def quoted : Value → String
  | none => "None"
  | bool b => if b then "True" else "False"
  | int n => toString n
  | float bits => Number.floatText Number.double bits
  | text s => Text.quoted s
  | bytes bs => Text.quotedBytes bs
  | list vs => bracketed "[" "]" (quotedAll vs)
  | table entries => bracketed "\x7b" "\x7d" (quotedEntries entries)
  | type t => t.quoted
  | array a => a.quoted
  | cell t c => t.cellText c
  | tensor a t =>
    "GenericTensorConverterMixin.GenericType(np_array=" ++ a.quoted ++ ", dtype=" ++
      t.quoted ++ ")"
  | shape dims => "GenericTensorShapeMixin.GenericType(list_view=" ++ quotedDims dims ++ ")"
  | attr kind value =>
    "AttrValueConverter.GenericType(value_name=" ++ Text.quoted kind ++ ", value=" ++
      value.quoted ++ ")"
  | func name attrs =>
    "NameAttrListConverter.GenericType(name=" ++ Text.quoted name ++ ", attr_map=" ++
      bracketed "\x7b" "\x7d" (quotedFields attrs) ++ ")"
  | items bytesMembers ints floats bools types shapes tensors funcs =>
    "AttrListValueConverter.GenericType(bytes_value=" ++
      bracketed "[" "]" (quotedAll bytesMembers) ++
      ", ints_value=" ++ ints.quoted ++
      ", floats_value=" ++ bracketed "[" "]" (quotedAll floats) ++
      ", bools_value=" ++ bracketed "[" "]" (quotedAll bools) ++
      ", data_types_value=" ++ bracketed "[" "]" (quotedAll types) ++
      ", tensorshape_protos_value=" ++ bracketed "[" "]" (quotedAll shapes) ++
      ", tensor_protos_value=" ++ bracketed "[" "]" (quotedAll tensors) ++
      ", name_attrs_value=" ++ bracketed "[" "]" (quotedAll funcs) ++ ")"
  | wireAttr _ _ => "<AttrValue object>"
  | wireTensor _ => "<TensorProto object>"
  | wireShape .. => "<TensorShapeProto object>"
  | wireFunc _ _ => "<NameAttrList object>"
  | wireItems .. => "<ListValue object>"

/-- How each of some values is shown. -/
def quotedAll : List Value → List String
  | [] => []
  | v :: vs => v.quoted :: quotedAll vs

/-- How each entry of a table is shown. -/
def quotedEntries : List (Key × Value) → List String
  | [] => []
  | (k, v) :: rest => (quotedKey k ++ ": " ++ v.quoted) :: quotedEntries rest

/-- How each of some named values is shown. -/
def quotedFields : List (String × Value) → List String
  | [] => []
  | (k, v) :: rest => (Text.quoted k ++ ": " ++ v.quoted) :: quotedFields rest

/-- How the sizes of a shape are shown. -/
def quotedDims : Option (List Value) → String
  | .none => "None"
  | some ds => bracketed "[" "]" (quotedAll ds)

end

/-- How a value is shown on its own. -/
def plain : Value → String
  | text s => s
  | type t => t.text
  | array a => a.text
  | v => v.quoted

/-- How an element of an array is filled into a sentence: a float as one of 64 bits. -/
def formattedCell (t : ElementType) (c : Int) : String :=
  match t.floatFormat? with
  | some fmt => Number.floatText Number.double (Number.convertFloat fmt Number.double c.toNat)
  | .none => t.cellText c

/-- How a value is filled into a sentence. -/
def formatted : Value → String
  | cell t c => formattedCell t c
  | array a =>
    match a.shape, a.cells with
    | [], [c] => formattedCell a.type c
    | _, _ => a.text
  | v => v.plain

/-! ## Reading values -/

/-- Whether a value counts as true; only an array of more than one element has no truth value. -/
def truth? : Value → Option Bool
  | none => some false
  | bool b => some b
  | int n => some (n ≠ 0)
  | float bits => some (!Number.double.isZero bits)
  | text s => some (s ≠ "")
  | bytes bs => some (!bs.isEmpty)
  | list vs => some (!vs.isEmpty)
  | table entries => some (!entries.isEmpty)
  | array a =>
    match a.cells with
    | [] => some false
    | [c] => some (a.type.castCell .bool c ≠ 0)
    | _ => Option.none
  | cell t c => some (t.castCell .bool c ≠ 0)
  | _ => some true

/-- A key as a value. -/
def ofKey : Key → Value
  | .none => none
  | .bool b => bool b
  | .int n => int n
  | .text s => text s

/-- A table whose keys are texts. -/
def ofFields (fields : List (String × Value)) : Value :=
  table (fields.map fun f => (Key.text f.1, f.2))

/-- The value under a whole number in the entries of a table. -/
def atNumber? (entries : List (Key × Value)) (i : Int) : Option Value :=
  (entries.find? fun e => e.1.number? = some i).map Prod.snd

/-- Whether things can be filed under a value. -/
def isKey : Value → Bool
  | none | bool _ | int _ | float _ | text _ | bytes _ | type _ | cell _ _ => true
  | _ => false

/-- The text that a value is, if it is one. -/
def text? : Value → Option String
  | text s => some s
  | _ => Option.none

/-- The members that going through a value gives, if one can go through it. -/
def members? : Value → Option (List Value)
  | list vs => some vs
  | text s => some (s.toList.map fun c => text (String.ofList [c]))
  | bytes bs => some (bs.map fun b => int b.toNat)
  | table entries => some (entries.map fun e => ofKey e.1)
  | array a =>
    match a.shape with
    | [] => Option.none
    | [_] => some (a.cells.map (cell a.type))
    | _ => some (a.rows.map array)
  | _ => Option.none

/-- The number of members of a value, if it has any; those of an element type are its fields. -/
def length? : Value → Option Nat
  | type t => some (if t.isQuantized then 1 else 0)
  | v => (members? v).map List.length

end Value

end TensorEmit
