import TensorEmit.Code.Extent
import TensorEmit.Code.Header
import TensorEmit.Code.TypeName
import TensorEmit.TensorName
import TensorEmit.Text.Upper

/-!
# Fragments

A fragment of emitted code is a template with values for its variables. For every template there is
a function that checks what it is given and sets the variables.
-/

namespace TensorEmit.Code

/-! ## Checks -/

/-- Whether a value counts as true. -/
def truth (v : Value) : Except Fault Bool := holds (some v)

/-- The number of members of a value. -/
def lengthOf (v : Value) : Except Fault Nat :=
  match v.length? with
  | some n => .ok n
  | none => .error .unfit

/-- The members of a value. -/
def membersOf (v : Value) : Except Fault (List Value) :=
  match v.members? with
  | some vs => .ok vs
  | none => .error .unfit

/-- Four members of a value. -/
def fourOf (v : Value) : Except Fault (Value × Value × Value × Value) := do
  match ← membersOf v with
  | [a, b, c, d] => return (a, b, c, d)
  | _ => throw .wrongCount

/-- Numbers of uses, checked against the names they belong to; nothing counts as no numbers. -/
def checkCounts (counts names : Value) : Except Fault Value := do
  match counts with
  | .none => return .list []
  | counts =>
    if ← truth counts then
      let n ← lengthOf counts
      let m ← lengthOf names
      if n ≠ m then throw (.countMismatch counts names)
    return counts

/-- A handle that is wanted has to have a name. -/
def checkHandle (wanted name : Value) : Except Fault Unit := do
  if ← truth wanted then
    if name matches .none then throw .handleWithoutName

/-- The names of an element type that a tensor has to have. -/
def tensorType (type : Value) : Except Fault TypeName := do
  match ← TypeName.find? type with
  | some n => return n
  | none => throw (.unsupportedType type)

/-- A variable that is set only if its value counts as true. -/
def setIfTrue (name : String) (v : Value) : Except Fault Variables := do
  return if ← truth v then [(name, v)] else []

/-- The variables of a handle. -/
def handleVariables (wanted name : Value) : Except Fault Variables := do
  return if ← truth wanted then [("create_sptr", wanted), ("sptr_name", name)] else []

/-- The file name of a tensor: the given one, or one made from the name of the tensor. -/
def fileNameOf (given tensor : Value) : Except Fault Value :=
  match given, tensor with
  | .none, .text s => .ok (.text (flatName s ++ ".idx"))
  | .none, .bytes _ => .error .unfit
  | .none, _ => .error .noPart
  | given, _ => .ok given

/-- A shape as the text of an initialiser. -/
def shapeText (shape : Value) : Except Fault Value := do
  return .text ("\x7b" ++ ",".intercalate ((← membersOf shape).map Value.plain) ++ "\x7d")

/-! ## Tensors -/

/-- A tensor that is loaded from a file. -/
def loadTensorVariables (dir tensor type count file handle wantHandle eval : Value) :
    Except Fault Variables := do
  checkHandle wantHandle handle
  let names ← tensorType type
  let file ← fileNameOf file tensor
  let counted ← setIfTrue "ref_count" count
  let handles ← handleVariables wantHandle handle
  return counted ++ handles ++
    [("idx_path", .text (dir.formatted ++ "/" ++ file.formatted)), ("tensor_name", tensor),
     ("importer_dtype", .text names.importer), ("to_eval", eval)]

/-- A tensor over an array that is part of the program. -/
def binaryTensorVariables (tensor type shape count handle array wantHandle eval : Value) :
    Except Fault Variables := do
  checkHandle wantHandle handle
  let names ← tensorType type
  let counted ← setIfTrue "ref_count" count
  let handles ← handleVariables wantHandle handle
  let text ← shapeText shape
  let length ← extent shape
  return counted ++ handles ++
    [("tensor_type", .text "BinaryTensor"), ("tensor_name", tensor), ("tensor_shape", text),
     ("tensor_length", length), ("dtype", .text names.element), ("to_eval", eval),
     ("inline_name", array)]

/-- A new tensor. -/
def newTensorVariables (tensor type shape count file handle wantHandle eval : Value) :
    Except Fault Variables := do
  checkHandle wantHandle handle
  let names ← tensorType type
  let _ ← fileNameOf file tensor
  let counted ← setIfTrue "ref_count" count
  let handles ← handleVariables wantHandle handle
  let text ← shapeText shape
  return counted ++ handles ++
    [("tensor_name", tensor), ("tensor_shape", text), ("dtype", .text names.element),
     ("to_eval", eval)]

/-! ## Operators with one output -/

/-- A sum. -/
def addVariables (inputs output type count eval : Value) : Except Fault Variables := do
  let counted ← setIfTrue "ref_count" count
  let type ← TypeName.elementOf type
  return counted ++ [("in_dtype", type), ("out_dtype", type), ("inputs", inputs),
    ("output", output), ("to_eval", eval)]

/-- A least or greatest element. -/
def extremeVariables (inputs output type shape count eval : Value) : Except Fault Variables := do
  let counted ← setIfTrue "ref_count" count
  let type ← TypeName.elementOf type
  return counted ++ [("inputs", inputs), ("output", output), ("out_dtype", type),
    ("out_shape", shape), ("to_eval", eval)]

/-- The place of a greatest element. -/
def argMaxVariables (inputs output inType outType count eval : Value) :
    Except Fault Variables := do
  let counted ← setIfTrue "ref_count" count
  let inType ← TypeName.elementOf inType
  let outType ← TypeName.elementOf outType
  return counted ++ [("inputs", inputs), ("output", output), ("in_dtype", inType),
    ("out_dtype", outType), ("to_eval", eval)]

/-- A tensor back from its quantised form. -/
def dequantizeVariables (inputs output type count eval : Value) : Except Fault Variables := do
  let counted ← setIfTrue "ref_count" count
  let type ← TypeName.elementOf type
  return counted ++ [("inputs", inputs), ("output", output), ("out_dtype", type),
    ("to_eval", eval)]

/-- A tensor in another shape. -/
def reshapeVariables (inputs output count eval : Value) : Except Fault Variables := do
  let counted ← setIfTrue "ref_count" count
  return counted ++ [("inputs", inputs), ("output", output), ("to_eval", eval)]

/-! ## Operators with several outputs -/

/-- Pooling by the greatest element of a window. -/
def maxPoolVariables (inputs outputs type window strides padding counts eval : Value) :
    Except Fault Variables := do
  let counts ← checkCounts counts outputs
  let counted ← setIfTrue "ref_counts" counts
  let type ← TypeName.elementOf type
  let (_, cols, rows, _) ← fourOf window
  let (_, colStride, rowStride, _) ← fourOf strides
  return counted ++ [("inputs", inputs), ("outputs", outputs), ("dtype", type),
    ("wind_cols", cols), ("wind_rows", rows), ("col_stride", colStride), ("row_stride", rowStride),
    ("padding", padding), ("to_eval", eval)]

/-- A product or a sum of quantised tensors. -/
def quantizedBinaryVariables (inputs outputs leftType rightType outType counts eval : Value) :
    Except Fault Variables := do
  let inputs ← arrange inputs operandsFirst
  let counts ← checkCounts counts outputs
  let counted ← setIfTrue "ref_counts" counts
  let leftType ← TypeName.elementOf leftType
  let rightType ← TypeName.elementOf rightType
  let outType ← TypeName.elementOf outType
  return counted ++ [("inputs", .list inputs), ("outputs", outputs), ("x_dtype", leftType),
    ("w_dtype", rightType), ("out_dtype", outType), ("to_eval", eval)]

/-- A tensor in its quantised form. -/
def quantizeVariables (inputs outputs type counts eval : Value) : Except Fault Variables := do
  let counts ← checkCounts counts outputs
  let counted ← setIfTrue "ref_counts" counts
  let type ← TypeName.elementOf type
  return counted ++ [("inputs", inputs), ("outputs", outputs), ("out_dtype", type),
    ("to_eval", eval)]

/-- The activation that cuts off negative elements. -/
def reluVariables (inputs outputs inType rangeTypes outType counts eval : Value) :
    Except Fault Variables := do
  let counts ← checkCounts counts outputs
  let inType ← TypeName.elementOf inType
  let rangeTypes ← (← membersOf rangeTypes).mapM TypeName.elementOf
  let outType ← TypeName.elementOf outType
  return [("inputs", inputs), ("outputs", outputs), ("in_dtype", inType),
    ("out_dtypes", .list rangeTypes), ("qout_dtype", outType), ("ref_counts", counts),
    ("to_eval", eval)]

/-- The range for another quantisation. -/
def requantizeRangeVariables (inputs outputs type counts eval : Value) :
    Except Fault Variables := do
  let counts ← checkCounts counts outputs
  let type ← TypeName.elementOf type
  return [("inputs", inputs), ("outputs", outputs), ("out_dtype", type), ("ref_counts", counts),
    ("to_eval", eval)]

/-- A quantised tensor in another quantisation. -/
def requantizeVariables (inputs outputs outType rangeType counts eval : Value) :
    Except Fault Variables := do
  let counts ← checkCounts counts outputs
  let outType ← TypeName.elementOf outType
  let rangeType ← TypeName.elementOf rangeType
  return [("inputs", inputs), ("outputs", outputs), ("qout_dtype", outType),
    ("range_dtype", rangeType), ("ref_counts", counts), ("to_eval", eval)]

/-- A quantised tensor in another shape. -/
def quantizedReshapeVariables (inputs outputs counts eval : Value) : Except Fault Variables := do
  let counted ← setIfTrue "ref_counts" counts
  return counted ++ [("inputs", inputs), ("outputs", outputs), ("to_eval", eval)]

/-- The convolution. -/
def conv2dVariables
    (inputs outputs strides padding inType filterType outTypes counts eval : Value) :
    Except Fault Variables := do
  let counts ← checkCounts counts outputs
  let inType ← TypeName.elementOf inType
  let filterType ← TypeName.elementOf filterType
  let outTypes ← (← membersOf outTypes).mapM TypeName.elementOf
  return [("inputs", inputs), ("outputs", outputs), ("in_dtype", inType),
    ("filter_dtype", filterType), ("out_dtypes", .list outTypes), ("strides", strides),
    ("padding", padding), ("ref_counts", counts), ("to_eval", eval)]

/-! ## Other texts -/

/-- Comment lines. -/
def commentVariables (comments : Value) : Except Fault Variables := .ok [("comments", comments)]

/-- A letter of a byte string as a capital letter. -/
def upperByte (b : UInt8) : UInt8 := if 97 ≤ b ∧ b ≤ 122 then b - 32 else b

/-- A name in capital letters. -/
def upperName : Value → Except Fault String
  | .text s => .ok (Text.upper s)
  | .bytes bs => .ok (Value.bytes (bs.map upperByte)).plain
  | _ => .error .noPart

/-- Nothing counts as an empty list. -/
def listOrEmpty : Value → Value
  | .none => .list []
  | v => v

/-- The header that declares the entry point. -/
def contextHeaderVariables (guard graph inputs : Value) : Except Fault Variables := do
  let name ← upperName guard
  return [("header_guard", .text ("_" ++ name ++ "_H")), ("graph_name", graph),
    ("placeholders", listOrEmpty inputs)]

/-- An array that holds an inlined constant. -/
def weightVariables (array type shape value : Value) : Except Fault Variables := do
  let length ← extent shape
  let type ← TypeName.elementOf type
  let length ← wholeNumber length
  return [("type", type), ("value", value), ("length", .int length), ("inline_name", array)]

/-- The definition of the entry point. -/
def contextVariables (graph inputs counts : Value) : Except Fault Variables := do
  let inputs := listOrEmpty inputs
  let counts ← checkCounts counts inputs
  return [("graph_name", graph), ("placeholders", inputs), ("ref_counts", counts)]

/-! ## Fragments -/

/-- A fragment: the owner of its headers, the name of its template unless that was taken away,
whether its headers were taken away, and its variables. -/
structure Fragment where
  owner : HeaderOwner
  template : Value
  headless : Bool
  vars : Variables

/-- A fragment of a template. -/
def Fragment.of (t : Template) (vars : Variables) : Fragment :=
  ⟨.builtIn t, .text t.name, false, vars⟩

/-- The headers of a fragment. -/
def Fragment.headers (f : Fragment) (sets : HeaderSets) : Except Fault Headers :=
  if f.headless then .error .headersCleared else .ok (sets.of f.owner)

/-- The template of a fragment. Only a text names one. -/
def Fragment.findTemplate (f : Fragment) : Except Fault Template :=
  match f.template with
  | .none => .error .templateCleared
  | .text name => Template.ofName name
  | .bytes _ => .error .unfit
  | v => if v.isKey then .error .noPart else .error .unfit

/-- What comes of a plain value in the place of a member. An entry of a table is taken for the
member's text, but it is no step. -/
def memberFault (v : Value) : Fault :=
  match v with
  | .table entries => if Entries.has entries (.text "render") then .unfit else .notRendered v
  | .array a => if a.type.isQuantized then .noSuchField "render" else .notRendered v
  | .cell t _ => if t.isQuantized then .noSuchField "render" else .notRendered v
  | v => .notRendered v

/-- Names that a variable cannot have. -/
def reservedNames : List String := ["self"]

/-- The statements of a fragment that is no container. What stands in the place of members are plain
values, which have no statements. -/
def Fragment.statements (f : Fragment) : Except Fault (List Statement) := do
  let t ← f.findTemplate
  if reservedNames.any f.vars.has then throw .unfit
  let members : Except Fault (List (List Statement)) := do
    match ← f.vars.each "snippets" with
    | [] => return []
    | v :: _ => throw (memberFault v)
  t.statements f.vars members

/-- The statements of a container with given members. -/
def Fragment.statementsAround (f : Fragment) (members : Except Fault (List (List Statement))) :
    Except Fault (List Statement) := do
  let t ← f.findTemplate
  if ("snippets" :: reservedNames).any f.vars.has then throw .unfit
  t.statements f.vars members

/-- The text of a fragment that is no container. -/
def Fragment.text (f : Fragment) : Except Fault String := textOf <$> f.statements

end TensorEmit.Code
