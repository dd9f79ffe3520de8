import TensorEmit.Code.Statement
import TensorEmit.Code.Variables

/-!
# Templates

A template turns the variables of a fragment into statements. There is one for every kind of code
that is emitted: tensors that are loaded or built, operators, comments, the header, the arrays of
inlined constants and the two containers, whose members are passed as statements.
-/

namespace TensorEmit.Code

/-- The templates. -/
inductive Template where
  | loadTensor | binaryTensor | newTensor
  | add | min | max | argMax | dequantize | reshape
  | maxPool | matMul | quantizedAdd | quantize | relu | requantizeRange | requantize
  | quantizedReshape | conv2d
  | comment | contextHeader | weight
  | context | weights
  deriving DecidableEq, Repr

namespace Template

/-- All templates. -/
def all : List Template :=
  [loadTensor, binaryTensor, newTensor, add, min, max, argMax, dequantize, reshape, maxPool, matMul,
   quantizedAdd, quantize, relu, requantizeRange, requantize, quantizedReshape, conv2d, comment,
   contextHeader, weight, context, weights]

/-- The name under which a template is known. -/
def name : Template → String
  | loadTensor => "snippets/create_tensor_idx.cpp"
  | binaryTensor => "snippets/create_tensor_binary.cpp"
  | newTensor => "snippets/create_tensor_new.cpp"
  | add => "snippets/add_op.cpp"
  | min => "snippets/min_op.cpp"
  | max => "snippets/max_op.cpp"
  | argMax => "snippets/argmax_op.cpp"
  | dequantize => "snippets/dequantize_op.cpp"
  | reshape => "snippets/reshape_op.cpp"
  | maxPool => "snippets/qmax_pool_op.cpp"
  | matMul => "snippets/qmatmul_op.cpp"
  | quantizedAdd => "snippets/qadd_op.cpp"
  | quantize => "snippets/quantV2_op.cpp"
  | relu => "snippets/qrelu_op.cpp"
  | requantizeRange => "snippets/requant_range_op.cpp"
  | requantize => "snippets/requant_op.cpp"
  | quantizedReshape => "snippets/qreshape_op.cpp"
  | conv2d => "snippets/conv2d_op.cpp"
  | comment => "snippets/comments.cpp"
  | contextHeader => "snippets/get_ctx.hpp"
  | weight => "snippets/weight_snippet.hpp"
  | context => "containers/get_ctx.cpp"
  | weights => "containers/weight_header.hpp"

/-- The steps of a path to a template: empty steps and steps that stay in place do not count. -/
def pathSteps (s : String) : List String :=
  (Text.splitAt "/" s).filter fun step => step ≠ "" && step ≠ "."

/-- The template of a name, in which no step may lead back. -/
def ofName (s : String) : Except Fault Template :=
  match all.find? fun t => Text.splitAt "/" t.name == pathSteps s with
  | some t => .ok t
  | none => .error (.templateNotFound s)

/-! ## Layouts -/

/-- Names follow each other after one blank. -/
def close : ListLayout := ⟨"", ""⟩

/-- One more blank stands before the last name. -/
def wideLast : ListLayout := ⟨"", " "⟩

/-- One more blank stands before every name but the last. -/
def wideEach : ListLayout := ⟨" ", ""⟩

/-- The layout of the computation of a template. -/
def layout : Template → ComputeLayout
  | add => ⟨",", 13, close, ", ", close⟩
  | maxPool => ⟨",", 13, close, ", ", wideLast⟩
  | matMul | quantizedAdd => ⟨", ", 13, wideLast, ",", wideLast⟩
  | quantize => ⟨",", 13, wideEach, ",", wideEach⟩
  | requantize | requantizeRange => ⟨",", 13, close, ",", close⟩
  | quantizedReshape => ⟨",", 14, close, ",", close⟩
  | _ => ⟨", ", 13, close, ",", close⟩

/-! ## Parts that templates share -/

/-- The declaration of the one handle, if it is wanted. -/
def declareHandle (vars : Variables) : Except Fault (List Statement) := do
  if ← vars.test "create_sptr" then return [.declareHandles [vars.show "sptr_name"] false]
  return []

/-- The declaration of a handle for each output, if they are wanted. -/
def declareHandleList (vars : Variables) : Except Fault (List Statement) := do
  if ← vars.test "create_sptr" then
    return [.declareHandles (← vars.names "sptr_names") true]
  return []

/-- The fetching of the one handle, if it is wanted. -/
def fetchHandle (vars : Variables) (tensor : String) : Except Fault (List Statement) := do
  if ← vars.test "create_sptr" then return [.fetch (vars.show "sptr_name") (vars.show tensor)]
  return []

/-- Lists are gone through together by a step that a variable can hide. -/
def checkPairing (vars : Variables) : Except Fault Unit :=
  if vars.has "zip" then .error .unfit else .ok ()

/-- The fetching of handles, as many as there are both handles and outputs. -/
def fetchHandleList (vars : Variables) : Except Fault (List Statement) := do
  checkPairing vars
  let handles ← vars.each "sptr_names"
  let outputs ← vars.each "outputs"
  return List.zipWith (fun h o => .fetch h.plain o.plain) handles outputs

/-- The demand for evaluation, if it is wanted. -/
def evaluation (vars : Variables) : Except Fault (List Statement) := do
  if ← vars.test "to_eval" then return [.evaluate]
  return []

/-- The registration of one tensor, with the number of its uses unless that is zero. -/
def registerOne (vars : Variables) (source : TensorSource) (tensor : String)
    (layout : RegisterLayout) :
    Except Fault (List Statement) := do
  let count := if ← vars.test "ref_count" then some (vars.show "ref_count") else none
  return [.register source (vars.show tensor) count layout]

/-- The registrations of the outputs from the `i`-th on, one for each source. -/
def registerFrom (vars : Variables) (counted : Bool) : Int → List (Except Fault TensorSource) →
    Except Fault (List Statement)
  | _, [] => .ok []
  | i, source :: rest => do
    let source ← source
    let name ← vars.showAt "outputs" i
    let count ← if counted then some <$> vars.showAt "ref_counts" i else pure none
    let later ← registerFrom vars counted (i + 1) rest
    return .register source name count .oneLine :: later

/-- The registrations of the outputs, with the numbers of their uses if these are given. -/
def registerList (vars : Variables) (sources : List (Except Fault TensorSource)) :
    Except Fault (List Statement) := do
  registerFrom vars (← vars.test "ref_counts") 0 sources

/-- A new tensor in memory. -/
def ram (type : String) : TensorSource := .made "RamTensor" type []

/-- A new tensor in memory for one element. -/
def ramCell (type : String) : TensorSource := .made "RamTensor" type ["\x7b1\x7d"]

/-- The registrations of an output with the two ends of its range. -/
def registerRanged (vars : Variables) (type low high : Except Fault String) :
    Except Fault (List Statement) :=
  registerList vars [ram <$> type, ramCell <$> low, ramCell <$> high]

/-- The registrations of an output with a range of floats. -/
def registerFloatRanged (vars : Variables) (type : String) : Except Fault (List Statement) :=
  registerRanged vars (.ok type) (.ok "float") (.ok "float")

/-- The computation of one output. -/
def computeOne (t : Template) (vars : Variables) (operator : String) :
    Except Fault (List Statement) := do
  return [.compute operator (← vars.names "inputs") [vars.show "output"] t.layout]

/-- The computation of a list of outputs. -/
def computeList (t : Template) (vars : Variables) (operator : String) :
    Except Fault (List Statement) := do
  let inputs ← vars.names "inputs"
  let outputs ← vars.names "outputs"
  return [.compute operator inputs outputs t.layout]

/-- Type arguments of an operator. -/
def typeArguments (types : List String) : String := "<" ++ ", ".intercalate types ++ ">"

/-! ## Tensors -/

/-- A tensor that is loaded from a file. -/
def loadTensorStatements (vars : Variables) : Except Fault (List Statement) := do
  let declared ← declareHandle vars
  let source := .loaded (vars.show "importer_dtype") (vars.show "idx_path")
  let registered ← registerOne vars source "tensor_name" (.spread "")
  let fetched ← fetchHandle vars "tensor_name"
  let evaluated ← evaluation vars
  return declared ++ [.openBlock "", .line (blockIndent ++ "TensorIdxImporter t_import;")] ++
    registered ++ fetched ++ evaluated ++ [.closeBlock]

/-- A tensor over an array that is part of the program. -/
def binaryTensorStatements (vars : Variables) : Except Fault (List Statement) := do
  let declared ← declareHandle vars
  let source := .made (vars.show "tensor_type") (vars.show "dtype")
    [vars.show "tensor_shape", vars.show "inline_name"]
  let registered ← registerOne vars source "tensor_name" (.spread " ")
  let fetched ← fetchHandle vars "tensor_name"
  let evaluated ← evaluation vars
  return declared ++ [.openBlock "    "] ++ registered ++ fetched ++ evaluated ++ [.closeBlock]

/-- A new tensor of a given shape. -/
def newTensorStatements (vars : Variables) : Except Fault (List Statement) := do
  let declared ← declareHandle vars
  let arguments := if ← vars.test "tensor_shape" then [vars.show "tensor_shape"] else []
  let source := .made (vars.show "tensor_type") (vars.show "dtype") arguments
  let registered ← registerOne vars source "tensor_name" .oneLine
  let fetched ← fetchHandle vars "tensor_name"
  let evaluated ← evaluation vars
  return declared ++ [.openBlock "    "] ++ registered ++ fetched ++ evaluated ++ [.closeBlock]

/-! ## Operators with one output -/

/-- An operator whose output comes from `source`; `gap` stands behind the computation. -/
def simpleStatements (t : Template) (vars : Variables) (source : TensorSource)
    (operator : String) (gap : List Statement) : Except Fault (List Statement) := do
  let declared ← declareHandle vars
  let registered ← registerOne vars source "output" .oneLine
  let computed ← computeOne t vars operator
  let fetched ← fetchHandle vars "output"
  let evaluated ← evaluation vars
  return declared ++ [.openBlock ""] ++ registered ++ computed ++ gap ++ fetched ++ evaluated ++
    [.closeBlock]

/-- An operator whose output is made first, with its shape if that is given. -/
def shapedStatements (t : Template) (vars : Variables) (operator : String) :
    Except Fault (List Statement) := do
  let declared ← declareHandle vars
  let type := vars.show "out_dtype"
  let shape ← if ← vars.test "out_shape" then do
      let sizes ← vars.names "out_shape"
      pure ("\x7b " ++ ", ".intercalate sizes ++ " \x7d")
    else pure ""
  let registered ← registerOne vars (.named "out_tensor") "output" .oneLine
  let computed ← computeOne t vars operator
  let fetched ← fetchHandle vars "output"
  let evaluated ← evaluation vars
  return declared ++ [.openBlock "   ",
      .line (blockIndent ++ "RamTensor<" ++ type ++ ">* out_tensor;"),
      .line (blockIndent ++ "out_tensor = new RamTensor<" ++ type ++ ">(" ++ shape ++ ");")] ++
    registered ++ computed ++ fetched ++ evaluated ++ [.closeBlock]

/-! ## Operators with several outputs -/

/-- An operator with several outputs and a handle for each of them. -/
def listStatements (t : Template) (vars : Variables) (trail : String)
    (registered : Except Fault (List Statement)) (operator : Except Fault String) :
    Except Fault (List Statement) := do
  let declared ← declareHandleList vars
  let registered ← registered
  let computed ← computeList t vars (← operator)
  let fetched ← fetchHandleList vars
  let evaluated ← evaluation vars
  return declared ++ [.openBlock trail] ++ registered ++ computed ++ fetched ++ evaluated ++
    [.closeBlock]

/-- An operator with several outputs that has no handles. -/
def plainListStatements (t : Template) (vars : Variables)
    (registered : Except Fault (List Statement)) (operator : Except Fault String) :
    Except Fault (List Statement) := do
  let registered ← registered
  let computed ← computeList t vars (← operator)
  let evaluated ← evaluation vars
  return [.openBlock ""] ++ registered ++ computed ++ evaluated ++ [.closeBlock]

/-- Pooling by the greatest element of a window. -/
def maxPoolStatements (vars : Variables) : Except Fault (List Statement) := do
  let declared ← declareHandleList vars
  let registered ← registerFloatRanged vars (vars.show "dtype")
  let sizes := ["wind_rows", "wind_cols", "row_stride", "col_stride", "padding"].map vars.show
  let operator := "QuantizedMaxPoolingOp<" ++ vars.show "dtype" ++ ">(" ++ ", ".intercalate sizes ++
    ")"
  let computed ← computeList .maxPool vars operator
  let fetched ← fetchHandleList vars
  let evaluated ← evaluation vars
  return declared ++ [.openBlock ""] ++ registered ++ [.line ""] ++ computed ++ [.line ""] ++
    fetched ++ [.line "    "] ++ evaluated ++ [.closeBlock]

/-- The convolution. -/
def conv2dStatements (vars : Variables) : Except Fault (List Statement) :=
  let registered := registerRanged vars (vars.showAt "out_dtypes" 0) (vars.showAt "out_dtypes" 1)
    (vars.showAt "out_dtypes" 2)
  let operator : Except Fault String := do
    let main ← vars.showAt "out_dtypes" 0
    let strides ← vars.names "strides"
    return "QntConvOp" ++ typeArguments [vars.show "in_dtype", vars.show "filter_dtype", main] ++
      "(\x7b " ++ ", ".intercalate strides ++ " \x7d, " ++ vars.show "padding" ++ ")"
  plainListStatements .conv2d vars registered operator

/-- The activation that cuts off negative elements. -/
def reluStatements (vars : Variables) : Except Fault (List Statement) :=
  let registered := registerRanged vars (.ok (vars.show "qout_dtype"))
    (vars.showAt "out_dtypes" 0) (vars.showAt "out_dtypes" 1)
  let operator : Except Fault String := do
    let low ← vars.showAt "out_dtypes" 0
    return "ReluOp" ++ typeArguments [vars.show "in_dtype", low, vars.show "qout_dtype"] ++ "()"
  listStatements .relu vars "" registered operator

/-- The operator of a product or a sum of quantised tensors. -/
def quantizedBinary (t : Template) (vars : Variables) (operator : String) :
    Except Fault (List Statement) :=
  listStatements t vars "" (registerFloatRanged vars (vars.show "out_dtype"))
    (.ok (operator ++ typeArguments
      [vars.show "x_dtype", vars.show "w_dtype", vars.show "out_dtype"] ++ "()"))

/-! ## Other texts -/

/-- The entry point that the variables describe. -/
def entryPoint (vars : Variables) : Except Fault EntryPoint := do
  let inputs ← if ← vars.test "placeholders" then vars.each "placeholders" else pure []
  return ⟨vars.show "graph_name", inputs.length⟩

/-- Comment lines. -/
def commentStatements (vars : Variables) : Except Fault (List Statement) := do
  return (← vars.each "comments").map fun c => .line ("// " ++ c.plain)

/-- The header that declares the entry point. -/
def contextHeaderStatements (vars : Variables) : Except Fault (List Statement) := do
  let guard_ := "_" ++ vars.show "header_guard"
  return [.line ("#ifndef " ++ guard_), .line ("#define " ++ guard_),
    .line "#include \"uTensor/core/context.hpp\"", .declareEntry (← entryPoint vars),
    .raw ("#endif // " ++ guard_)]

/-- An array that holds an inlined constant. -/
def weightStatements (vars : Variables) : Except Fault (List Statement) := do
  let elements := (← vars.each "value").map Value.plain
  return [.line "#include <stdint.h>", .line "",
    .defineArray (vars.show "type") (vars.show "inline_name") (vars.show "length") elements]

/-- The members of a container, each on lines of its own. -/
def memberStatements (members : List (List Statement)) : List Statement :=
  members.flatMap fun m => m ++ [.line ""]

/-- The registrations of the inputs of the graph from the `i`-th on. -/
def registerInputs : Nat → List (Value × Value) → List Statement
  | _, [] => []
  | i, (name, count) :: rest =>
    .register (.named ("input_" ++ toString i)) name.plain (some count.plain) .oneLine ::
      registerInputs (i + 1) rest

/-- The definition of the entry point. -/
def contextStatements (vars : Variables) (members : Except Fault (List (List Statement))) :
    Except Fault (List Statement) := do
  let entry ← entryPoint vars
  let inputs ← if ← vars.test "placeholders" then do
      checkPairing vars
      let names ← vars.each "placeholders"
      let counts ← vars.each "ref_counts"
      pure ([.line "", .line "\x7b // add tensor for placeholders"] ++
        registerInputs 0 (names.zip counts) ++ [.line "\x7d"])
    else pure []
  return [.defineEntry entry] ++ inputs ++ memberStatements (← members) ++ [.closeBlock]

/-! ## All templates -/

/-- The statements of a template; only the two containers look at the members. -/
def statements (t : Template) (vars : Variables) (members : Except Fault (List (List Statement))) :
    Except Fault (List Statement) :=
  match t with
  | loadTensor => loadTensorStatements vars
  | binaryTensor => binaryTensorStatements vars
  | newTensor => newTensorStatements vars
  | add =>
    simpleStatements add vars (ram (vars.show "out_dtype"))
      ("AddOp" ++ typeArguments [vars.show "in_dtype", vars.show "out_dtype"] ++ "()") [.line ""]
  | argMax =>
    simpleStatements argMax vars (ram (vars.show "out_dtype"))
      ("ArgMaxOp" ++ typeArguments [vars.show "in_dtype", vars.show "out_dtype"] ++ "()") []
  | dequantize => simpleStatements dequantize vars (ram (vars.show "out_dtype")) "DequantizeOp()" []
  | reshape => simpleStatements reshape vars (ram "float") "ReshapeOp()" []
  | min => shapedStatements min vars "MinOp()"
  | max => shapedStatements max vars "MaxOp()"
  | maxPool => maxPoolStatements vars
  | matMul => quantizedBinary matMul vars "QntMatMulOp"
  | quantizedAdd => quantizedBinary quantizedAdd vars "QuantizedAddOp"
  | quantize =>
    listStatements quantize vars "" (registerFloatRanged vars (vars.show "out_dtype"))
      (.ok "QuantizeV2Op()")
  | relu => reluStatements vars
  | requantizeRange =>
    listStatements requantizeRange vars ""
      (registerList vars
        [.ok (ramCell (vars.show "out_dtype")), .ok (ramCell (vars.show "out_dtype"))])
      (.ok "Requantization_RangeOp()")
  | requantize =>
    listStatements requantize vars "   "
      (registerRanged vars (.ok (vars.show "qout_dtype")) (.ok (vars.show "range_dtype"))
        (.ok (vars.show "range_dtype")))
      (.ok "RequantizeOp()")
  | quantizedReshape =>
    plainListStatements quantizedReshape vars (registerFloatRanged vars "uint8_t")
      (.ok "QuantizedReshapeOp()")
  | conv2d => conv2dStatements vars
  | comment => commentStatements vars
  | contextHeader => contextHeaderStatements vars
  | weight => weightStatements vars
  | context => contextStatements vars members
  | weights => memberStatements <$> members

end Template

end TensorEmit.Code
