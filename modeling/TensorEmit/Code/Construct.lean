import TensorEmit.Code.Fragment

/-!
# Fragments from named arguments

Every template has a fixed set of named arguments, of which some have a default. A fragment can be
made from named arguments if each name is known and each argument without a default is given.
-/

namespace TensorEmit.Code

/-- An argument by its name, with its default if it has one. -/
abbrev Parameter := String × Option Value

namespace Parameter

/-- An argument that has to be given. -/
def required (name : String) : Parameter := (name, none)

/-- An argument that is nothing unless it is given. -/
def optional (name : String) : Parameter := (name, some .none)

/-- An argument that is false unless it is given. -/
def flag (name : String) : Parameter := (name, some (.bool false))

/-- An argument that is zero unless it is given. -/
def counter (name : String) : Parameter := (name, some (.int 0))

end Parameter

open Parameter

/-- The name of the argument for the members of a container. -/
def memberArgument : String := "snippets"

namespace Template

/-- The name of the class of a template's fragments. -/
def className : Template → String
  | loadTensor => "CreateTensorIdxSnippet"
  | binaryTensor => "CreateTensorBinarySnippet"
  | newTensor => "CreateTensorNewSnippet"
  | add => "AddOpSnippet"
  | min => "MinOpSnippet"
  | max => "MaxOpSnippet"
  | argMax => "ArgMaxOpSnippet"
  | dequantize => "DequantizeOpSnippet"
  | reshape => "ReshapeOpSnippet"
  | maxPool => "QuantizedMaxPoolSnippet"
  | matMul => "QuantizedMatMulOpSnippet"
  | quantizedAdd => "QuantizedAddOpSnippet"
  | quantize => "QuantizeV2OpSnippet"
  | relu => "QuantizedReluOpSnippet"
  | requantizeRange => "RequantizationRangeOpSnippet"
  | requantize => "RequantizeOpSnippet"
  | quantizedReshape => "QuantizedReshapeOpSnippet"
  | conv2d => "Conv2DOpSnippent"
  | comment => "CommentSnippet"
  | contextHeader => "ContextHeaderSnippet"
  | weight => "WeightSnippet"
  | context => "ContextSnippetsContainer"
  | weights => "ContextGlobalArrayContainer"

/-- The template of a class name. -/
def ofClassName? (s : String) : Option Template := all.find? fun t => t.className == s

/-- Whether the fragments of a template are containers. -/
def isContainer : Template → Bool
  | context | weights => true
  | _ => false

/-- The named arguments of a template. -/
def parameters : Template → List Parameter
  | loadTensor =>
    [required "data_dir", required "tensor_name", required "np_dtype", counter "ref_count",
     optional "idx_fname", optional "sptr_name", flag "create_sptr", flag "to_eval"]
  | binaryTensor =>
    [required "tensor_name", required "tf_dtype", optional "tensor_shape", counter "ref_count",
     optional "sptr_name", optional "inline_name", flag "create_sptr", flag "to_eval"]
  | newTensor =>
    [required "tensor_name", required "np_dtype", optional "tensor_shape", counter "ref_count",
     optional "idx_fname", optional "sptr_name", flag "create_sptr", flag "to_eval"]
  | add =>
    [required "inputs", required "output", required "np_dtype", counter "ref_count", flag "to_eval"]
  | min | max =>
    [required "inputs", required "output", required "out_dtype", optional "out_shape",
     counter "ref_count", flag "to_eval"]
  | argMax =>
    [required "inputs", required "output", required "in_dtype", required "out_dtype",
     counter "ref_count", flag "to_eval"]
  | dequantize =>
    [required "inputs", required "output", required "out_dtype", counter "ref_count",
     flag "to_eval"]
  | reshape => [required "inputs", required "output", counter "ref_count", flag "to_eval"]
  | maxPool =>
    [required "inputs", required "outputs", required "dtype", required "ksize", required "strides",
     required "padding", optional "ref_counts", flag "to_eval"]
  | matMul | quantizedAdd =>
    [required "inputs", required "outputs", required "x_dtype", required "w_dtype",
     required "out_dtype", optional "ref_counts", flag "to_eval"]
  | quantize | requantizeRange =>
    [required "inputs", required "outputs", required "out_dtype", optional "ref_counts",
     flag "to_eval"]
  | relu =>
    [required "inputs", required "outputs", required "in_dtype", required "out_dtypes",
     required "qout_dtype", optional "ref_counts", flag "to_eval"]
  | requantize =>
    [required "inputs", required "outputs", required "qout_dtype", required "range_dtype",
     optional "ref_counts", flag "to_eval"]
  | quantizedReshape =>
    [required "inputs", required "outputs", optional "ref_counts", flag "to_eval"]
  | conv2d =>
    [required "inputs", required "outputs", required "strides", required "padding",
     required "in_dtype", required "filter_dtype", required "out_dtypes", optional "ref_counts",
     flag "to_eval"]
  | comment => [required "comments"]
  | contextHeader => [required "guard_name", required "graph_name", optional "placeholders"]
  | weight => [required "inline_name", required "type", required "shape", required "value"]
  | context =>
    [required "graph_name", required "ctx_header_name", required "ctx_weightheader_name",
     optional memberArgument, optional "placeholders", optional "ref_counts"]
  | weights => [optional memberArgument]

/-- The variables of a template for its arguments. -/
def bindings (t : Template) (arg : String → Value) : Except Fault Variables :=
  let inputs := arg "inputs"
  let output := arg "output"
  let outputs := arg "outputs"
  let count := arg "ref_count"
  let counts := arg "ref_counts"
  let eval := arg "to_eval"
  match t with
  | loadTensor =>
    loadTensorVariables (arg "data_dir") (arg "tensor_name") (arg "np_dtype") count
      (arg "idx_fname") (arg "sptr_name") (arg "create_sptr") eval
  | binaryTensor =>
    binaryTensorVariables (arg "tensor_name") (arg "tf_dtype") (arg "tensor_shape") count
      (arg "sptr_name") (arg "inline_name") (arg "create_sptr") eval
  | newTensor =>
    newTensorVariables (arg "tensor_name") (arg "np_dtype") (arg "tensor_shape") count
      (arg "idx_fname") (arg "sptr_name") (arg "create_sptr") eval
  | add => addVariables inputs output (arg "np_dtype") count eval
  | min | max => extremeVariables inputs output (arg "out_dtype") (arg "out_shape") count eval
  | argMax => argMaxVariables inputs output (arg "in_dtype") (arg "out_dtype") count eval
  | dequantize => dequantizeVariables inputs output (arg "out_dtype") count eval
  | reshape => reshapeVariables inputs output count eval
  | maxPool =>
    maxPoolVariables inputs outputs (arg "dtype") (arg "ksize") (arg "strides") (arg "padding")
      counts eval
  | matMul | quantizedAdd =>
    quantizedBinaryVariables inputs outputs (arg "x_dtype") (arg "w_dtype") (arg "out_dtype") counts
      eval
  | quantize => quantizeVariables inputs outputs (arg "out_dtype") counts eval
  | requantizeRange => requantizeRangeVariables inputs outputs (arg "out_dtype") counts eval
  | relu =>
    reluVariables inputs outputs (arg "in_dtype") (arg "out_dtypes") (arg "qout_dtype") counts eval
  | requantize =>
    requantizeVariables inputs outputs (arg "qout_dtype") (arg "range_dtype") counts eval
  | quantizedReshape => quantizedReshapeVariables inputs outputs counts eval
  | conv2d =>
    conv2dVariables inputs outputs (arg "strides") (arg "padding") (arg "in_dtype")
      (arg "filter_dtype") (arg "out_dtypes") counts eval
  | comment => commentVariables (arg "comments")
  | contextHeader =>
    contextHeaderVariables (arg "guard_name") (arg "graph_name") (arg "placeholders")
  | weight => weightVariables (arg "inline_name") (arg "type") (arg "shape") (arg "value")
  | context => contextVariables (arg "graph_name") (arg "placeholders") counts
  | weights => .ok []

/-- The named arguments completed by defaults. -/
def arguments (t : Template) (given : Entries String Value) : Except Fault (String → Value) :=
  let known := given.all fun e => t.parameters.any fun p => p.1 == e.1
  let complete := t.parameters.all fun p => p.2.isSome || given.has p.1
  if known && complete then
    .ok fun name => (Entries.get? (Entries.setAll (t.parameters.map fun p => (p.1, p.2.getD .none))
      given) name).getD .none
  else .error .unfit

end Template

/-- A fragment that is no container from named arguments. -/
def Fragment.construct (t : Template) (given : Entries String Value) : Except Fault Fragment := do
  return Fragment.of t (← t.bindings (← t.arguments given))

/-- The headers that the definition of the entry point adds on its own. -/
def contextHeaders (headerName weightHeaderName : Value) : Headers :=
  ["\"" ++ headerName.formatted ++ "\"", "\"" ++ weightHeaderName.formatted ++ "\""]

end TensorEmit.Code
