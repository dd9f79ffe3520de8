import TensorEmit.Value

/-!
# Faults

Everything that can go wrong, by cause. The wording of a fault is in one place, `Fault.message?`.
A fault that only says that a value does not fit the step it was given to has no wording of its own.
-/

namespace TensorEmit

/-- The two sides of an operation. -/
inductive Side where
  | input
  | output
  deriving DecidableEq, Repr

/-- The cause of a failed step. -/
inductive Fault where
  -- Names and options
  | badOutputIndex (name : String)
  | badTensorName (name : String)
  /-- Nothing has this name. -/
  | missing (name : String)
  /-- Nothing is filed under this value. -/
  | unfiled (v : Value)
  | emptySeparator
  -- Values that do not fit
  /-- A value of this kind cannot be used here. -/
  | unfit
  /-- A value has no part of this name. -/
  | noPart
  /-- A position lies outside a list. -/
  | outOfRange
  /-- A list does not have as many members as are taken from it. -/
  | wrongCount
  /-- An array of several elements has no truth value. -/
  | noTruth
  /-- Entries of this kind cannot be multiplied. -/
  | noProduct
  /-- The parts of a nested list agree only on these sizes. -/
  | unevenSizes (dims : List Nat)
  /-- A plain element type has no fields. -/
  | noFields (t : ElementType)
  /-- A quantised element has no field of this name. -/
  | noSuchField (name : String)
  /-- A float without a whole part where a whole number is needed. -/
  | notWhole (text : String)
  /-- An infinite float where a whole number is needed. -/
  | tooLarge
  /-- A member to be removed from a list is not there. -/
  | notListed
  /-- A step refers to something that is defined nowhere. -/
  | undefinedStep
  /-- A step uses a result that an earlier step did not produce. -/
  | noResult
  /-- Bytes are not the encoding of a text. -/
  | notText
  /-- A field must have one of the kinds `expected`. -/
  | wrongField (field expected : String) (v : Value)
  /-- A list must have members of one kind. -/
  | wrongMembers (expected : String) (v : Value)
  -- Attribute conversion
  | wrongKind (expected : String) (v : Value)
  | unknownWireKind (v : Value)
  | unknownNeutralKind (v : Value)
  | unsupportedConstant (t : ElementType)
  | unsupportedElement (t : ElementType)
  | shapeNotList
  | badShape (v : Value)
  | badAttribute (v : Value)
  | badFunctionAttributes (v : Value)
  | converterParts (kind : String)
  | converterWithoutNeutral (kind : String)
  | converterWithoutWire (kind : String)
  | notProvided (what : String)
  -- Graphs
  | badShapeEntries
  | notAGraph (kind : String)
  | notTensors (side : Side)
  | unsupportedBackend (v : Value)
  | outputsNotList (v : Value)
  | noOutputs
  | unknownGraphForm
  | notFrozen
  | foreignBackend
  | notAnOperation (v : Value)
  | duplicateOperation (name : String)
  | operationNotFound (name : String)
  | cyclic
  | shallowCopy (what : String)
  -- Passes
  | passWithoutScope (pass : String)
  | notAPass (kind : String)
  | passExists
  | transformUnavailable
  -- Emitted code
  | handleWithoutName
  | unsupportedType (v : Value)
  | unsupportedOperation (opType : String)
  | countMismatch (counts names : Value)
  | undefinedVariable (name : String)
  /-- A plain value stands where a member of a container should. -/
  | notRendered (v : Value)
  | templateNotFound (name : String)
  | noTemplateName (kind : String)
  | noHeaderSet (kind : String)
  | headersNotSet (kind : String)
  | templateCleared
  | headersCleared
  | notAFragment (kind : String)
  | notComposable (kind : String)
  | notComposableMembers (kind : String)
  -- Files
  | emptyArray
  | unsupportedArray
  | fileNotFound
  | fileExists
  | fileIsDirectory
  /-- Something on the way to a file is no directory. -/
  | notADirectory (path : String)
  | notAModelFile
  | noModelFile
  deriving Inhabited

namespace Fault

/-- The kinds that an attribute may hold. -/
def attributeKinds : String :=
  Value.bracketed "(" ")" [Value.bytesClass, Value.intClass, Value.floatClass, Value.boolClass,
    Value.textClass, Value.intClass, Value.textClass, Value.typeClass, Value.shapeClass,
    Value.tensorClass, Value.itemsClass, Value.funcClass]

/-- The wording of a fault, if it has one of its own. -/
def message? : Fault → Option String
  | badOutputIndex name => some ("invalid output index: " ++ name)
  | badTensorName name => some ("invalid tensor name: " ++ name)
  | missing name => some name
  | unfiled (.text s) => some s
  | unfiled v => some v.quoted
  | emptySeparator | unfit | noPart | outOfRange | wrongCount | notListed | undefinedStep
  | noResult | notText | noProduct | tooLarge => none
  | unevenSizes dims =>
    some ("setting an array element with a sequence. The requested array has an inhomogeneous " ++
      "shape after " ++ toString dims.length ++ " dimensions. The detected shape was " ++
      shapeTuple dims ++ " + inhomogeneous part.")
  | noSuchField name => some ("no field of name " ++ name)
  | noFields t => some ("There are no fields in dtype " ++ t.text ++ ".")
  | notWhole s => some ("cannot convert float " ++ s ++ " to integer")
  | noTruth =>
    some ("The truth value of an array with more than one element is ambiguous. " ++
      "Use a.any() or a.all()")
  | wrongField field expected v =>
    some ("'" ++ field ++ "' must be " ++ expected ++ " (got " ++ v.quoted ++ " that is a " ++
      v.kindText ++ ").")
  | wrongMembers expected v =>
    some ("Expecting list of type " ++ expected ++ ", get " ++ v.plain)
  | wrongKind expected v => some ("Expecting " ++ expected ++ ", get " ++ v.kindText)
  | unknownWireKind v => some ("Unknown tf value type: " ++ v.kindText)
  | unknownNeutralKind v => some ("Unknown generic type: " ++ v.kindText)
  | unsupportedConstant t => some ("Unsupported numpy dtype: " ++ t.text)
  | unsupportedElement t => some ("Unsupport numpy dtype: " ++ t.text)
  | shapeNotList => some "list_view should be a list"
  | badShape v => some ("Invalid value type for " ++ v.plain)
  | badAttribute v => some ("Expecting " ++ attributeKinds ++ ", get " ++ v.kindText)
  | badFunctionAttributes v =>
    some ("Expecting a dict with key of str (or unicode), value of " ++ Value.attrClass ++
      ", get " ++ v.plain)
  | converterParts kind =>
    some ("converter has to be subclass of both GenericConverter and TFConverterMixin: " ++ kind)
  | converterWithoutNeutral kind => some ("__utensor_generic_type__ cannot be None: " ++ kind)
  | converterWithoutWire kind => some ("__tfproto_type__ cannot be None: " ++ kind)
  | notProvided what => some what
  | badShapeEntries => some "shape should be a list of integers"
  | notAGraph kind => some ("Expecting a uTensorGraph, get " ++ kind)
  | notTensors .input => some "Expecting a list of TensorInfo for input_tensors"
  | notTensors .output => some "Expecting a list of TensorInfo for output_tensors"
  | unsupportedBackend v => some ("Unsupported backend: " ++ v.plain)
  | outputsNotList v =>
    some ("output_nodes should be of type " ++ Value.listClass ++ ", get " ++ v.kindText)
  | noOutputs => some "No output_nodes given"
  | unknownGraphForm => some "Only support tensorflow now"
  | notFrozen => some "Given graph_def is not freezed"
  | foreignBackend => some "Convert a uTensorGraph to tf.GraphDef from a non-tf backend"
  | notAnOperation v => some ("expecting OperationInfo, get " ++ v.kindText)
  | duplicateOperation name => some ("duplicate op detected, " ++ name)
  | operationNotFound name => some ("op not found in the graph: " ++ name)
  | cyclic => some "Input graph is not a DAG"
  | shallowCopy what =>
    some ("shallow copy is not allowed for type <class 'utensor_cgen.ir.base." ++ what ++ "'>")
  | passWithoutScope pass => some ("kwargs namescope not found for " ++ pass)
  | notAPass kind => some ("expecting Transformer type, get " ++ kind)
  | passExists => some "Registering existing transformer without overwriting"
  | transformUnavailable => some "TransformGraph is not available"
  | handleWithoutName => some "sptr_name can't be None if create_sptr is True"
  | unsupportedType v => some ("unsupport data type in uTensor: " ++ v.plain)
  | unsupportedOperation opType => some ("unsupported op type in uTensor: " ++ opType)
  | countMismatch counts names =>
    some ("incorrect number of ref_counts and outputs: " ++ counts.plain ++ ", " ++ names.plain)
  | undefinedVariable name => some ("'" ++ name ++ "' is undefined")
  | notRendered v => some ("'" ++ v.objectText ++ "' has no attribute 'render'")
  | templateNotFound name => some name
  | noTemplateName kind => some ("No " ++ kind ++ ".__template_name__ not defined")
  | noHeaderSet kind => some ("No " ++ kind ++ ".__headers__ not defined")
  | headersNotSet kind => some ("__headers__ should be of type set, get " ++ kind)
  | templateCleared =>
    some "No template name: please override class attribute __template_name__"
  | headersCleared =>
    some "No __headers__ found, all snippet class should overwrite this class attribute"
  | notAFragment kind => some ("expecting Snippet object, get " ++ kind)
  | notComposable kind => some ("expecting Snippet/SnippetContainerBase object, get " ++ kind)
  | notComposableMembers kind =>
    some ("expecting Snippet/SnippetContainerBase objects, get " ++ kind)
  | emptyArray => some "Cannot encode empty array."
  | unsupportedArray => some "numpy ndarray type not supported by IDX format."
  | fileNotFound | fileExists | fileIsDirectory => none
  | notADirectory path => some ("[Errno 20] Not a directory: " ++ Text.quoted path)
  | notAModelFile => some "Support only pb file"
  | noModelFile => some "No pb file given"

end Fault

/-- The text that a value is; a value of another kind does not fit. -/
def Value.asText (v : Value) : Except Fault String :=
  match v.text? with
  | some s => .ok s
  | Option.none => .error .unfit

end TensorEmit
