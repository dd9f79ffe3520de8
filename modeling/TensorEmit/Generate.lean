import TensorEmit.Code.Construct
import TensorEmit.Operator

/-!
# Generating a program

A run reads a graph file, runs the passes that are asked for and writes a source file and its
header. If constants are inlined, a header with their arrays is written too; all other constants
become files in the data directory.

The header sets outlive a run, so a later run still names the headers of an earlier one. What is
asked of a run are values of any kind; each is looked at only when the run comes to it.
-/

namespace TensorEmit

open Code

/-- What is asked of a run. -/
structure Request where
  /-- The graph file. -/
  model : Value
  /-- The directory for files of constants. -/
  dataDir : Value
  /-- The directory in which the emitted code looks for these files. -/
  embedDir : Value
  /-- The passes by name. -/
  methods : Value
  /-- The operations whose outputs are wanted. -/
  outputs : Value
  /-- Whether the graph is saved after the passes. -/
  saveGraph : Bool
  /-- Whether the emitted code has a comment behind every operation. -/
  comments : Bool
  /-- The options of the passes. -/
  options : Entries String Value

/-- The names of all that a run is asked for besides the options of the passes. -/
def requestNames : List String :=
  ["self", "model_file", "idx_dir", "embed_data_dir", "trans_methods", "output_nodes", "save_graph",
   "debug_cmt"]

/-- An option of a pass cannot have a name that the request itself uses. -/
def Request.checkOptions (r : Request) : Except Fault Unit :=
  if r.options.any fun e => requestNames.contains e.1 then .error .unfit else .ok ()

/-- The names of the passes. -/
def Request.methodNames (r : Request) : Except Fault (List String) :=
  match r.methods.members? with
  | some vs => vs.mapM Value.asText
  | none => .error .unfit

/-- The directory in which the emitted code looks for files, without slashes at its end. -/
def Request.embedPath (r : Request) : Except Fault String :=
  match r.embedDir with
  | .text s => .ok (Path.trimSlashes s)
  | .bytes _ => .error .unfit
  | _ => .error .noPart

/-! ## Names -/

/-- The names that a run uses. -/
structure OutputNames where
  graph : String
  guard : String
  source : String
  header : String
  weightHeader : String
  deriving DecidableEq, Repr

/-- The names for a graph file and a source file. -/
def OutputNames.of (model source : String) : OutputNames :=
  let stem := Path.withoutExtension source
  { graph := Path.withoutExtension (Path.base model)
    guard := Text.replaceChar '/' '_' stem
    source := source
    header := stem ++ ".hpp"
    weightHeader := stem ++ "_weight.hpp" }

/-- The extension of graph files. -/
def modelExtension : String := ".pb"

/-- The path of the graph file. -/
def Request.modelPath (r : Request) : Except Fault String :=
  match r.model with
  | .text s => if Path.extension s = modelExtension then .ok s else .error .notAModelFile
  | .bytes _ => .error .notAModelFile
  | _ => .error .unfit

/-- The first lines of every written text. -/
def banner : String := "// Auto generated by utensor-cli\n\n"

/-! ## The entry point -/

/-- The entry point as far as it is put together: the inputs of the graph, how often each of them is
read, and the fragments. -/
structure Draft where
  inputs : List Value
  counts : List Value
  members : List Fragment

namespace Draft

/-- An entry point with nothing in it. -/
def empty : Draft := ⟨[], [], []⟩

/-- Adds an input. -/
def addInput (d : Draft) (name : String) (count : Value) : Draft :=
  { d with inputs := d.inputs ++ [.text name], counts := d.counts ++ [count] }

/-- The container of the entry point. -/
def container (d : Draft) (graph : String) : Fragment :=
  .of .context [("graph_name", .text graph), ("placeholders", .list d.inputs),
    ("ref_counts", .list d.counts)]

/-- The statements of the entry point. -/
def statements (d : Draft) (graph : String) : Except Fault (List Statement) :=
  (d.container graph).statementsAround (d.members.mapM Fragment.statements)

/-- The source text with the lines for its headers. -/
def source (d : Draft) (graph : String) (hs : Headers) : Except Fault String := do
  return composed (Headers.addAll [] hs) [textOf (← d.statements graph)]

/-- The text of the header that declares the entry point. -/
def header (d : Draft) (names : OutputNames) : Except Fault String := do
  let vars ← contextHeaderVariables (.text names.guard) (.text names.graph) (.list d.inputs)
  (Fragment.of .contextHeader vars).text

end Draft

/-- Adds a fragment to the entry point, which takes over its headers. -/
def addMember (d : Draft) (f : Fragment) : Emit Draft := do
  let e ← get
  let hs ← Emit.lift (f.headers e.sets)
  set { e with sets := e.sets.addAll (.builtIn .context) hs }
  return { d with members := d.members ++ [f] }

/-- The comment behind an operation. -/
def operationComment (i : Nat) (name : String) : Fragment :=
  .of .comment [("comments", .list
    [.text ("<<< Operation id " ++ toString i ++ ": " ++ name),
     .text (">>> Operation id " ++ toString (i + 1) ++ ": " ++ name)])]

/-- The type of operations that stand for the inputs of a graph. -/
def inputType : String := "Placeholder"

/-- Adds an operation to the entry point. -/
def addOperation (target : Target) (d : Draft) (op : Operation) : Emit Draft :=
  if op.type = inputType then do
    let out ← Emit.lift (op.output 0)
    let count ← Emit.lift op.useCount
    return d.addInput out.name count
  else do
    let f ← emitOperation target op
    addMember d f

/-- Adds operations by name, which are numbered from `i` on. -/
def addOperations (target : Target) (comments : Bool) (g : Graph) :
    (i : Nat) → Draft → List String → Emit Draft
  | _, d, [] => return d
  | i, d, name :: rest => do
    let op ← Emit.lift (g.find name)
    let d ← addOperation target d op
    let d ← if comments then addMember d (operationComment i name) else pure d
    addOperations target comments g (i + 1) d rest

/-! ## Reading and transforming -/

/-- Whether nodes are those of a quantised graph. -/
def isQuantizedModel (nodes : List Node) : Bool :=
  nodes.any fun n => (OperatorKind.ofType? n.type).any OperatorKind.isQuantized

/-- Reads a graph file. -/
def loadModel (path : String) : Job (List Node) := do
  match ← Job.read path with
  | .model nodes => return nodes
  | .savedModel nodes => return nodes
  | _ => throw .unfit

/-- Runs a step on a workspace and notes the graphs it hands over. -/
def onWorkspace (w : Workspace) (step : Workspace → Workspace × Except Fault GraphId) :
    Emit (Workspace × GraphId) := do
  let (w', r) := step w
  modify fun e => { e with handovers := e.handovers ++ w'.handovers.drop w.handovers.length }
  return (w', ← Emit.lift r)

/-- Reads the graph of a request and runs its passes. It gives the graph and the names of the
passes. -/
def transformedGraph [Importer] (quantizer : Quantizer) (r : Request) (model : String) :
    Emit (Graph × List String) := do
  let nodes ← Emit.onSite (loadModel model)
  if isQuantizedModel nodes then
    Emit.onSite (Job.warn ("Expecting non-quantized graph, " ++
      "graph transformation/optimization might not work properly"))
  let (w, id) ← onWorkspace Workspace.empty fun w => w.ofNodes nodes r.outputs
  Emit.onSite (Job.info ("Transforming graph: " ++ model))
  let methods ← Emit.lift r.methodNames
  Emit.onSite (Job.info ("Transform pipeline: " ++ " -> ".intercalate methods))
  let pipeline ← Emit.lift (Pipeline.ofMethods r.methods r.options)
  let (w, id) ← onWorkspace w fun w => w.run quantizer id pipeline
  Emit.onSite (Job.info "Graph transormation done")
  return (w.graph id, methods)

/-! ## Writing -/

/-- Writes a text below the banner. If there is no text, the banner is written all the same. -/
def writeText (path : String) (text : Except Fault String) : Job Unit := do
  Job.write path (.text banner)
  match text with
  | .ok s => Job.write path (.text (banner ++ s))
  | .error f => throw f

/-- Saves the graph after all passes. -/
def saveSnapshot (graph : String) : Job Unit := do
  let path := "quant_" ++ graph ++ ".pkl"
  Job.info "Saving transformed graph"
  Job.write path .snapshot
  Job.info (path ++ " saved")

/-- A header's own name between quotes. -/
def includedName (path : String) : String := "\"" ++ Path.base path ++ "\""

/-- Writes the header of inlined constants, or takes it from the headers of the entry point. -/
def writeWeights (inlined : Bool) (names : OutputNames) : Emit Unit := do
  let e ← get
  if inlined then
    Emit.onSite do
      Job.info ("Generate weight file: " ++ names.weightHeader)
      writeText names.weightHeader (weightsText e.weights)
  else
    set { e with sets := e.sets.drop (.builtIn .context) (includedName names.weightHeader) }

/-- Writes the header and the source file. -/
def writeProgram (names : OutputNames) (d : Draft) : Emit Unit := do
  let e ← get
  Emit.onSite do
    Job.info ("Generate header file: " ++ names.header)
    writeText names.header (d.header names)
    Job.info ("Generate source file: " ++ names.source)
    writeText names.source (d.source names.graph (e.sets.of (.builtIn .context)))

/-! ## A run -/

/-- Generates from a graph file. -/
def generateFromModel [Importer] (quantizer : Quantizer) (r : Request)
    (dataDir embedDir model source : String) :
    Emit Unit := do
  let names := OutputNames.of model source
  modify fun e => { e with
    weights := []
    sets := e.sets.addAll (.builtIn .context)
      [includedName names.header, includedName names.weightHeader] }
  let (g, methods) ← transformedGraph quantizer r model
  if r.saveGraph then Emit.onSite (saveSnapshot names.graph)
  let target : Target := ⟨some (.text dataDir), some (.text embedDir), true⟩
  let d ← addOperations target r.comments g 0 .empty g.order
  writeWeights (methods.contains Pass.inline.method) names
  writeProgram names d

/-- Generates a program. -/
def generate [Importer] (quantizer : Quantizer) (r : Request) (source : Value) : Emit Unit := do
  Emit.lift r.checkOptions
  let dataDir ← Emit.lift r.dataDir.asText
  Emit.onSite (Job.ensureDirs dataDir)
  let embedDir ← Emit.lift r.embedPath
  let model ← Emit.lift r.modelPath
  let source ← Emit.lift source.asText
  generateFromModel quantizer r dataDir embedDir model source

end TensorEmit
