import TensorEmit.Command.Arguments
import TensorEmit.Command.Listing
import TensorEmit.Generate

/-!
# Commands

The two commands of the program: one generates a program from a graph file, the other lists a graph
file. Arguments are checked in a fixed order: their form, then the options that were given, then the
positional argument, then the options that have to be given, and last that nothing is left over.
-/

namespace TensorEmit.Command

/-! ## What the commands are asked -/

/-- What is asked of a conversion. All but the directory for source files and the lists of names can
be left open. -/
structure Conversion where
  model : Value
  output : Value
  dataDir : Value
  embedDir : Value
  modelDir : Value
  methods : Value
  outputs : Value
  saveGraph : Bool
  comments : Bool

/-- What is asked of a listing. -/
structure ListingRequest where
  path : String
  oneline : Bool

/-- The passes that run unless others are asked for. -/
def defaultMethods : String := "dropout,quantize,refcnt,inline"

/-- The directory for source files unless another is asked for. -/
def defaultModelDir : String := "models"

/-- The name of the model in a graph file. -/
def modelName (path : String) : String := Path.base (Path.withoutExtension path)

/-- A value, or another one where it is left open. -/
def orElse (v : Value) (other : Except Fault Value) : Except Fault Value :=
  match v with
  | .none => other
  | v => .ok v

/-- The path of the source file and the request, with values for all that was left open. -/
def Conversion.request (c : Conversion) : Except Fault (Request × Value) := do
  let dataDir ← orElse c.dataDir do
    return .text (Path.join "constants" (modelName (← c.model.asText)))
  let output ← orElse c.output do return .text (modelName (← c.model.asText) ++ ".cpp")
  let source := Path.join (← c.modelDir.asText) (← output.asText)
  let embedDir ← orElse c.embedDir do return .text (Path.join boardRoot (← dataDir.asText))
  return (⟨c.model, dataDir, embedDir, c.methods, c.outputs, c.saveGraph, c.comments, []⟩,
    .text source)

/-- Generates a program. -/
def convert [Importer] (quantizer : Quantizer) (c : Conversion) : Emit Unit := do
  match c.model with
  | .none => throw .noModelFile
  | _ =>
    let dir ← Emit.lift c.modelDir.asText
    Emit.onSite (Job.ensureDirs dir)
    let (r, source) ← Emit.lift c.request
    generate quantizer r source

/-! ## Requests from named values -/

/-- A switch. -/
def switch (v : Value) : Except Fault Bool :=
  match v.truth? with
  | some b => .ok b
  | none => .error .noTruth

/-- The names of the values that a conversion takes. -/
def conversionNames : List String :=
  ["pb_file", "output", "data_dir", "embed_data_dir", "save_graph", "debug_comment", "output_nodes",
   "transform_methods", "model_dir"]

/-- A named value that has to be there. -/
def namedValue (es : Entries String Value) (name : String) : Except Fault Value :=
  match es.get? name with
  | some v => .ok v
  | none => .error .unfit

/-- A conversion from named values, each of which has to be given. -/
def Conversion.ofEntries (es : Entries String Value) : Except Fault Conversion := do
  if es.any fun e => !conversionNames.contains e.1 then throw .unfit
  return {
    model := ← namedValue es "pb_file"
    output := ← namedValue es "output"
    dataDir := ← namedValue es "data_dir"
    embedDir := ← namedValue es "embed_data_dir"
    modelDir := ← namedValue es "model_dir"
    methods := ← namedValue es "transform_methods"
    outputs := ← namedValue es "output_nodes"
    saveGraph := ← namedValue es "save_graph" >>= switch
    comments := ← namedValue es "debug_comment" >>= switch }

/-- A listing from named values, of which one may be left out. -/
def ListingRequest.ofEntries (es : Entries String Value) : Except Fault ListingRequest := do
  if es.any fun e => e.1 ≠ "pb_file" && e.1 ≠ "oneline" then throw .unfit
  return {
    path := ← namedValue es "pb_file" >>= Value.asText
    oneline := ← switch ((es.get? "oneline").getD (.bool false)) }

/-! ## Requests from arguments -/

/-- Why arguments are refused. -/
inductive Refusal where
  | usage (f : UsageFault)
  | fault (f : Fault)

/-- The name of the positional argument. -/
def modelArgument : String := "MODEL.pb"

/-- The options of a conversion. -/
inductive ConvertOption where
  | output | dataDir | embedDir | comments | outputs | methods | modelDir | saveGraph | help
  deriving DecidableEq, Repr

/-- The names of the options of a conversion. -/
def convertOptions : List (OptionSpec ConvertOption) :=
  [⟨.output, ["-o", "--output"], true⟩, ⟨.dataDir, ["-d", "--data-dir"], true⟩,
   ⟨.embedDir, ["-D", "--embed-data-dir"], true⟩, ⟨.comments, ["--debug-comment"], false⟩,
   ⟨.outputs, ["--output-nodes"], true⟩, ⟨.methods, ["--transform-methods"], true⟩,
   ⟨.modelDir, ["-m", "--model-dir"], true⟩, ⟨.saveGraph, ["--save-graph"], false⟩,
   ⟨.help, ["-h", "--help"], false⟩]

/-- The options of a listing. -/
inductive ListOption where
  | oneline | help
  deriving DecidableEq, Repr

/-- The names of the options of a listing. -/
def listOptions : List (OptionSpec ListOption) :=
  [⟨.oneline, ["--oneline"], false⟩, ⟨.help, ["-h", "--help"], false⟩]

/-- Reads a list option. -/
def readList (default? : Option String) (s : String) : Except Refusal (List String) :=
  match readListArgument "," default? (.text s) with
  | .ok names => .ok names
  | .error f => .error (.fault f)

/-- Checks that an option that was given can be read. -/
def checkOption (g : Given ConvertOption) (key : ConvertOption) : Except Refusal Unit :=
  match key, g.value? key with
  | .outputs, some s => (readList none s).map fun _ => ()
  | .methods, some s => (readList (some defaultMethods) s).map fun _ => ()
  | _, _ => .ok ()

/-- The one positional argument. -/
def positional (args : List String) : Except Refusal String :=
  match args with
  | a :: _ => .ok a
  | [] => .error (.usage (.missingArgument modelArgument))

/-- Checks that no positional argument is left over. -/
def checkNoneLeft (args : List String) : Except Refusal Unit :=
  match args with
  | _ :: a :: rest => .error (.usage (.extraArguments (a :: rest)))
  | _ => .ok ()

/-- The value of an option, which may be left open. -/
def optionValue (g : Given ConvertOption) (key : ConvertOption) : Value :=
  match g.value? key with
  | some s => .text s
  | none => .none

/-- A list of names as a value. -/
def nameList (names : List String) : Value := .list (names.map Value.text)

/-- The conversion that arguments ask for. -/
def Conversion.ofGiven (g : Given ConvertOption) : Except Refusal Conversion := do
  g.options.forM fun e => checkOption g e.1
  let model ← positional g.positional
  match g.value? .outputs with
  | none => throw (.usage (.missingOption "--output-nodes"))
  | some outputs =>
    let outputs ← readList none outputs
    let methods ← readList (some defaultMethods) ((g.value? .methods).getD defaultMethods)
    checkNoneLeft g.positional
    return {
      model := .text model
      output := optionValue g .output
      dataDir := optionValue g .dataDir
      embedDir := optionValue g .embedDir
      modelDir := .text ((g.value? .modelDir).getD defaultModelDir)
      methods := nameList methods
      outputs := nameList outputs
      saveGraph := g.has .saveGraph
      comments := g.has .comments }

/-- The listing that arguments ask for. -/
def ListingRequest.ofGiven (g : Given ListOption) : Except Refusal ListingRequest := do
  let path ← positional g.positional
  checkNoneLeft g.positional
  return ⟨path, g.has .oneline⟩

/-! ## The command line -/

/-- How a command line ended: the text it showed, with highlights, the fault that ended it, and the
exit code. -/
structure Outcome where
  output : String
  fault : Option Fault
  exitCode : Nat

/-- A command line that succeeded. -/
def Outcome.success (output : String) : Outcome := ⟨output, none, 0⟩

/-- The end of a command with the text it showed. -/
def Outcome.ofResult {α : Type} (output : String) : Except Fault α → Outcome
  | .ok _ => .success output
  | .error f => ⟨output, some f, 1⟩

/-- The name of the program. -/
def programName : String := "utensor-cli"

/-- The line that shows how the program is used. -/
def programUsage : String := "Usage: " ++ programName ++ " [OPTIONS] COMMAND [ARGS]...\n"

/-- The line that shows how a command is used. -/
def commandUsage (name : String) : String :=
  "Usage: " ++ programName ++ " " ++ name ++ " [OPTIONS] " ++ modelArgument ++ "\n"

/-- The end of a command line that cannot be understood. -/
def Outcome.misused (usage : String) (f : UsageFault) : Outcome :=
  ⟨usage ++ "\nError: " ++ f.message ++ "\n", none, 2⟩

/-- The end of a command line whose arguments are refused. -/
def Outcome.refused (usage : String) : Refusal → Outcome
  | .usage f => .misused usage f
  | .fault f => ⟨"", some f, 1⟩

/-- The command that converts. -/
def runConvert [Importer] (quantizer : Quantizer) (args : List String) (e : Emission) :
    Emission × Outcome :=
  let usage := commandUsage "convert"
  match readAll convertOptions true .none args with
  | .error f => (e, .misused usage f)
  | .ok g =>
    if g.has .help then (e, .success usage)
    else
      match Conversion.ofGiven g with
      | .error r => (e, .refused usage r)
      | .ok c =>
        let (e', r) := (convert quantizer c).runOn e
        (e', .ofResult "" r)

/-- The command that lists. -/
def runList [Importer] (args : List String) (d : Disk) : Outcome :=
  let usage := commandUsage "show"
  match readAll listOptions true .none args with
  | .error f => .misused usage f
  | .ok g =>
    if g.has .help then .success usage
    else
      match ListingRequest.ofGiven g with
      | .error r => .refused usage r
      | .ok l =>
        let (output, r) := list d l.path l.oneline
        .ofResult output r

/-- Whether a word starts with a mark, so that it looks more like an option than a command. -/
def startsWithMark (word : String) : Bool :=
  match word.toList with
  | c :: _ => c = '_' || !Text.isWordChar c
  | [] => false

/-- Runs a command by its name. -/
def runCommand [Importer] (quantizer : Quantizer) (name : String) (args : List String)
    (e : Emission) :
    Emission × Outcome :=
  if name = "convert" then runConvert quantizer args e
  else if name = "show" then (e, runList args e.site.disk)
  else if startsWithMark name then (e, .success programUsage)
  else (e, .misused programUsage (.noCommand name))

/-- The options of the program itself. -/
inductive ProgramOption where
  | help | version
  deriving DecidableEq, Repr

/-- The names of the options of the program itself. -/
def programOptions : List (OptionSpec ProgramOption) :=
  [⟨.help, ["-h", "--help"], false⟩, ⟨.version, ["-V", "--version"], false⟩]

/-- The version of the program. -/
def programVersion : String := "0.3.1.dev2+bf3eee1"

/-- What an option of the program itself shows. -/
def ProgramOption.text : ProgramOption → String
  | help => programUsage
  | version => programName ++ ", version " ++ programVersion ++ "\n"

/-- Runs a command line. The first option of the program itself is all that counts. -/
def run [Importer] (quantizer : Quantizer) (args : List String) (e : Emission) :
    Emission × Outcome :=
  if args.isEmpty then (e, .success programUsage)
  else
    match readAll programOptions false .none args with
    | .error f => (e, .misused programUsage f)
    | .ok g =>
      match g.options, g.positional with
      | (option, _) :: _, _ => (e, .success option.text)
      | [], [] => (e, .misused programUsage .missingCommand)
      | [], name :: rest => runCommand quantizer name rest e

end TensorEmit.Command
