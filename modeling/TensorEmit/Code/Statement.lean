import TensorEmit.Text.Search

/-!
# Statements of emitted code

The body of the emitted function is a list of statements: it registers tensors in the context,
pushes operators that read and write registered tensors, fetches handles and asks for evaluation.
A statement carries the names it uses and the layout in which it is written; `Statement.text` writes
it. Which tensors a body registers and which it uses can be read off the list.
-/

namespace TensorEmit.Code

/-- The entry point of the emitted code: the name of the graph and the number of its inputs. -/
structure EntryPoint where
  graph : String
  inputs : Nat
  deriving DecidableEq, Repr

/-- What is registered as a tensor. -/
inductive TensorSource where
  /-- A new object of a class over an element type. -/
  | made (className type : String) (arguments : List String)
  /-- What an importer reads from a file. -/
  | loaded (importer path : String)
  /-- An object that the code has already given a name. -/
  | named (identifier : String)
  deriving DecidableEq, Repr

/-- The layout of a registration: on one line, or spread over lines that end with `tail`. -/
inductive RegisterLayout where
  | oneLine
  | spread (tail : String)
  deriving DecidableEq, Repr

/-- The blanks in a list of names: before each name but the last, and before the last. -/
structure ListLayout where
  eachGap : String
  lastGap : String
  deriving DecidableEq, Repr

/-- The layout of a computation. -/
structure ComputeLayout where
  /-- What ends the line of the operator. -/
  headTail : String
  indent : Nat
  inputs : ListLayout
  /-- What ends the line of the inputs. -/
  inputsTail : String
  outputs : ListLayout
  deriving DecidableEq, Repr

/-- A statement of emitted code. -/
inductive Statement where
  /-- Declares handles on tensors; `listed` leaves a blank before the last. -/
  | declareHandles (names : List String) (listed : Bool)
  | openBlock (trail : String)
  | closeBlock
  | line (text : String)
  | raw (text : String)
  /-- Registers a tensor under a name, with the number of its uses if that is given. -/
  | register (source : TensorSource) (name : String) (count : Option String)
      (layout : RegisterLayout)
  /-- Pushes an operator that reads and writes registered tensors. -/
  | compute (operator : String) (inputs outputs : List String) (layout : ComputeLayout)
  | fetch (handle name : String)
  | evaluate
  | declareEntry (e : EntryPoint)
  | defineEntry (e : EntryPoint)
  /-- Defines an array with its initial elements. -/
  | defineArray (type name length : String) (elements : List String)
  deriving DecidableEq, Repr

/-! ## Writing -/

/-- The parameter list of an entry point. -/
def EntryPoint.parameters (e : EntryPoint) : String :=
  let inputs := (List.range e.inputs).map fun i => "Tensor* input_" ++ toString i
  if e.inputs = 0 then "Context& ctx" else "Context& ctx, " ++ ",".intercalate inputs

/-- The entry point as a function head. -/
def EntryPoint.head (e : EntryPoint) : String :=
  "void get_" ++ e.graph ++ "_ctx(" ++ e.parameters ++ ")"

/-- A list of names between braces; the last name is the one without a comma behind it. -/
def ListLayout.text (l : ListLayout) (names : List String) : String :=
  let front := names.dropLast.map fun n => l.eachGap ++ "\"" ++ n ++ "\", "
  "\x7b " ++ String.join front ++ l.lastGap ++ "\"" ++ names.getLastD "" ++ "\" \x7d"

/-- The indentation inside a block. -/
def blockIndent : String := "    "

/-- The text of what is registered. -/
def TensorSource.text : TensorSource → String
  | made className type arguments =>
    "new " ++ className ++ "<" ++ type ++ ">(" ++ ", ".intercalate arguments ++ ")"
  | loaded importer path => "t_import." ++ importer ++ "_import(\"" ++ path ++ "\")"
  | named identifier => identifier

/-- The text of a statement. -/
def Statement.text : Statement → String
  | declareHandles names listed =>
    let front := names.dropLast.map fun n => n ++ ", "
    "S_TENSOR " ++ String.join front ++ (if listed then " " else "") ++ names.getLastD "" ++ ";\n"
  | openBlock trail => "\x7b" ++ trail ++ "\n"
  | closeBlock => "\x7d"
  | line t => t ++ "\n"
  | raw t => t
  | register source name count .oneLine =>
    let uses := match count with
      | some c => ", " ++ c
      | none => ""
    blockIndent ++ "ctx.add(" ++ source.text ++ ", \"" ++ name ++ "\"" ++ uses ++ ");\n"
  | register source name count (.spread tail) =>
    let gap := "," ++ tail ++ "\n" ++ Text.blanks 12
    let uses := match count with
      | some c => gap ++ c
      | none => ""
    blockIndent ++ "ctx.add(" ++ source.text ++ gap ++ "\"" ++ name ++ "\"" ++ uses ++ ");\n"
  | compute operator inputs outputs l =>
    blockIndent ++ "ctx.push(new " ++ operator ++ l.headTail ++ "\n" ++
      Text.blanks l.indent ++ l.inputs.text inputs ++ l.inputsTail ++ "\n" ++
      Text.blanks l.indent ++ l.outputs.text outputs ++ ");\n"
  | fetch handle name => blockIndent ++ handle ++ " = ctx.get(\"" ++ name ++ "\");\n"
  | evaluate => blockIndent ++ "ctx.eval();\n"
  | declareEntry e => e.head ++ ";\n"
  | defineEntry e => e.head ++ " \x7b\n"
  | defineArray type name length elements =>
    "const " ++ type ++ " " ++ name ++ " [ " ++ length ++ " ] = \x7b " ++
      String.join (elements.map fun x => " " ++ x ++ ", ") ++ " \x7d;"

/-- The text of a list of statements. -/
def textOf (ss : List Statement) : String := String.join (ss.map Statement.text)

end TensorEmit.Code
