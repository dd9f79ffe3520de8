import TensorEmit.Disk.Save

/-!
# Handing over to the training system

Graphs come out of a training system and go back to it as event files. What that system does is not
part of this library; here is what it is asked, in order, and what is made of its answers.
-/

namespace TensorEmit

/-- A call to the training system. What is only handed on may be a value of any kind. -/
inductive TrainingCall where
  /-- Reads a graph with its variables; the devices may be dropped. -/
  | importGraph (path : Value) (clearDevices : Bool)
  /-- Reads the values of variables. -/
  | restore (checkpoint : Value)
  /-- Drops what only training needs. -/
  | dropTraining (nodes : List String)
  /-- Turns variables into constants. -/
  | freeze (nodes : List String) (outputs : Value)
  /-- Ends the session. -/
  | endSession
  /-- Opens an event file for a graph. -/
  | openEvents (dir : Value) (nodes : List String)
  /-- Closes the event file. -/
  | closeEvents

/-- What the training system gives back: the graph that was read, the one without training nodes,
and the frozen one. -/
structure TrainingAnswers where
  imported : List Node
  cleaned : List Node
  frozen : List Node

/-- The checkpoint of a graph with variables: the given one, or the one that belongs to its path. -/
def checkpointOf (path : Value) : (given : Value) → Except Fault Value
  | .none =>
    match path with
    | .text s => .ok (.text (Text.replaceAll ".meta" "" s))
    | .bytes _ => .error .unfit
    | _ => .error .noPart
  | given => .ok given

/-- Reads a graph with variables and freezes it: the calls, and the frozen graph. -/
def freezeTrained (path outputs checkpoint : Value) (answers : TrainingAnswers) :
    List TrainingCall × Except Fault (List Node) :=
  match checkpointOf path checkpoint with
  | .error f => ([.importGraph path true], .error f)
  | .ok checkpoint =>
    ([.importGraph path true,
      .restore checkpoint,
      .dropTraining (answers.imported.map Node.name),
      .freeze (answers.cleaned.map Node.name) outputs,
      .endSession],
     .ok answers.frozen)

/-- Writes a graph as an event file. Its nodes have to make up a graph. -/
def writeEvents [Importer] (nodes : List Node) (dir : Value) :
    List TrainingCall × Except Fault Unit :=
  match Importer.accept nodes with
  | .error f => ([], .error f)
  | .ok _ => ([.openEvents dir (nodes.map Node.name), .closeEvents], .ok ())

end TensorEmit
