import TensorEmit.Disk.Site

/-!
# Saving arrays, constants and graphs
-/

namespace TensorEmit

/-- An array as a file can hold it: whole numbers of 64 bits are cut to 32. -/
def narrowed (a : NumArray) : NumArray := if a.type = .int64 then a.cast .int32 else a

/-- Saves an array in a file and makes the directory for it. -/
def saveArray (a : NumArray) (path : Value) : Job Unit := do
  let a := a.atLeastOneDimension
  if a.type = .int64 then
    Job.warn ("unsupported int format for idx detected: " ++ a.type.text ++
      ", using int32 instead")
  let path ← Job.lift path.asText
  let dir := Path.parent path
  if dir ≠ "" then Job.ensureDirs dir
  Job.writeArray path (narrowed a)
  Job.info (path ++ " saved")

/-- The array of a constant node. -/
def Node.constant (n : Node) : Except Fault NumArray :=
  match n.attrs.get? "value" with
  | none => .error (.missing "value")
  | some (.wireAttr (some "tensor") (.wireTensor (.array a))) => .ok a
  | some _ => .error .noPart

/-- The name of the file of an output of a constant node. -/
def Node.constantFile (n : Node) (i : Nat) : String :=
  flatName (n.name ++ ":" ++ toString i) ++ ".idx"

/-- Saves the outputs of a constant node, given by their places, in a directory. -/
def saveOutputs (n : Node) (dir : String) : List Nat → Job Unit
  | [] => return
  | i :: rest => do
    let a ← Job.lift n.constant
    saveArray a (.text (Path.join dir (n.constantFile i)))
    saveOutputs n dir rest

/-- Saves the constants among some nodes. Of nodes with one name the last of all counts. -/
def saveConstantNodes (all : List Node) (dir : String) : List Node → Job Unit
  | [] => return
  | n :: rest => do
    if n.type = "Const" then
      let found := (Node.find? all n.name).getD n
      saveOutputs found dir (List.range found.outputs.length)
    saveConstantNodes all dir rest

/-- Saves the constants of a graph file in a directory. -/
def saveConstants (nodes : List Node) (dir : Value) : Job Unit := do
  let dir := Path.expandHome (← Job.lift dir.asText)
  Job.ensureDirs dir
  saveConstantNodes nodes dir nodes

/-- Saves a graph file, of which the name and the directory are given or left open. -/
def saveModel (nodes : List Node) (given : Entries String Value) : Job Unit := do
  if given.any fun e => e.1 ≠ "graph_name" && e.1 ≠ "out_dir" then throw .unfit
  let name := (given.get? "graph_name").getD (.text "graph")
  let dir ← Job.lift ((given.get? "out_dir").getD (.text ".")).asText
  let path := Path.join (Path.expandHome dir) (name.formatted ++ ".pb")
  Job.write path (.savedModel nodes)
  Job.info (path ++ " saved")

end TensorEmit
