import TensorEmit.Disk.Path
import TensorEmit.Entries
import TensorEmit.Graph.Wire

/-!
# The disk

Files and directories below the working directory. A directory has to be there before a file can be
put into it.
-/

namespace TensorEmit

/-- What a file holds. -/
inductive Content where
  | text (s : String)
  | bytes (bs : List UInt8)
  /-- A graph file that was there before. -/
  | model (nodes : List Node)
  /-- A graph file that was written. -/
  | savedModel (nodes : List Node)
  /-- A graph after all passes. -/
  | snapshot

/-- A place on the disk, by the names on the way to it from the working directory, or from the root
if the first of them is a slash. -/
abbrev Place := List String

/-- The place above a place. There is always one, but that of the root is the root. -/
def Place.parent (p : Place) : Place :=
  if p = ["/"] then p
  else if p.all (· = "..") then p ++ [".."]
  else p.dropLast

/-- The place one step on: a point stays, two points go back, and a name goes on. -/
def Place.step (p : Place) (name : String) : Place :=
  if name = "." then p else if name = ".." then p.parent else p ++ [name]

/-- The place at which the way of a path starts. -/
def Place.start (path : String) : Place := if Path.isRooted path then ["/"] else []

/-- The directories and files of a disk. -/
structure Disk where
  dirs : List Place
  files : Entries Place Content

namespace Disk

/-- A disk with nothing on it. -/
def empty : Disk := ⟨[], []⟩

/-! ## Ways -/

/-- Whether a place is a directory. The working directory is one, and so is all above it. -/
def isDir (d : Disk) (p : Place) : Bool :=
  p = ["/"] || p.all (· = "..") || p ∈ d.dirs

/-- Whether a place is a file. -/
def isFile (d : Disk) (p : Place) : Bool := d.files.has p

/-- Only a directory leads on. -/
def checkDir (d : Disk) (path : String) (p : Place) : Except Fault Unit :=
  if d.isDir p then .ok ()
  else if d.isFile p then .error (.notADirectory path)
  else .error .fileNotFound

/-- Goes some steps from a place on; where the last one leads, there may be nothing. -/
def walk (d : Disk) (path : String) : Place → List String → Except Fault Place
  | p, [] => .ok p
  | p, name :: rest => do
    d.checkDir path p
    d.walk path (p.step name) rest

/-- The place of a path. -/
def placeOf (d : Disk) (path : String) : Except Fault Place :=
  if path = "" then .error .fileNotFound
  else d.walk path (Place.start path) (Path.steps path)

/-- Whether a path leads to something. -/
def leads (d : Disk) (path : String) : Bool :=
  match d.placeOf path with
  | .ok p => d.isDir p || (d.isFile p && !Path.endsInSlash path)
  | .error _ => false

/-! ## Files -/

/-- Writes a file. -/
def write (d : Disk) (path : String) (c : Content) : Except Fault Disk := do
  let p ← d.placeOf path
  if d.isDir p || Path.endsInSlash path then throw .fileIsDirectory
  return { d with files := d.files.set p c }

/-- Reads a file. -/
def read (d : Disk) (path : String) : Except Fault Content := do
  let p ← d.placeOf path
  if d.isDir p then throw .fileIsDirectory
  match d.files.get? p with
  | some c => if Path.endsInSlash path then throw (.notADirectory path) else return c
  | none => throw .fileNotFound

/-! ## Directories -/

/-- Makes a directory below one that is there. -/
def makeDir (d : Disk) (path : String) : Except Fault Disk := do
  let p ← d.placeOf path
  if d.isDir p || d.isFile p then throw .fileExists
  return { d with dirs := d.dirs ++ [p] }

/-- The disk after a step, and what went wrong; a step that fails changes nothing. -/
def after (d : Disk) : Except Fault Disk → Disk × Except Fault Unit
  | .ok d' => (d', .ok ())
  | .error f => (d, .error f)

/-- Makes the first directory of a chain after those above it that are missing. That one of those
turns out to be there is no fault, and a point at the end asks for no directory of its own. -/
def makeChain (d : Disk) : List (String × String) → Disk × Except Fault Unit
  | [] => (d, .ok ())
  | [(path, _)] => d.after (d.makeDir path)
  | (path, last) :: (above, aboveLast) :: outer =>
    if d.leads above then d.after (d.makeDir path)
    else
      match d.makeChain ((above, aboveLast) :: outer) with
      | (d', .ok _) | (d', .error .fileExists) =>
        if last = "." then (d', .ok ()) else d'.after (d'.makeDir path)
      | (d', .error f) => (d', .error f)

/-- Makes a directory and all that are missing above it. -/
def makeDirs (d : Disk) (path : String) : Disk × Except Fault Unit :=
  d.makeChain (Path.outwards path)

/-- Makes a directory unless the path leads to something already. -/
def ensureDirs (d : Disk) (path : String) : Disk × Except Fault Unit :=
  if d.leads path then (d, .ok ()) else d.makeDirs path

end Disk

end TensorEmit
