import TensorEmit.Disk.Basic
import TensorEmit.Disk.Idx

/-!
# Working on the disk

A job works on the disk and writes lines to a log. When it fails, what it did before stays done.
-/

namespace TensorEmit

/-- How much a log line matters. -/
inductive LogLevel where
  | info
  | warning
  deriving DecidableEq, Repr

/-- The name of a log level. -/
def LogLevel.name : LogLevel → String
  | info => "INFO"
  | warning => "WARNING"

/-- A line of the log. -/
structure LogLine where
  level : LogLevel
  text : String
  deriving DecidableEq, Repr

/-- The disk and the log. -/
structure Site where
  disk : Disk
  log : List LogLine

/-- Something that works on the disk and can fail. -/
abbrev Job := ExceptT Fault (StateM Site)

namespace Site

/-- A site with nothing on it. -/
def empty : Site := ⟨Disk.empty, []⟩

/-- The site with a line added to its log. -/
def logged (s : Site) (level : LogLevel) (text : String) : Site :=
  { s with log := s.log ++ [⟨level, text⟩] }

end Site

namespace Job

/-- Runs a job; what it did stays done if it fails. -/
def runOn {α : Type} (t : Job α) (s : Site) : Site × Except Fault α :=
  let (r, s') := t.run.run s
  (s', r)

/-- Writes an information to the log. -/
def info (text : String) : Job Unit := modify fun s => s.logged .info text

/-- Writes a warning to the log. -/
def warn (text : String) : Job Unit := modify fun s => s.logged .warning text

/-- A job that only computes. -/
def lift {α : Type} (r : Except Fault α) : Job α :=
  match r with
  | .ok a => pure a
  | .error f => throw f

/-- Changes the disk. -/
def onDisk (f : Disk → Disk × Except Fault Unit) : Job Unit := do
  let s ← get
  let (disk, r) := f s.disk
  set { s with disk }
  lift r

/-- Makes a directory and all that are missing above it. -/
def makeDirs (path : String) : Job Unit := onDisk fun d => d.makeDirs path

/-- Makes a directory, with all above it, unless there is something. -/
def ensureDirs (path : String) : Job Unit := onDisk fun d => d.ensureDirs path

/-- Writes a file. -/
def write (path : String) (c : Content) : Job Unit := onDisk fun d => d.after (d.write path c)

/-- Reads a file. -/
def read (path : String) : Job Content := do
  lift ((← get).disk.read path)

/-- Writes an array to a file; the file is there, but empty, if the array cannot be written. -/
def writeArray (path : String) (a : NumArray) : Job Unit := do
  write path (.bytes [])
  let f ← lift (ArrayFile.ofArray a)
  write path (.bytes f.bytes)

end Job

end TensorEmit
