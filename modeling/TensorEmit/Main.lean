import TensorEmit.Command.Run

/-!
# The program

Runs a command line and puts what it left on its disk into the working directory. Graph files are
decoded by the system that writes them, so the program starts with a disk that holds none; a caller
that has decoded a graph puts it on the disk and calls `Command.run`.
-/

namespace TensorEmit

/-- The text of a place. -/
def placeText (p : Place) : String := "/".intercalate p

/-- Writes the content of a file. -/
def storeContent (path : String) : Content → IO Unit
  | .text s => IO.FS.writeFile path s
  | .bytes bs => IO.FS.writeBinFile path ⟨bs.toArray⟩
  | .model _ => pure ()
  | .savedModel _ => pure ()
  | .snapshot => pure ()

/-- Puts directories and files into the working directory. -/
def storeDisk (d : Disk) : IO Unit := do
  for p in d.dirs do
    IO.FS.createDirAll (placeText p)
  for f in d.files do
    storeContent (placeText f.1) f.2

/-- Shows the log and what the command line showed. -/
def report (log : List LogLine) (o : Command.Outcome) : IO Unit := do
  for l in log do
    IO.eprintln (l.level.name ++ ": " ++ l.text)
  IO.print (Command.withoutHighlights o.output)
  match o.fault.bind Fault.message? with
  | some m => IO.eprintln m
  | none => pure ()

end TensorEmit

/-- Runs the command line. -/
def main (args : List String) : IO UInt32 := do
  let quantizer : TensorEmit.Quantizer := fun _ => .error .transformUnavailable
  let _ := TensorEmit.Importer.byName
  let (e, o) := TensorEmit.Command.run quantizer args (.start TensorEmit.Site.empty)
  TensorEmit.storeDisk e.site.disk
  TensorEmit.report e.site.log o
  return o.exitCode.toUInt32
