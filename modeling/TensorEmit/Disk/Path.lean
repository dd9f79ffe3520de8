import TensorEmit.Text.Search

/-!
# Paths

Paths are texts with slashes between their parts. The operations here work on the text alone; what a
path leads to is a matter of the disk.
-/

namespace TensorEmit.Path

/-- The characters behind the last slash. -/
def baseChars (cs : List Char) : List Char := (cs.reverse.takeWhile (· ≠ '/')).reverse

/-- The last part of a path. -/
def base (path : String) : String := String.ofList (baseChars path.toList)

/-- The path before the last part, without the slashes at its end unless there is nothing else. -/
def parent (path : String) : String :=
  let head := path.toList.reverse.dropWhile (· ≠ '/')
  if head.all (· = '/') then String.ofList head
  else String.ofList (head.dropWhile (· = '/')).reverse

/-- Two paths one below the other; a path from the root stands for itself. -/
def join (dir path : String) : String :=
  if path.toList.head? = some '/' then path
  else if dir = "" || dir.toList.getLast? = some '/' then dir ++ path
  else dir ++ "/" ++ path

/-- The extension of the last part with its dot; dots at the start of the part do not count. -/
def extension (path : String) : String :=
  let part := baseChars path.toList
  let name := part.dropWhile (· = '.')
  if '.' ∈ name then "." ++ String.ofList (name.reverse.takeWhile (· ≠ '.')).reverse else ""

/-- The path without its extension. -/
def withoutExtension (path : String) : String :=
  String.ofList (path.toList.take (path.length - (extension path).length))

/-- The directory that a tilde stands for. -/
def home : String := "home"

/-- The path with a leading tilde, alone or before a slash, replaced. -/
def expandHome (path : String) : String :=
  match path.toList with
  | ['~'] => home
  | '~' :: '/' :: rest => home ++ "/" ++ String.ofList rest
  | _ => path

/-- A path without the slashes at its end. -/
def trimSlashes (path : String) : String := Text.trimRight '/' path

/-- The steps of the way that a path describes, from the root or from the working directory on. -/
def steps (path : String) : List String := (Text.splitAt "/" path).filter (· ≠ "")

/-- Whether a path starts at the root. -/
def isRooted (path : String) : Bool := path.toList.head? = some '/'

/-- Whether a path can only be that of a directory, by the slash at its end. -/
def endsInSlash (path : String) : Bool := path.toList.getLast? = some '/'

/-- The path above the last part, and that part; slashes at the end do not count. -/
def split (path : String) : String × String :=
  let trimmed := if base path = "" then parent path else path
  (parent trimmed, base trimmed)

/-- A path and the paths above it, outwards, each with its last part; at most `fuel` of them. -/
def chain : (fuel : Nat) → String → List (String × String)
  | 0, _ => []
  | fuel + 1, path =>
    let (above, last) := split path
    (path, last) :: if above = "" || last = "" then [] else chain fuel above

/-- A path and all paths above it, outwards, each with its last part. -/
def outwards (path : String) : List (String × String) := chain (path.length + 1) path

end TensorEmit.Path
