/-!
# Splitting, replacing and searching

Operations on the characters of a text: splitting at a separator, replacing a piece everywhere,
and the parts of a text before and after a mark.
-/

namespace TensorEmit.Text

/-- Whether the text starts with the given piece. -/
def startsWith (piece s : String) : Bool := piece.toList.isPrefixOf s.toList

/--
Splits at every occurrence of the separator `sep`, from the left. `part` holds the characters since
the last separator in reverse, and `skip` counts the characters of a separator still to be passed.
-/
def splitChars (sep : List Char) : (cs part : List Char) → (skip : Nat) → List (List Char)
  | [], part, _ => [part.reverse]
  | c :: cs, part, 0 =>
    if sep.isPrefixOf (c :: cs) then part.reverse :: splitChars sep cs [] (sep.length - 1)
    else splitChars sep cs (c :: part) 0
  | _ :: cs, part, skip + 1 => splitChars sep cs part skip

/-- The parts of a text between the occurrences of a separator that is not empty. -/
def splitAt (sep s : String) : List String :=
  (splitChars sep.toList s.toList [] 0).map String.ofList

/-- Replaces every occurrence of a piece that is not empty, from the left. -/
def replaceAll (piece substitute s : String) : String :=
  substitute.intercalate (splitAt piece s)

/-- Replaces one character by another. -/
def replaceChar (c d : Char) (s : String) : String :=
  String.ofList (s.toList.map fun x => if x = c then d else x)

/-- The text before the first occurrence of `c`, or all of it. -/
def before (c : Char) (s : String) : String :=
  String.ofList (s.toList.takeWhile (· ≠ c))

/-- A text without the repetitions of `c` at its end. -/
def trimRight (c : Char) (s : String) : String :=
  String.ofList (s.toList.reverse.dropWhile (· = c)).reverse

/-- Blanks. -/
def blanks (n : Nat) : String := String.ofList (List.replicate n ' ')

end TensorEmit.Text
