import TensorEmit.Code.Template
import TensorEmit.Text.Classes

/-!
# Headers

Emitted code starts with one line for every header that its fragments need. All fragments made from
one template share one set of headers, so a header that is added for one of them counts for all; a
container takes over the headers of its members. Lines for own headers come before lines for
standard ones, and each group is sorted.
-/

namespace TensorEmit.Code

/-! ## Standard headers -/

/-- Whether characters are one or more word characters. -/
def isWord (cs : List Char) : Bool := !cs.isEmpty && cs.all Text.isWordChar

/-- Whether characters name a standard header: a word, or a word, some character and an ending. -/
def isStandardName (cs : List Char) : Bool :=
  isWord cs ||
    match cs.reverse with
    | 'h' :: c :: rest => c ≠ '\n' && isWord rest.reverse
    | _ => false
  || match cs.reverse with
    | 'p' :: 'p' :: 'h' :: c :: rest => c ≠ '\n' && isWord rest.reverse
    | _ => false

/-- Whether a header is standard: a name in angle brackets, which one line break may follow. -/
def isStandard (header : String) : Bool :=
  let cs := match header.toList.reverse with
    | '\n' :: rest => rest
    | rest => rest
  match cs with
  | '>' :: rest =>
    match rest.reverse with
    | '<' :: name => isStandardName name
    | _ => false
  | _ => false

/-! ## Sets of headers -/

/-- Whose set of headers it is: that of a template, or that of a class made by the user. -/
inductive HeaderOwner where
  | builtIn (t : Template)
  | custom (id : Nat)
  deriving DecidableEq, Repr

/-- A set of headers without repetition. -/
abbrev Headers := List String

/-- Adds a header. -/
def Headers.add (hs : Headers) (h : String) : Headers := if h ∈ hs then hs else hs ++ [h]

/-- Adds headers. -/
def Headers.addAll (hs more : Headers) : Headers := more.foldl Headers.add hs

/-- Headers in order. -/
def Headers.sorted (hs : Headers) : Headers := hs.mergeSort fun a b => decide (a ≤ b)

/-- The headers that a template needs. -/
def Template.headers : Template → Headers
  | .loadTensor =>
    ["\"uTensor/loaders/tensorIdxImporter.hpp\"", "\"uTensor/core/context.hpp\"",
     "\"uTensor/core/tensor.hpp\""]
  | .binaryTensor | .newTensor | .contextHeader =>
    ["\"uTensor/core/context.hpp\"", "\"uTensor/core/tensor.hpp\""]
  | .add | .min | .max | .argMax | .quantizedAdd | .requantizeRange | .requantize =>
    ["\"uTensor/ops/MathOps.hpp\""]
  | .maxPool | .relu => ["\"uTensor/ops/NnOps.hpp\""]
  | .dequantize | .quantize | .reshape | .quantizedReshape => ["\"uTensor/ops/ArrayOps.hpp\""]
  | .matMul | .conv2d => ["\"uTensor/ops/MatrixOps.hpp\""]
  | .comment | .weight | .context | .weights => []

/-- The sets of headers that differ from the ones templates start with. -/
abbrev HeaderSets := Entries HeaderOwner Headers

/-- The headers that an owner starts with. -/
def HeaderOwner.initial : HeaderOwner → Headers
  | .builtIn t => t.headers
  | .custom _ => []

/-- The headers of an owner. -/
def HeaderSets.of (sets : HeaderSets) (o : HeaderOwner) : Headers :=
  (sets.get? o).getD o.initial

/-- Adds headers for an owner. -/
def HeaderSets.addAll (sets : HeaderSets) (o : HeaderOwner) (hs : Headers) : HeaderSets :=
  sets.set o ((sets.of o).addAll hs)

/-- Removes a header of an owner. -/
def HeaderSets.drop (sets : HeaderSets) (o : HeaderOwner) (h : String) : HeaderSets :=
  sets.set o ((sets.of o).filter fun x => x ≠ h)

/-! ## Composing -/

/-- Headers in the order of their lines. -/
def includeOrder (hs : Headers) : Headers :=
  Headers.sorted (hs.filter fun h => !isStandard h) ++ Headers.sorted (hs.filter isStandard)

/-- The lines for headers. -/
def includeLines (hs : Headers) : String :=
  String.join ((includeOrder hs).map fun h => "#include " ++ h ++ "\n")

/-- A text composed of the lines for headers and of bodies. -/
def composed (hs : Headers) (bodies : List String) : String :=
  includeLines hs ++ "\n\n" ++ String.join bodies

end TensorEmit.Code
