/-!
# Similar words

What two words have in common is the first of their longest common blocks, and then, in the same
way, what they have in common before it and behind it. Words are similar if the characters that they
have in common make up three fifths of all their characters, or more.
-/

namespace TensorEmit.Text

/-- With how many equal characters two words start. -/
def commonStart : List Char → List Char → Nat
  | a :: as, b :: bs => if a = b then commonStart as bs + 1 else 0
  | _, _ => 0

/-- A block that two words have in common: where it starts in either word, and its length. -/
structure CommonBlock where
  left : Nat
  right : Nat
  length : Nat
  deriving DecidableEq, Repr

/-- For every pair of starts, from left to right, the block there. -/
def commonBlocks (as bs : List Char) : List CommonBlock :=
  (List.range as.length).flatMap fun i =>
    (List.range bs.length).map fun j => ⟨i, j, commonStart (as.drop i) (bs.drop j)⟩

/-- The first of the longest common blocks; without any it is empty. -/
def longestBlock (as bs : List Char) : CommonBlock :=
  (commonBlocks as bs).foldl (fun best b => if best.length < b.length then b else best) ⟨0, 0, 0⟩

/-- How many characters two words have in common, in blocks down to a depth of `fuel`. -/
def commonCount : (fuel : Nat) → List Char → List Char → Nat
  | 0, _, _ => 0
  | fuel + 1, as, bs =>
    let b := longestBlock as bs
    if b.length = 0 then 0
    else
      commonCount fuel (as.take b.left) (bs.take b.right) + b.length +
        commonCount fuel (as.drop (b.left + b.length)) (bs.drop (b.right + b.length))

/-- A word with the share that it has in common with another one, as the parts of a fraction. -/
structure Candidate where
  word : String
  shared : Nat
  whole : Nat
  deriving DecidableEq, Repr

namespace Candidate

/-- A candidate for a word. -/
def of (word candidate : String) : Candidate :=
  ⟨candidate, 2 * commonCount (candidate.length + 1) candidate.toList word.toList,
    candidate.length + word.length⟩

/-- Whether three fifths or more are shared. -/
def isSimilar (c : Candidate) : Bool := 3 * c.whole ≤ 5 * c.shared

/-- Whether a candidate comes first: the one that shares more, and of equal ones the later word. -/
def precedes (c c' : Candidate) : Bool :=
  let here := c.shared * c'.whole
  let there := c'.shared * c.whole
  there < here || (here = there && c'.word ≤ c.word)

end Candidate

/-- How many similar words are named at most. -/
def similarLimit : Nat := 3

/-- The words that are most similar to a word, in the order of words. -/
def similarWords (word : String) (words : List String) : List String :=
  let found := (words.map (Candidate.of word)).filter Candidate.isSimilar
  let best := (found.mergeSort Candidate.precedes).take similarLimit
  (best.map Candidate.word).mergeSort fun a b => a ≤ b

end TensorEmit.Text
