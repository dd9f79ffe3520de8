/-!
# Positions

A position in a list is a whole number. A negative one counts from the end, so that `-1` is the last
member.
-/

namespace TensorEmit

/-- The member at a position, if there is one. -/
def pick {α : Type} (xs : List α) (i : Int) : Option α :=
  if 0 ≤ i then xs[i.toNat]?
  else if (-i).toNat ≤ xs.length then xs[xs.length - (-i).toNat]? else none

end TensorEmit
