import TensorEmit.Pass.Pipeline

/-!
# The registry of passes

A pass needs a scope for its options and a transformation. A class that is no pass, or a name that
is taken, is refused; the table of passes itself cannot be extended, so everything else is refused
too.
-/

namespace TensorEmit

/-- How a message names the class that all passes share. -/
def passBaseClass : String := Value.classText "utensor_cgen.transformer.base.Transformer"

/-- Checks that a class has a scope for the options of its pass. -/
def checkScope (kind : String) (scope : Option String) : Except Fault Unit :=
  match scope with
  | some _ => .ok ()
  | none => .error (.passWithoutScope kind)

/-- A pass that provides no transformation of its own. -/
def unprovidedTransform : Except Fault Unit :=
  .error (.notProvided "You should overwrite transform method for all transformer")

/-- Offers a class to the table of passes under a name. -/
def Pass.offer (method kind : String) (isPass overwrite : Bool) : Except Fault Unit :=
  if !isPass then .error (.notAPass kind)
  else if Pass.all.any (fun p => p.method == method) && !overwrite then .error .passExists
  else .error .undefinedStep

end TensorEmit
