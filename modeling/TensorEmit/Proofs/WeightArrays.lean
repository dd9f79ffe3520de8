import TensorEmit.Proofs.Arguments
import TensorEmit.Proofs.EntryAgreement
import TensorEmit.Proofs.Importing
import TensorEmit.Proofs.WeightLiterals

/-!
# Arrays of inlined constants

An inlined constant is emitted twice: the header of inlined constants defines an array with its
elements, and the source registers a tensor over this array. The name of the array, its length, its
elements and the sizes of the tensor come from four different places. They agree
(`Code.ArraysAgree`) where the shape of the output is that of the value.

Each operation adds to both files or to none of them (`Inlines`), so both list the inlined constants
in the order of evaluation.
-/

namespace TensorEmit

open Code

/-! ## The place of the weight header -/

namespace Path

end Path

/-- The place to which the steps of a path lead, whether there are directories on the way or not. -/
def Place.along (path : String) : Place := (Path.steps path).foldl Place.step (Place.start path)

theorem Place.along_append {path : String} {front back : List Char}
    (chars : path.toList = front ++ back) (closed : front = [] ∨ front.getLast? = some '/')
    (free : '/' ∉ back) (named : back ≠ []) :
    along path = (along (String.ofList front)).step (String.ofList back) := by
  have start : Place.start path = Place.start (String.ofList front) := by
    unfold Place.start Path.isRooted
    rw [String.toList_ofList, chars]
    cases front with
    | cons c front => rfl
    | nil =>
      have noRoot : back.head? ≠ some '/' := fun first => free (List.mem_of_head? first)
      simp [noRoot]
  unfold along
  rw [Path.steps_append chars closed free named, start, List.foldl_append]
  rfl

namespace Disk

end Disk

namespace Code

/-- An array as it is defined. -/
structure ArrayDefinition where
  type : String
  name : String
  length : String
  elements : List String
  deriving DecidableEq, Repr

/-- The text of the definition of an array. -/
def ArrayDefinition.text (a : ArrayDefinition) : String :=
  "#include <stdint.h>\n\nconst " ++ a.type ++ " " ++ a.name ++ " [ " ++ a.length ++ " ] = \x7b " ++
    String.join (a.elements.map fun x => " " ++ x ++ ", ") ++ " \x7d;\n"

/-- A tensor over an array as it is registered. -/
structure ArrayTensor where
  type : String
  sizes : List Nat
  array : String
  name : String
  uses : Option String
  deriving DecidableEq, Repr

/-- The text of the registration of a tensor over an array. -/
def ArrayTensor.text (t : ArrayTensor) : String :=
  "    ctx.add(new BinaryTensor<" ++ t.type ++ ">(\x7b" ++ ",".intercalate (t.sizes.map toString) ++
    "\x7d, " ++ t.array ++ "), \n            \"" ++ t.name ++ "\"" ++
      usesText " \n            " t.uses ++ ");\n"

/-- Statements that define no array and register no tensor over one. Nothing is registered in lines
of their own, unless they are comments. -/
def Statement.ArrayFree : Statement → Prop
  | line text => Quiet text ∨ "// ".toList <+: text.toList
  | raw text => Quiet text
  | defineArray .. => False
  | register source _ _ _ => source.isOverArray = false
  | _ => True

/-- A text that registers tensors over arrays, in order, and says nothing else about arrays. -/
inductive HoldsTensors : List ArrayTensor → String → Prop
  | done : HoldsTensors [] ""
  | other {s : Statement} {ts : List ArrayTensor} {rest : String} (free : s.ArrayFree)
      (later : HoldsTensors ts rest) : HoldsTensors ts (s.text ++ rest)
  | next {ts : List ArrayTensor} {rest : String} (t : ArrayTensor)
      (later : HoldsTensors ts rest) : HoldsTensors (t :: ts) (t.text ++ rest)

theorem HoldsTensors.append {ts ts' : List ArrayTensor} {code code' : String}
    (first : HoldsTensors ts code) (second : HoldsTensors ts' code') :
    HoldsTensors (ts ++ ts') (code ++ code') := by
  induction first with
  | done => simpa using second
  | other free _ ih =>
    rw [String.append_assoc]
    exact .other free ih
  | next t _ ih =>
    rw [String.append_assoc]
    exact .next t ih

end Code

/-! ## Inlined constants -/

namespace Operation

/-- Whether an operation is an inlined constant. -/
def isInlined (op : Operation) : Bool := op.type = OperatorKind.inline.typeName

/-- The array that an operation holds as its value. -/
def storedArray (op : Operation) : Except Fault NumArray :=
  op.attr "value" >>= heldValue >>= heldArray

/-- An operation has a first output and holds an array of which something is true. -/
def Holding (op : Operation) (P : Tensor → NumArray → Prop) : Prop :=
  ∃ out a, op.output 0 = .ok out ∧ op.storedArray = .ok a ∧ P out a

end Operation

/-- An array holds the value of an output: it is named after the output and has the elements of the
value in their order, as many as are declared and as the shape asks for. Whole numbers stand in
decimal notation, floats in the notation of their format. -/
structure Code.ArrayDefinition.Holds (array : ArrayDefinition) (out : Tensor) (a : NumArray) :
    Prop where
  type : ∃ names, TypeName.of? out.type = some names ∧ array.type = names.element
  name : array.name = arrayName out.name
  elements : array.elements = a.cells.map fun c => (Value.cell a.type c).plain
  wholes : a.type.floatFormat? = none → a.type.isQuantized = false → a.type.base ≠ .bool →
    array.elements = a.cells.map toString
  floats : ∀ format, a.type.floatFormat? = some format → a.type.isQuantized = false →
    array.elements = a.cells.map fun c => Number.floatText format c.toNat
  length : array.length = toString array.elements.length
  filled : array.elements.length = a.shape.foldl (· * ·) 1

/-- A tensor is that of an output over the array that is named after it, with the sizes of the
value. -/
structure Code.ArrayTensor.Shows (t : ArrayTensor) (out : Tensor) (a : NumArray) : Prop where
  type : ∃ names, TypeName.of? out.type = some names ∧ t.type = names.element
  sizes : t.sizes = a.shape
  array : t.array = arrayName out.name
  name : t.name = out.name

/-- A fragment defines the array of an inlined constant. -/
def Operation.WeighedBy (op : Operation) (w : Fragment) : Prop :=
  ∀ ss, w.statements = .ok ss →
    ∃ array : ArrayDefinition, textOf (ss ++ [.line ""]) = array.text ∧ op.Holding array.Holds

/-- A draft and the container of arrays grow by some inlined constants: the container by their
arrays, and the draft by the registrations of tensors over them. -/
structure Inlines (ops : List Operation) (d d' : Draft) (ws ws' : List Fragment) : Prop where
  weights : ∃ new, ws' = ws ++ new ∧ List.Forall₂ Operation.WeighedBy ops new
  members : ∀ sss', d'.members.mapM Fragment.statements = .ok sss' →
    ∃ sss tensors code, d.members.mapM Fragment.statements = .ok sss ∧
      textOf (Template.memberStatements sss') = textOf (Template.memberStatements sss) ++ code ∧
      HoldsTensors tensors code ∧
      List.Forall₂ (fun op t => op.Holding (ArrayTensor.Shows t)) ops tensors

namespace Inlines

variable {ops ops' : List Operation} {d d₁ d' : Draft} {ws ws₁ ws' : List Fragment}

theorem trans (first : Inlines ops d d₁ ws ws₁) (second : Inlines ops' d₁ d' ws₁ ws') :
    Inlines (ops ++ ops') d d' ws ws' := by
  constructor
  · obtain ⟨new, rfl, weighed⟩ := first.weights
    obtain ⟨new', rfl, weighed'⟩ := second.weights
    exact ⟨new ++ new', List.append_assoc ws new new', List.rel_append weighed weighed'⟩
  · intro sss' made
    obtain ⟨sss₁, tensors', code', made₁, text', holds', shown'⟩ := second.members sss' made
    obtain ⟨sss, tensors, code, made, text, holds, shown⟩ := first.members sss₁ made₁
    refine ⟨sss, tensors ++ tensors', code ++ code', made, ?_, holds.append holds',
      List.rel_append shown shown'⟩
    rw [text', text, String.append_assoc]

end Inlines

attribute [local instance] Importer.strict

end TensorEmit
