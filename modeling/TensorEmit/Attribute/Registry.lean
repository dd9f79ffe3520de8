import TensorEmit.Attribute.Convert

/-!
# The registry of converters

Converters are filed twice: by the wire forms they read and by the neutral forms they write. A form
that was filed before keeps its place, and the later converter takes it over.
-/

namespace TensorEmit

namespace Converter

/-- The converters of the registry in the order in which they were filed. -/
def filed : List Converter := [plain, tensor, elementType, shape, attr, func, items]

/-- The names of the kinds of plain data. -/
def plainNames : List String := ["bytes", "int", "int", "bool", "float", "str", "str"]

/-- The names of the wire forms of a converter. -/
def wireNames : Converter → List String
  | any => []
  | plain => plainNames
  | tensor => ["TensorProto"]
  | elementType => ["int"]
  | shape => ["TensorShapeProto"]
  | attr => ["AttrValue"]
  | func => ["NameAttrList"]
  | items => ["ListValue"]

/-- The names of the neutral forms of a converter. -/
def neutralNames : Converter → List String
  | any => []
  | plain => plainNames
  | tensor => ["GenericTensorConverterMixin.GenericType"]
  | elementType => ["dtype"]
  | shape => ["GenericTensorShapeMixin.GenericType"]
  | attr => ["AttrValueConverter.GenericType"]
  | func => ["NameAttrListConverter.GenericType"]
  | items => ["AttrListValueConverter.GenericType"]

/-- Files converters under the names that `names` gives them. -/
def fileAll (names : Converter → List String) (cs : List Converter) : Entries String Converter :=
  cs.foldl (fun es c => Entries.setAll es ((names c).map fun n => (n, c))) []

/-- The converters by wire form. -/
def byWire : Entries String Converter := fileAll wireNames filed

/-- The converters by neutral form. -/
def byNeutral : Entries String Converter := fileAll neutralNames filed

/-- The wire forms and the neutral forms of every converter that can be found by wire form. -/
def forms : List (List String × List String) :=
  (byWire.map fun e => (e.2.wireNames, e.2.neutralNames)).eraseDups

end Converter

/-- A class that is to be filed as a converter: which of the two directions it has, and which of
its forms it names. -/
structure ConverterOffer where
  kind : String
  toNeutral : Bool
  toWire : Bool
  hasNeutralForm : Bool
  hasWireForm : Bool

/-- Checks that a class can be filed as a converter. -/
def ConverterOffer.check (o : ConverterOffer) : Except Fault Unit :=
  if !(o.toNeutral && o.toWire) then .error (.converterParts o.kind)
  else if !o.hasNeutralForm then .error (.converterWithoutNeutral o.kind)
  else if !o.hasWireForm then .error (.converterWithoutWire o.kind)
  else .ok ()

/-- A converter that does not provide a direction has no answer for it. -/
def unprovidedConversion : Except Fault Unit := .error (.notProvided "")

end TensorEmit
