import TensorEmit.Proofs.WireForm

/-!
# Functions and lists there and back

What the conversions of functions and of list attributes make of a value that goes to neutral form
and back.

A function that has attributes takes the name of the last one, and so does every function inside of
it. It comes back as it was exactly if every function in it bears the name of its last attribute or
has none, and no shape in it says more than its sizes (`Converter.func_round_trip`).

The numbers of element types in a list attribute are plain data, which the conversion leaves as they
are, and then they are refused because they are no element types. So a list attribute whose lists
hold what they should is converted exactly if its list of element types is empty, and then it comes
back as it was (`Converter.items_round_trip`).
-/

namespace TensorEmit

/-! ## Functions -/

/-- Reading named attributes keeps their names. -/
theorem Value.names_of_attrsToNeutral {attrs attrs' : List (String × Value)}
    (run : Value.attrsToNeutral attrs = .ok attrs') :
    attrs'.map Prod.fst = attrs.map Prod.fst := by
  induction attrs generalizing attrs' with
  | nil =>
    cases run
    rfl
  | cons e rest ih =>
    obtain ⟨k, v⟩ := e
    obtain ⟨v', rest', _, later, rfl⟩ := Value.attrsToNeutral_cons run
    rw [List.map_cons, List.map_cons, ih later]

namespace Converter

/-- A function that becomes neutral keeps the names of its attributes and takes the name of the last
of them. Back on the wire it differs in nothing but such names, its own and those of the functions
in it, and in that its shapes are as the graph library writes them, so it is what it was exactly if
its functions and shapes are so already. -/
theorem func_round_trip {name : String} {attrs : Entries String Value} {v : Value}
    (wire : (Value.wireFunc name attrs).isWire)
    (run : func.toNeutral (.wireFunc name attrs) = .ok v) :
    (∃ attrs', v = .func ((attrs.getLast?.map Prod.fst).getD name) attrs' ∧
      attrs'.map Prod.fst = attrs.map Prod.fst) ∧
    func.toWire v = .ok (Value.wireFunc name attrs).returned ∧
    (func.toWire v = .ok (.wireFunc name attrs) ↔ (Value.wireFunc name attrs).IsKept) := by
  have made : (Value.wireFunc name attrs).toNeutral = .ok v := run
  obtain ⟨attrs', first, rfl⟩ := Value.toNeutral_wireFunc made
  have back : func.toWire (.func (neutralFuncName name attrs) attrs') =
      .ok (Value.wireFunc name attrs).returned := Value.toWire_eq_returned _ wire made
  have taken : neutralFuncName name attrs = (attrs.getLast?.map Prod.fst).getD name := by
    unfold neutralFuncName
    cases attrs.getLast? with
    | none => rfl
    | some last => rfl
  refine ⟨⟨attrs', by rw [taken], Value.names_of_attrsToNeutral first⟩, back, ?_⟩
  rw [back, Except.ok.injEq]
  exact Value.returned_eq_self_iff _

/-- A function that bears the name of its last attribute, with a function in it that does not. -/
def outerFunction : Value :=
  .wireFunc "inner" [("size", .wireAttr (some "i") (.int 1)),
    ("inner", .wireAttr (some "func")
      (.wireFunc "scale" [("factor", .wireAttr (some "f") (.float 0))]))]

theorem func_round_trip_outerFunction : ∃ v attrs',
    func.toNeutral outerFunction = .ok v ∧ v = .func "inner" attrs' ∧
    attrs'.map Prod.fst = ["size", "inner"] ∧ func.toWire v = .ok outerFunction.returned ∧
    func.toWire v ≠ .ok outerFunction := by
  have run : func.toNeutral outerFunction = .ok _ := rfl
  obtain ⟨⟨attrs', made, names⟩, back, same⟩ := func_round_trip rfl run
  exact ⟨_, attrs', run, made, names, back, fun kept => by
    simpa [outerFunction, Value.IsKept, Value.AttrsKept] using same.mp kept⟩

/-- The name of a function is lost to that of its only attribute. -/
theorem func_named_for_attribute : ∃ v,
    func.toNeutral (.wireFunc "f" [("k", .wireAttr (some "i") (.int 1))]) = .ok v ∧
    v = .func "k" [("k", .attr "i" (.int 1))] ∧
    func.toWire v = .ok (.wireFunc "k" [("k", .wireAttr (some "i") (.int 1))]) :=
  ⟨_, rfl, rfl, rfl⟩

end Converter

/-! ## Lists -/

/-- Whether a constant with elements of a type has a neutral form: its type is plain, or a small
quantised one. -/
def ElementType.fitsConstant : ElementType → Bool
  | .qint16 | .quint16 | .qint32 => false
  | _ => true

/-- A size on the wire, which may be unknown. -/
def sizeValue : Option Int → Value
  | none => .none
  | some n => .int n

/-- A list attribute of a graph file, each of whose lists holds what it should and which has no
functions. Element types are given by their numbers. -/
structure ListAttribute where
  blobs : List (List UInt8)
  ints : List Int
  /-- Floats by their bit patterns. -/
  floats : List Nat
  bools : List Bool
  types : List Int
  shapes : List (Option (List (Option Int)))
  tensors : List { a : NumArray // a.type.fitsConstant }

namespace ListAttribute

/-- The shape of a list attribute on the wire. -/
def wireShape (dims : Option (List (Option Int))) : Value :=
  .writtenShape (dims.map (List.map sizeValue))

/-- The constant of a list attribute on the wire. -/
def wireTensor (a : { a : NumArray // a.type.fitsConstant }) : Value := .wireTensor (.array a.1)

/-- A list attribute on the wire. -/
def wire (l : ListAttribute) : Value :=
  .wireItems (l.blobs.map .bytes) (l.ints.map .int) (l.floats.map .float) (l.bools.map .bool)
    (l.types.map .int) (l.shapes.map wireShape) (l.tensors.map wireTensor) []

/-- A constant whose type fits has a neutral form. -/
theorem exists_toNeutral_wireTensor (a : { a : NumArray // a.type.fitsConstant }) :
    ∃ v, (wireTensor a).toNeutral = .ok v ∧ MemberKind.tensor.admits v := by
  obtain ⟨⟨type, shape, cells⟩, fits⟩ := a
  change type.fitsConstant at fits
  change ∃ v, neutralArray ⟨type, shape, cells⟩ = .ok v ∧ _
  cases type with
  | qint16 | quint16 | qint32 => cases fits
  | _ => exact ⟨_, rfl, rfl⟩

theorem exists_toNeutral_wireShape (dims : Option (List (Option Int))) :
    ∃ v, (wireShape dims).toNeutral = .ok v ∧ MemberKind.shape.admits v := by
  cases dims with
  | none => exact ⟨_, rfl, rfl⟩
  | some dims =>
    have sizes : (dims.map sizeValue).all Neutral.isSize := by
      rw [List.all_map, List.all_eq_true]
      intro size _
      cases size with
      | none => rfl
      | some n => rfl
    exact ⟨.shape (some (dims.map sizeValue)), if_pos sizes, rfl⟩

/-- Values that become neutral values of one kind do so as a list. -/
theorem exists_allToNeutral {α : Type} {f : α → Value} {k : MemberKind} (xs : List α)
    (each : ∀ x, ∃ v, (f x).toNeutral = .ok v ∧ k.admits v) :
    ∃ vs, Value.allToNeutral (xs.map f) = .ok vs ∧ vs.all k.admits := by
  induction xs with
  | nil => exact ⟨[], rfl, rfl⟩
  | cons x xs ih =>
    obtain ⟨v, first, admitted⟩ := each x
    obtain ⟨vs, later, all⟩ := ih
    refine ⟨v :: vs, ?_, ?_⟩
    · rw [List.map_cons, Value.allToNeutral, first, later]
      rfl
    · rw [List.all_cons, admitted, all]
      rfl

/-- Values in wire form that come back as they were do so as a list. -/
theorem allKept_map {α : Type} {f : α → Value} (xs : List α)
    (each : ∀ x, (f x).isWire ∧ (f x).IsKept) :
    Value.allWire (xs.map f) ∧ Value.AllKept (xs.map f) := by
  induction xs with
  | nil => exact ⟨rfl, trivial⟩
  | cons x xs ih =>
    rw [List.map_cons, Value.allWire, Value.AllKept, (each x).1, ih.1]
    exact ⟨rfl, (each x).2, ih.2⟩

/-- A list attribute whose lists hold what they should comes back as it was. -/
theorem toWire_of_toNeutral {l : ListAttribute} {v : Value} (run : l.wire.toNeutral = .ok v) :
    v.toWire = .ok l.wire := by
  have types := allKept_map (f := .int) l.types fun _ => ⟨rfl, trivial⟩
  have shapes := allKept_map (f := wireShape) l.shapes fun _ => ⟨rfl, rfl⟩
  have tensors := allKept_map (f := wireTensor) l.tensors fun _ => ⟨rfl, trivial⟩
  have wire : l.wire.isWire := by
    rw [ListAttribute.wire, Value.isWire, types.1, shapes.1, tensors.1]
    rfl
  rw [Value.toWire_eq_returned l.wire wire run, Except.ok.injEq, Value.returned_eq_self_iff]
  exact ⟨types.2, shapes.2, tensors.2, trivial⟩

/-- Whole numbers are in neutral form already. -/
theorem allToNeutral_ints (ns : List Int) :
    Value.allToNeutral (ns.map .int) = .ok (ns.map .int) := by
  induction ns with
  | nil => rfl
  | cons n ns ih =>
    rw [List.map_cons, Value.allToNeutral, ih]
    rfl

theorem membersOfKind_map {α : Type} {f : α → Value} {k : MemberKind} (xs : List α)
    (each : ∀ x, k.admits (f x)) : membersOfKind k (.list (xs.map f)) = .ok (xs.map f) := by
  refine if_pos ?_
  rw [List.all_map, List.all_eq_true]
  exact fun x _ => each x

/-- All lists of a list attribute become neutral and pass, but for that of the element types, which
is left as it is. -/
theorem toNeutral_wire (l : ListAttribute) : ∃ shapes tensors, l.wire.toNeutral = (do
    let types ← membersOfKind .type (.list (l.types.map .int))
    return .items (l.blobs.map .bytes) (.list (l.ints.map .int)) (l.floats.map .float)
      (l.bools.map .bool) types shapes tensors []) := by
  obtain ⟨shapes, shapesRun, shapesPass⟩ := exists_allToNeutral l.shapes exists_toNeutral_wireShape
  obtain ⟨tensors, tensorsRun, tensorsPass⟩ :=
    exists_allToNeutral l.tensors exists_toNeutral_wireTensor
  have blobs : membersOfKind .bytes (.list (l.blobs.map .bytes)) = .ok _ :=
    membersOfKind_map l.blobs fun _ => rfl
  have floats : membersOfKind .float (.list (l.floats.map .float)) = .ok _ :=
    membersOfKind_map l.floats fun _ => rfl
  have bools : membersOfKind .bool (.list (l.bools.map .bool)) = .ok _ :=
    membersOfKind_map l.bools fun _ => rfl
  have shapesKept : membersOfKind .shape (.list shapes) = .ok shapes := if_pos shapesPass
  have tensorsKept : membersOfKind .tensor (.list tensors) = .ok tensors := if_pos tensorsPass
  refine ⟨shapes, tensors, ?_⟩
  -- every other check succeeds outright, so that of the element types is all that is left
  rw [wire, Value.toNeutral, allToNeutral_ints, shapesRun, tensorsRun]
  change Neutral.items _ _ _ _ _ _ _ (.list []) = _
  unfold Neutral.items
  rw [blobs, floats, bools, shapesKept, tensorsKept]
  rfl

end ListAttribute

namespace Converter

/-- A list attribute becomes neutral exactly if it lists no element types, and then it comes back as
it was. If it lists some, it is refused because their numbers are no element types. -/
theorem items_round_trip (l : ListAttribute) :
    ((∃ v, items.toNeutral l.wire = .ok v) ↔ l.types = []) ∧
    (∀ v, items.toNeutral l.wire = .ok v → items.toWire v = .ok l.wire) ∧
    (l.types ≠ [] → items.toNeutral l.wire =
      .error (.wrongMembers Value.typeClass (.list (l.types.map .int)))) := by
  obtain ⟨shapes, tensors, run⟩ := l.toNeutral_wire
  have refused : l.types ≠ [] → items.toNeutral l.wire =
      .error (.wrongMembers Value.typeClass (.list (l.types.map .int))) := by
    intro some
    obtain ⟨n, ns, listed⟩ := List.exists_cons_of_ne_nil some
    change l.wire.toNeutral = _
    rw [run, listed]
    rfl
  refine ⟨⟨?_, ?_⟩, ?_, refused⟩
  · rintro ⟨v, made⟩
    by_contra some
    rw [refused some] at made
    cases made
  · intro none
    rw [none] at run
    exact ⟨_, run⟩
  · intro v made
    have neutral : l.wire.toNeutral = .ok v := made
    have back := l.toWire_of_toNeutral neutral
    obtain ⟨_, _, kept, rfl⟩ := bind_eq_ok_iff.mp (run.symm.trans neutral)
    exact back

/-- The number of an element type has a neutral form that a list attribute takes, and yet a list
attribute with this number is refused. -/
theorem items_refuse_float32 : elementType.toNeutral (.int 1) = .ok (.type .float32) ∧
    MemberKind.type.admits (.type .float32) ∧
    items.toNeutral (ListAttribute.wire ⟨[], [], [], [], [1], [], []⟩) =
      .error (.wrongMembers Value.typeClass (.list [.int 1])) :=
  ⟨rfl, rfl, rfl⟩

end Converter

end TensorEmit
