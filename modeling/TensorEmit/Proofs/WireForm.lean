import TensorEmit.Proofs.Reading

/-!
# Wire form there and back

An attribute that is read from a graph file becomes neutral. When it is written again it becomes
what it was, but a function with attributes has taken the name of the last of them, at any depth,
and a shape is what the graph library writes for the sizes that it read
(`Value.toWire_eq_returned`). So it is the same exactly if its functions and shapes are of that form
(`Value.returned_eq_self_iff`), as functions without attributes and shapes without names are. Small
quantised numbers are held as plain ones in between.
-/

namespace TensorEmit

/-! ## Constants -/

theorem NumArray.cast_of_base_eq {a : NumArray} {t : ElementType} (same : a.type.base = t.base) :
    a.cast t = ⟨t, a.shape, a.cells⟩ := by
  unfold NumArray.cast
  rw [List.map_congr_left fun c _ => ElementType.castCell_of_base_eq same c, List.map_id']

/-- The element type of plain numbers is its own base. -/
theorem ElementType.base_base (t : ElementType) : t.base.base = t.base := by
  cases t <;> rfl

/-- An array keeps its cells on the way through neutral form. -/
theorem toWire_of_neutralArray {a : NumArray} {v : Value} (run : neutralArray a = .ok v) :
    v.toWire = .ok (.wireTensor (.array a)) := by
  have plain : (a.cast a.type) = a := NumArray.cast_of_base_eq rfl
  have base : (a.cast a.type.base).cast a.type = a := by
    rw [NumArray.cast_of_base_eq (ElementType.base_base a.type).symm]
    exact NumArray.cast_of_base_eq (ElementType.base_base a.type)
  unfold neutralArray at run
  split at run
  · split at run
    · cases run
      rw [Value.toWire, wireArray]
      simp [elementTypeOf?, base]
    · cases run
      rw [Value.toWire, wireArray]
      simp [elementTypeOf?, base]
    · cases run
  · cases run
    rw [Value.toWire, wireArray]
    simp [elementTypeOf?, plain]

/-! ## All values -/

/-- What is read from an attribute is an attribute of the same kind. -/
theorem Value.toNeutral_wireAttr {field : Option String} {value v' : Value}
    (run : (Value.wireAttr field value).toNeutral = .ok v') :
    ∃ kind value', field = some kind ∧ value.toNeutral = .ok value' ∧ v' = .attr kind value' := by
  cases field with
  | none => cases run
  | some kind =>
    by_cases isArray : ∃ a, value = .array a
    · obtain ⟨a, rfl⟩ := isArray
      cases run
    · rw [Value.toNeutral, bind_eq_ok_iff] at run
      · obtain ⟨value', first, made⟩ := run
        obtain ⟨_, same, rfl⟩ := Neutral.attr_ok made
        cases same
        exact ⟨kind, value', rfl, first, rfl⟩
      · exact fun a same => isArray ⟨a, same⟩

theorem Neutral.fields_of_namedAttrs {fields fields' : List (String × Value)}
    (run : (fields.map fun f => (Key.text f.1, f.2)).mapM Neutral.namedAttr? = some fields') :
    fields' = fields := by
  induction fields generalizing fields' with
  | nil => exact (Option.some.inj run).symm
  | cons f rest ih =>
    obtain ⟨name, v⟩ := f
    rw [List.map_cons, List.mapM_cons] at run
    simp only [Option.bind_eq_bind, Option.bind_eq_some_iff] at run
    obtain ⟨first, named, rest', later, made⟩ := run
    cases v with
    | attr kind value =>
      cases named
      cases made
      rw [ih later]
    | _ => cases named

/-- A function takes its attributes as they are. -/
theorem Neutral.func_ofFields {name : String} {fields : List (String × Value)} {v : Value}
    (run : Neutral.func (.text name) (.ofFields fields) = .ok v) : v = .func name fields := by
  unfold Neutral.func Value.ofFields at run
  dsimp only at run
  split at run
  case _ fields' named =>
    cases run
    rw [Neutral.fields_of_namedAttrs named]
  case _ => cases run

/-- What is read from a function is a function. -/
theorem Value.toNeutral_wireFunc {name : String} {attrs : List (String × Value)} {v' : Value}
    (run : (Value.wireFunc name attrs).toNeutral = .ok v') :
    ∃ attrs', Value.attrsToNeutral attrs = .ok attrs' ∧
      v' = .func (neutralFuncName name attrs) attrs' := by
  rw [Value.toNeutral, bind_eq_ok_iff] at run
  obtain ⟨attrs', first, made⟩ := run
  exact ⟨attrs', first, Neutral.func_ofFields made⟩

/-- Named attributes are read one by one. -/
theorem Value.attrsToNeutral_cons {k : String} {v : Value} {rest attrs' : List (String × Value)}
    (run : Value.attrsToNeutral ((k, v) :: rest) = .ok attrs') :
    ∃ v' rest', v.toNeutral = .ok v' ∧ Value.attrsToNeutral rest = .ok rest' ∧
      attrs' = (k, v') :: rest' := by
  cases v with
  | wireAttr field value =>
    rw [Value.attrsToNeutral] at run
    simp only [bind_eq_ok_iff, pure_eq_ok_iff] at run
    obtain ⟨v', first, rest', later, rfl⟩ := run
    exact ⟨v', rest', first, later, rfl⟩
  | _ => cases run

mutual

/-- Whether a value is in wire form, with all that it holds. -/
def Value.isWire : Value → Bool
  | .bool _ | .int _ | .float _ | .text _ | .bytes _ | .wireTensor _ | .wireShape .. => true
  | .wireAttr Option.none _ => true
  | .wireAttr (some _) v => v.isWire
  | .wireFunc _ attrs => Value.attrsWire attrs
  | .wireItems _ _ _ _ types shapes tensors funcs =>
    Value.allWire types && Value.allWire shapes && Value.allWire tensors && Value.allWire funcs
  | _ => false

/-- Whether all of some values are in wire form. -/
def Value.allWire : List Value → Bool
  | [] => true
  | v :: vs => v.isWire && Value.allWire vs

/-- Whether all of some named values are in wire form. -/
def Value.attrsWire : List (String × Value) → Bool
  | [] => true
  | (_, v) :: rest => v.isWire && Value.attrsWire rest

end

mutual

/-- A value in wire form as it comes back from neutral form: its functions have the names that they
took, those of functions in functions included, and its shapes are as the graph library writes
them. -/
def Value.returned : Value → Value
  | .wireShape _ sizes => .writtenShape sizes
  | .wireAttr field v => .wireAttr field v.returned
  | .wireFunc name attrs => .wireFunc (neutralFuncName name attrs) (Value.attrsReturned attrs)
  | .wireItems blobs ints floats bools types shapes tensors funcs =>
    .wireItems blobs ints floats bools (Value.allReturned types) (Value.allReturned shapes)
      (Value.allReturned tensors) (Value.allReturned funcs)
  | v => v

def Value.allReturned : List Value → List Value
  | [] => []
  | v :: vs => v.returned :: Value.allReturned vs

def Value.attrsReturned : List (String × Value) → List (String × Value)
  | [] => []
  | (k, v) :: rest => (k, v.returned) :: Value.attrsReturned rest

end

mutual

/-- A value in wire form is the same after it was neutral in between, but for the names of functions
and what only the file says of a shape. -/
theorem Value.toWire_eq_returned (v : Value) (wire : v.isWire) {v' : Value}
    (run : v.toNeutral = .ok v') : v'.toWire = .ok v.returned := by
  cases v with
  | bool _ | int _ | float _ | text _ | bytes _ =>
    cases run
    rfl
  | wireTensor held =>
    cases held with
    | array a => exact toWire_of_neutralArray run
    | _ => cases run
  | wireShape dims sizes =>
    cases sizes with
    | none =>
      cases run
      rfl
    | some sizes =>
      rcases Neutral.shape_ok run with ⟨none, _⟩ | ⟨_, same, rfl⟩
      · cases none
      · cases same
        rfl
  | wireAttr field value =>
    obtain ⟨kind, value', rfl, first, rfl⟩ := Value.toNeutral_wireAttr run
    rw [Value.isWire] at wire
    rw [Value.toWire, Value.toWire_eq_returned value wire first]
    rfl
  | wireFunc name attrs =>
    obtain ⟨attrs', first, rfl⟩ := Value.toNeutral_wireFunc run
    rw [Value.isWire] at wire
    rw [Value.toWire, Value.attrsToWire_eq_returned attrs wire first]
    rfl
  | wireItems blobs ints floats bools types shapes tensors funcs =>
    rw [Value.isWire] at wire
    simp only [Bool.and_eq_true] at wire
    obtain ⟨⟨⟨types', shapes'⟩, tensors'⟩, funcs'⟩ := wire
    rw [Value.toNeutral] at run
    simp only [bind_eq_ok_iff] at run
    obtain ⟨ts, typesRun, ss, shapesRun, ns, tensorsRun, gs, funcsRun, made⟩ := run
    obtain ⟨_, _, _, _, _, _, _, rfl, parts⟩ := Neutral.items_ok made
    simp only [Value.list.injEq] at parts
    obtain ⟨rfl, rfl, rfl, rfl, rfl, rfl, rfl⟩ := parts
    rw [Value.toWire, Value.allToWire_eq_returned types types' typesRun,
      Value.allToWire_eq_returned shapes shapes' shapesRun,
      Value.allToWire_eq_returned tensors tensors' tensorsRun,
      Value.allToWire_eq_returned funcs funcs' funcsRun]
    rfl
  | _ => cases wire

theorem Value.allToWire_eq_returned (vs : List Value) (wire : Value.allWire vs) {vs' : List Value}
    (run : Value.allToNeutral vs = .ok vs') : Value.allToWire vs' = .ok (Value.allReturned vs) := by
  cases vs with
  | nil =>
    cases run
    rfl
  | cons v vs =>
    rw [Value.allWire, Bool.and_eq_true] at wire
    rw [Value.allToNeutral] at run
    simp only [bind_eq_ok_iff, pure_eq_ok_iff] at run
    obtain ⟨w, first, ws, later, rfl⟩ := run
    rw [Value.allToWire, Value.toWire_eq_returned v wire.1 first,
      Value.allToWire_eq_returned vs wire.2 later]
    rfl

theorem Value.attrsToWire_eq_returned (attrs : List (String × Value)) (wire : Value.attrsWire attrs)
    {attrs' : List (String × Value)} (run : Value.attrsToNeutral attrs = .ok attrs') :
    Value.attrsToWire attrs' = .ok (Value.attrsReturned attrs) := by
  cases attrs with
  | nil =>
    cases run
    rfl
  | cons e rest =>
    obtain ⟨k, v⟩ := e
    rw [Value.attrsWire, Bool.and_eq_true] at wire
    obtain ⟨w, rest', first, later, rfl⟩ := Value.attrsToNeutral_cons run
    rw [Value.attrsToWire, Value.toWire_eq_returned v wire.1 first,
      Value.attrsToWire_eq_returned rest wire.2 later]
    rfl

end

/-! ### Values that come back as they were -/

mutual

/-- A value comes back as it was: every function in it, at any depth, has no attributes or bears the
name of its last one, and every shape is as the graph library writes the sizes that it reads. -/
def Value.IsKept : Value → Prop
  | .wireShape dims sizes => dims = (sizes.getD []).map fun size => ("", size)
  | .wireAttr _ v => v.IsKept
  | .wireFunc name attrs =>
    (∀ last ∈ attrs.getLast?, last.1 = name) ∧ Value.AttrsKept attrs
  | .wireItems _ _ _ _ types shapes tensors funcs =>
    Value.AllKept types ∧ Value.AllKept shapes ∧ Value.AllKept tensors ∧ Value.AllKept funcs
  | _ => True

def Value.AllKept : List Value → Prop
  | [] => True
  | v :: vs => v.IsKept ∧ Value.AllKept vs

def Value.AttrsKept : List (String × Value) → Prop
  | [] => True
  | (_, v) :: rest => v.IsKept ∧ Value.AttrsKept rest

end

theorem neutralFuncName_eq_iff {name : String} {attrs : List (String × Value)} :
    neutralFuncName name attrs = name ↔ ∀ last ∈ attrs.getLast?, last.1 = name := by
  unfold neutralFuncName
  cases attrs.getLast? with
  | none => simp
  | some last => simp

mutual

theorem Value.returned_eq_self_iff (v : Value) : v.returned = v ↔ v.IsKept := by
  cases v with
  | wireShape dims sizes =>
    rw [Value.returned, Value.writtenShape, Value.IsKept, Value.wireShape.injEq, eq_self, and_true]
    exact eq_comm
  | wireAttr field value =>
    rw [Value.returned, Value.IsKept, Value.wireAttr.injEq, eq_self, true_and]
    exact Value.returned_eq_self_iff value
  | wireFunc name attrs =>
    rw [Value.returned, Value.IsKept, Value.wireFunc.injEq, neutralFuncName_eq_iff,
      Value.attrsReturned_eq_self_iff attrs]
  | wireItems blobs ints floats bools types shapes tensors funcs =>
    rw [Value.returned, Value.IsKept]
    simp only [Value.wireItems.injEq, true_and, Value.allReturned_eq_self_iff types,
      Value.allReturned_eq_self_iff shapes, Value.allReturned_eq_self_iff tensors,
      Value.allReturned_eq_self_iff funcs]
  | _ => simp [Value.returned, Value.IsKept]

theorem Value.allReturned_eq_self_iff (vs : List Value) :
    Value.allReturned vs = vs ↔ Value.AllKept vs := by
  cases vs with
  | nil => simp [Value.allReturned, Value.AllKept]
  | cons v vs =>
    rw [Value.allReturned, Value.AllKept, List.cons.injEq, Value.returned_eq_self_iff v,
      Value.allReturned_eq_self_iff vs]

theorem Value.attrsReturned_eq_self_iff (attrs : List (String × Value)) :
    Value.attrsReturned attrs = attrs ↔ Value.AttrsKept attrs := by
  cases attrs with
  | nil => simp [Value.attrsReturned, Value.AttrsKept]
  | cons e rest =>
    obtain ⟨k, v⟩ := e
    rw [Value.attrsReturned, Value.AttrsKept, List.cons.injEq, Prod.mk.injEq, eq_self, true_and,
      Value.returned_eq_self_iff v, Value.attrsReturned_eq_self_iff rest]

end

example : ¬ (Value.wireShape [("batch", .int 1)] (some [.int 1])).IsKept := by
  simp [Value.IsKept]

/-! ## Attributes of nodes -/

/-- Whether a value is an attribute of a graph file, in wire form with all that it holds. -/
def Value.isFileAttr : Value → Bool
  | .wireAttr _ v => v.isWire
  | _ => false

/-- An attribute of a graph file comes back after it was stored. -/
theorem wireAttrOf_of_toNeutral {v v' : Value} (wire : v.isFileAttr)
    (run : v.toNeutral = .ok v') : wireAttrOf v' = .ok v.returned := by
  cases v with
  | wireAttr field value =>
    obtain ⟨kind, value', rfl, first, rfl⟩ := Value.toNeutral_wireAttr run
    rw [wireAttrOf, Value.toWire_eq_returned value wire first]
    rfl
  | _ => cases wire

/-- A node of a graph file all of whose attributes are neither private nor kept out of graph
files. -/
def Node.Plain (n : Node) : Prop :=
  ∀ e ∈ n.attrs, Text.startsWith privateMark e.1 = false ∧ isScopedKey e.1 = false ∧
    e.2.isFileAttr

instance (n : Node) : Decidable n.Plain := List.decidableBAll _ _

theorem Value.attrsReturned_eq_map (attrs : List (String × Value)) :
    Value.attrsReturned attrs = attrs.map fun e => (e.1, e.2.returned) := by
  induction attrs with
  | nil => rfl
  | cons e rest ih => rw [Value.attrsReturned, ih, List.map_cons]

/-- The attributes of a node come back after they were stored, next to the device. -/
theorem Node.Plain.wireAttrs {n : Node} {attrs : Entries String Value} (plain : n.Plain)
    (stored : storedAttrs n.attrs = .ok attrs) :
    (((attrs.set deviceKey n.device).filter fun e => !isScopedKey e.1).mapM fun e => do
      return (e.1, ← wireAttrOf e.2)) = .ok (Value.attrsReturned n.attrs) := by
  have related := mapM_eq_ok_iff.mp stored
  have kept : (attrs.set deviceKey n.device).filter (fun e => !isScopedKey e.1) = attrs := by
    rw [Entries.filter_set fun key => !isScopedKey key, if_neg (by decide), List.filter_eq_self]
    intro e member
    obtain ⟨e₀, inside, made⟩ := exists_left_of_forall₂ related member
    rw [storedAttr_key made, (plain e₀ inside).2.1]
    rfl
  rw [kept, Value.attrsReturned_eq_map, mapM_eq_ok_iff, List.forall₂_map_right_iff]
  refine List.Forall₂.flip (((List.forall₂_and_left _ _).mpr ⟨plain, related⟩).imp ?_)
  rintro ⟨key, v⟩ e' ⟨⟨notPrivate, _, wire⟩, made⟩
  rw [storedAttr_eq_ok_iff, if_neg (by simp [notPrivate])] at made
  obtain ⟨v', neutral, rfl⟩ := made
  change (wireAttrOf v' >>= fun w => pure (key, w)) = .ok (key, v.returned)
  rw [wireAttrOf_of_toNeutral wire neutral]
  rfl

/-- The node of an operation that was read is the node it was read from, with inputs that are named
in full and attributes that were neutral in between. -/
theorem Node.Plain.node_of_read {nodes : List Node} {n : Node} {op : Operation} (plain : n.Plain)
    (read : n.Read nodes op) :
    op.node = .ok ⟨n.name, n.type, op.inputs.map Tensor.name, n.device,
      Value.attrsReturned n.attrs, []⟩ := by
  obtain ⟨attrs, stored, same⟩ := read.attrs
  unfold Operation.node
  rw [same, plain.wireAttrs stored, ok_bind, Entries.get?_set_self, read.name, read.type]
  rfl

end TensorEmit
