import TensorEmit.Proofs.InPlace
import TensorEmit.Proofs.SpareReads

/-!
# Private attributes in graph files

The key of an attribute is looked at twice. An operation stores a value as it is if the key starts
with the private mark, and a graph file leaves the value out if the key is a scope, two low lines
and a name. The first test does not imply the second: a private key is left out only if two low
lines and a name follow somewhere in it (`isScopedKey_private_iff`).

`Graph.withoutPrivate` is the graph with no private attributes at all. If it can be written, the
private attributes change what is written exactly if the key of one of them is not scoped. The value
under such a key is written too, or the file cannot be written because of it.
-/

namespace TensorEmit

/-! ## Scoped keys -/

/-- Word characters, two low lines and the start of an identifier, with anything behind it. -/
def Scoped (cs : List Char) : Prop :=
  ∃ scope c rest, cs = scope ++ '_' :: '_' :: c :: rest ∧ (∀ d ∈ scope, Text.isWordChar d) ∧
    Text.isIdentStart c

theorem startsPrivateName_iff {cs : List Char} :
    startsPrivateName cs ↔ ∃ c rest, cs = '_' :: '_' :: c :: rest ∧ Text.isIdentStart c := by
  constructor
  · intro starts
    unfold startsPrivateName at starts
    split at starts
    case h_1 c rest => exact ⟨c, rest, rfl, starts⟩
    case h_2 => cases starts
  · rintro ⟨c, rest, rfl, ident⟩
    exact ident

theorem hasScope_iff {cs : List Char} : hasScope cs ↔ Scoped cs := by
  induction cs with
  | nil =>
    constructor
    · intro has
      cases has
    · rintro ⟨scope, c, rest, parts, _⟩
      simp at parts
  | cons first cs ih =>
    rw [hasScope, Bool.or_eq_true, Bool.and_eq_true, startsPrivateName_iff, ih]
    constructor
    · rintro (⟨c, rest, here, ident⟩ | ⟨word, scope, c, rest, rfl, words, ident⟩)
      · exact ⟨[], c, rest, here, List.forall_mem_nil _, ident⟩
      · exact ⟨first :: scope, c, rest, rfl, List.forall_mem_cons.mpr ⟨word, words⟩, ident⟩
    · rintro ⟨scope, c, rest, parts, words, ident⟩
      cases scope with
      | nil => exact .inl ⟨c, rest, parts, ident⟩
      | cons d scope =>
        obtain ⟨rfl, rfl⟩ := List.cons_eq_cons.mp parts
        obtain ⟨word, words⟩ := List.forall_mem_cons.mp words
        exact .inr ⟨word, scope, c, rest, rfl, words, ident⟩

theorem hasScope_of_letter {c : Char} (other : c ≠ '_') (word : Text.isWordChar c)
    (cs : List Char) : hasScope (c :: cs) = hasScope cs := by
  have no : startsPrivateName (c :: cs) = false := by
    rw [← Bool.not_eq_true, startsPrivateName_iff]
    rintro ⟨_, _, here, _⟩
    exact other (List.cons_eq_cons.mp here).1
  rw [hasScope, no, word, Bool.false_or, Bool.true_and]

theorem hasScope_append {front : List Char}
    (letters : ∀ c ∈ front, c ≠ '_' ∧ Text.isWordChar c) (cs : List Char) :
    hasScope (front ++ cs) = hasScope cs := by
  induction front with
  | nil => rfl
  | cons c front ih =>
    obtain ⟨⟨other, word⟩, later⟩ := List.forall_mem_cons.mp letters
    exact (hasScope_of_letter other word _).trans (ih later)

/-- A private key is scoped if two low lines and a name follow on word characters; the low line at
the end of the mark may be the first of the two. -/
theorem isScopedKey_private_iff (s : String) :
    isScopedKey (privateMark ++ s) ↔ Scoped ('_' :: s.toList) := by
  have letters : ∀ c ∈ ['u', 't', 'e', 'n', 's', 'o', 'r'], c ≠ '_' ∧ Text.isWordChar c := by
    simp [Text.isWordChar]
  have mark : privateMark.toList = '_' :: ['u', 't', 'e', 'n', 's', 'o', 'r'] ++ ['_'] := by decide
  have start : Text.isIdentStart '_' = true := by decide
  unfold isScopedKey
  rw [String.toList_append, mark, List.append_assoc, List.cons_append]
  dsimp only
  rw [start, Bool.true_and, hasScope_append letters, hasScope_iff, List.singleton_append]

/-- The keys under which every value is stored as it is are the private ones. -/
theorem stored_as_is_iff (key : String) :
    (∀ v, storedAttr (key, v) = .ok (key, v)) ↔ Text.startsWith privateMark key := by
  simp only [storedAttr_eq_ok_iff]
  by_cases isPrivate : Text.startsWith privateMark key
  · simp only [isPrivate, if_true, implies_true]
  · simp only [isPrivate, Bool.false_eq_true, if_false, iff_false, not_forall]
    refine ⟨.none, ?_⟩
    rintro ⟨_, refused, _⟩
    cases refused

/-! ## Writing one operation -/

namespace Operation

variable {op : Operation} {n : Node}

/-- The operation without its private attributes. -/
def withoutPrivate (op : Operation) : Operation :=
  { op with attrs := op.attrs.filter fun e => !Text.startsWith privateMark e.1 }

/-- All private keys are scoped. -/
def ScopesPrivate (op : Operation) : Prop :=
  ∀ e ∈ op.attrs, Text.startsWith privateMark e.1 → isScopedKey e.1

/-- All values under private keys that are not scoped have a wire form. -/
def WiresPrivate (op : Operation) : Prop :=
  ∀ e ∈ op.attrs, Text.startsWith privateMark e.1 → isScopedKey e.1 = false →
    ∃ v, wireAttrOf e.2 = .ok v

/-- The attributes that a graph file holds. -/
def shownAttrs (op : Operation) : Entries String Value :=
  op.attrs.filter fun e => !isScopedKey e.1

theorem mem_shownAttrs {e : String × Value} :
    e ∈ op.shownAttrs ↔ e ∈ op.attrs ∧ isScopedKey e.1 = false := by
  unfold shownAttrs
  rw [List.mem_filter, Bool.not_eq_true']

theorem node_eq_ok_iff : op.node = .ok n ↔
    ∃ attrs, (op.shownAttrs.mapM fun e => do return (e.1, ← wireAttrOf e.2)) = .ok attrs ∧
      ⟨op.name, op.type, op.inputs.map Tensor.name, (op.attrs.get? deviceKey).getD (.text ""),
        attrs, []⟩ = n := by
  unfold node shownAttrs
  simp only [bind_eq_ok_iff, pure_eq_ok_iff]

theorem exists_node_iff :
    (∃ n, op.node = .ok n) ↔
      ∀ e ∈ op.attrs, isScopedKey e.1 = false → ∃ v, wireAttrOf e.2 = .ok v := by
  have wired : (∃ n, op.node = .ok n) ↔ ∃ attrs : List (String × Value),
      (op.shownAttrs.mapM fun e => do return (e.1, ← wireAttrOf e.2)) = .ok attrs := by
    simp only [node_eq_ok_iff]
    constructor
    · rintro ⟨_, attrs, run, _⟩
      exact ⟨attrs, run⟩
    · rintro ⟨attrs, run⟩
      exact ⟨_, attrs, run, rfl⟩
  rw [wired, exists_mapM_iff]
  simp only [mem_shownAttrs, bind_eq_ok_iff, pure_eq_ok_iff]
  constructor
  · intro each e stored shown
    obtain ⟨_, v, made, _⟩ := each e ⟨stored, shown⟩
    exact ⟨v, made⟩
  · rintro each e ⟨stored, shown⟩
    obtain ⟨v, made⟩ := each e stored shown
    exact ⟨_, v, made, rfl⟩

theorem shownAttrs_withoutPrivate : op.withoutPrivate.shownAttrs =
    op.shownAttrs.filter fun e => !Text.startsWith privateMark e.1 := by
  unfold shownAttrs withoutPrivate
  rw [List.filter_filter, List.filter_filter]
  exact List.filter_congr fun e _ => Bool.and_comm _ _

theorem device_withoutPrivate :
    op.withoutPrivate.attrs.get? deviceKey = op.attrs.get? deviceKey :=
  Entries.get?_filter (p := fun key => !Text.startsWith privateMark key) (by decide) op.attrs

theorem shownAttrs_withoutPrivate_eq_iff :
    op.withoutPrivate.shownAttrs = op.shownAttrs ↔ op.ScopesPrivate := by
  rw [shownAttrs_withoutPrivate, List.filter_eq_self]
  constructor
  · intro shared e stored isPrivate
    by_contra shown
    have none := shared e (mem_shownAttrs.mpr ⟨stored, Bool.not_eq_true _ ▸ shown⟩)
    rw [isPrivate] at none
    cases none
  · intro scopes e shown
    obtain ⟨stored, free⟩ := mem_shownAttrs.mp shown
    rw [Bool.not_eq_true', ← Bool.not_eq_true]
    intro isPrivate
    rw [scopes e stored isPrivate] at free
    cases free

/-- An operation is written as without its private attributes exactly if their keys are scoped. -/
theorem node_iff_scopesPrivate (others : op.withoutPrivate.node = .ok n) :
    op.node = .ok n ↔ op.ScopesPrivate := by
  rw [← shownAttrs_withoutPrivate_eq_iff]
  rw [node_eq_ok_iff, device_withoutPrivate] at others
  obtain ⟨attrs, wired, made⟩ := others
  constructor
  · intro run
    obtain ⟨attrs', wired', made'⟩ := node_eq_ok_iff.mp run
    cases made'.trans made.symm
    -- Each attribute that is shown gives one that is written, so none of them was taken out.
    have few := (mapM_eq_ok_iff.mp wired).length_eq
    have all := (mapM_eq_ok_iff.mp wired').length_eq
    rw [shownAttrs_withoutPrivate] at few ⊢
    rw [List.filter_eq_self, ← List.length_filter_eq_length_iff, few, all]
  · intro same
    rw [same] at wired
    exact node_eq_ok_iff.mpr ⟨attrs, wired, made⟩

end Operation

theorem Operation.exists_fault_of_node {op : Operation} {f : Fault} (run : op.node = .error f) :
    ∃ e ∈ op.attrs, isScopedKey e.1 = false ∧ wireAttrOf e.2 = .error f := by
  unfold Operation.node at run
  change (op.shownAttrs.mapM _ >>= _) = Except.error f at run
  cases wired : op.shownAttrs.mapM fun e => (do return (e.1, ← wireAttrOf e.2)) with
  | ok attrs =>
    rw [wired] at run
    cases run
  | error f' =>
    rw [wired] at run
    cases run
    obtain ⟨e, shown, failed⟩ := exists_fault_of_mapM wired
    obtain ⟨stored, free⟩ := Operation.mem_shownAttrs.mp shown
    refine ⟨e, stored, free, ?_⟩
    cases made : wireAttrOf e.2 with
    | ok v =>
      rw [made] at failed
      cases failed
    | error f' =>
      rw [made] at failed
      cases failed
      rfl

/-! ## Writing a graph -/

namespace Graph

variable {g : Graph} {nodes : List Node}

/-- The graph without the private attributes of its operations. -/
def withoutPrivate (g : Graph) : Graph := g.mapOps Operation.withoutPrivate

theorem find?_withoutPrivate (name : String) :
    g.withoutPrivate.find? name = (g.find? name).map Operation.withoutPrivate := by
  unfold withoutPrivate
  rw [find?_mapOps]
  exact fun _ => rfl

/-- A graph is written node by node in its order. -/
theorem nodes_eq_ok_iff : g.nodes = .ok nodes ↔ g.backend = tensorBackend ∧
    List.Forall₂ (fun name n => ∃ op, g.find? name = some op ∧ op.node = .ok n) g.order nodes := by
  unfold Graph.nodes
  by_cases known : g.backend = tensorBackend
  · rw [if_neg (not_not_intro known)]
    change (g.order.mapM _) = _ ↔ _
    simp only [mapM_eq_ok_iff, bind_eq_ok_iff, find_eq_ok_iff, known, true_and]
  · rw [if_pos known]
    constructor
    · intro run
      cases run
    · rintro ⟨known', _⟩
      exact absurd known' known

/-- If a graph can be written without its private attributes, so can each of its operations. -/
theorem written_of_withoutPrivate (others : g.withoutPrivate.nodes = .ok nodes) :
    g.backend = tensorBackend ∧ List.Forall₂ (fun name n =>
      ∃ op, g.find? name = some op ∧ op.withoutPrivate.node = .ok n) g.order nodes := by
  obtain ⟨known, each⟩ := nodes_eq_ok_iff.mp others
  refine ⟨known, each.imp ?_⟩
  rintro name n ⟨op', found, made⟩
  rw [find?_withoutPrivate, Option.map_eq_some_iff] at found
  obtain ⟨op, found, rfl⟩ := found
  exact ⟨op, found, made⟩

theorem forall_orderedOps_iff {P : Operation → Prop} :
    (∀ op ∈ g.orderedOps, P op) ↔ ∀ name ∈ g.order, ∀ op, g.find? name = some op → P op := by
  unfold orderedOps
  simp only [List.mem_filterMap]
  constructor
  · intro each name listed op found
    exact each op ⟨name, listed, found⟩
  · rintro each op ⟨name, listed, found⟩
    exact each name listed op found

theorem nodes_iff_scopesPrivate (others : g.withoutPrivate.nodes = .ok nodes) :
    g.nodes = .ok nodes ↔ ∀ op ∈ g.orderedOps, op.ScopesPrivate := by
  obtain ⟨known, each⟩ := written_of_withoutPrivate others
  rw [nodes_eq_ok_iff, forall_orderedOps_iff, and_iff_right known]
  refine forall₂_iff_forall each ?_
  rintro name n ⟨op, found, made⟩
  simp only [found, Option.some.injEq, forall_eq', exists_eq_left']
  exact Operation.node_iff_scopesPrivate made

/-- If the private attributes are why a graph cannot be written, the fault is that of a value under
a private key that is not scoped. -/
theorem exists_fault_of_nodes (others : g.withoutPrivate.nodes = .ok nodes) {f : Fault}
    (failed : g.nodes = .error f) :
    ∃ op ∈ g.orderedOps, ∃ e ∈ op.attrs, Text.startsWith privateMark e.1 ∧
      isScopedKey e.1 = false ∧ wireAttrOf e.2 = .error f := by
  obtain ⟨known, each⟩ := written_of_withoutPrivate others
  unfold Graph.nodes at failed
  rw [if_neg (not_not_intro known)] at failed
  obtain ⟨name, listed, failed⟩ := exists_fault_of_mapM failed
  obtain ⟨n, _, op, found, made⟩ := exists_right_of_forall₂ each listed
  rw [find_eq_ok_iff.mpr found, ok_bind] at failed
  obtain ⟨e, stored, free, fault⟩ := Operation.exists_fault_of_node failed
  refine ⟨op, List.mem_filterMap.mpr ⟨name, listed, found⟩, e, stored, ?_, free, fault⟩
  by_contra shared
  have kept : e ∈ op.withoutPrivate.attrs := List.mem_filter.mpr ⟨stored, by simpa using shared⟩
  obtain ⟨v, wired⟩ := Operation.exists_node_iff.mp ⟨n, made⟩ e kept free
  rw [fault] at wired
  cases wired

theorem exists_nodes_iff_wiresPrivate (others : g.withoutPrivate.nodes = .ok nodes) :
    (∃ nodes', g.nodes = .ok nodes') ↔ ∀ op ∈ g.orderedOps, op.WiresPrivate := by
  constructor
  · rintro ⟨nodes', run⟩ op inside e stored _ free
    obtain ⟨name, listed, found⟩ := List.mem_filterMap.mp inside
    obtain ⟨n, _, op', found', made⟩ := exists_right_of_forall₂ (nodes_eq_ok_iff.mp run).2 listed
    cases found.symm.trans found'
    exact Operation.exists_node_iff.mp ⟨n, made⟩ e stored free
  · intro wires
    cases run : g.nodes with
    | ok nodes' => exact ⟨nodes', rfl⟩
    | error f =>
      obtain ⟨op, inside, e, stored, isPrivate, free, fault⟩ := exists_fault_of_nodes others run
      obtain ⟨v, wired⟩ := wires op inside e stored isPrivate free
      rw [fault] at wired
      cases wired

/-- Private attributes and graph files. Values are stored as they are under the private keys, and of
these only the scoped ones are left out of a file. Take a graph that can be written without its
private attributes. With them the same nodes are written exactly if all private keys in the order
are scoped, and any nodes at all are written exactly if what is under the others has a wire form.
Otherwise writing fails with the fault of such a value. -/
theorem private_attributes_in_nodes (others : g.withoutPrivate.nodes = .ok nodes) :
    (∀ key, (∀ v, storedAttr (key, v) = .ok (key, v)) ↔ Text.startsWith privateMark key) ∧
    (∀ s, isScopedKey (privateMark ++ s) ↔ Scoped ('_' :: s.toList)) ∧
    (g.nodes = .ok nodes ↔ ∀ op ∈ g.orderedOps, op.ScopesPrivate) ∧
    ((∃ nodes', g.nodes = .ok nodes') ↔ ∀ op ∈ g.orderedOps, op.WiresPrivate) ∧
    ∀ f, g.nodes = .error f → ∃ op ∈ g.orderedOps, ∃ e ∈ op.attrs,
      Text.startsWith privateMark e.1 ∧ isScopedKey e.1 = false ∧ wireAttrOf e.2 = .error f :=
  ⟨stored_as_is_iff, isScopedKey_private_iff, nodes_iff_scopesPrivate others,
    exists_nodes_iff_wiresPrivate others, fun _ failed => exists_fault_of_nodes others failed⟩

/-- An addition with one value under a scoped private key and one under a key that is not scoped. -/
def notedAddition (hidden shown : Value) : Graph :=
  (Workspace.empty.build tensorBackend ["x"]
    [{ Workspace.addition "x" [] with
      attrs := [("_utensor_note__size", hidden), ("_utensor_note", shown)] }] true).1.graph 0

theorem private_attributes_in_nodes_notedAddition :
    (notedAddition (.int 3) (.attr "i" (.int 4))).withoutPrivate.nodes =
      .ok [⟨"x", "Add", [], .text "", [], []⟩] ∧
    (∃ nodes, (notedAddition (.int 3) (.attr "i" (.int 4))).nodes = .ok nodes) ∧
    (notedAddition (.int 3) (.attr "i" (.int 4))).nodes ≠
      .ok [⟨"x", "Add", [], .text "", [], []⟩] := by
  have others : (notedAddition (.int 3) (.attr "i" (.int 4))).withoutPrivate.nodes =
      .ok [⟨"x", "Add", [], .text "", [], []⟩] := rfl
  obtain ⟨_, _, same, _, _⟩ := private_attributes_in_nodes others
  refine ⟨others, ⟨_, rfl⟩, fun run => ?_⟩
  have scopes := same.mp run _ (.head _) ("_utensor_note", .attr "i" (.int 4)) (.tail _ (.head _))
  exact absurd (scopes (by decide)) (by decide)

/-- A number under a private key that is not scoped keeps a graph from being written. -/
theorem unscoped_number_stops_writing :
    storedAttrs [("_utensor_note", .int 3)] = .ok [("_utensor_note", .int 3)] ∧
    (notedAddition (.int 3) (.int 3)).withoutPrivate.nodes =
      .ok [⟨"x", "Add", [], .text "", [], []⟩] ∧
    (notedAddition (.int 3) (.int 3)).nodes = .error .noPart :=
  ⟨rfl, rfl, rfl⟩

end Graph

end TensorEmit
