import TensorEmit.Proofs.Importing
import TensorEmit.Proofs.Texts
import TensorEmit.Proofs.WireForm

/-!
# Graph files there and back

A graph that was read from a graph file is written as those nodes that its outputs need, each once
and behind the nodes it reads from (`Node.Exported`). A written node differs from the node that was
read only in that it names its data inputs in full and asks for no order, and in what neutral form
has no place for: the names that a file gives to the dimensions of a shape, and those of functions
with attributes. A node without such names has the attributes that it had (`Node.Restored`).
-/

namespace TensorEmit

/-! ## Full names -/

namespace TensorName

/-- The name of an operation that an input can name: it has no colon in it and is not marked. -/
def IsBare (name : String) : Prop := ':' ∉ name.toList ∧ name.toList.head? ≠ some '^'

theorem dropControlMark_of_isBare {name : String} (bare : IsBare name) :
    dropControlMark name = name := by
  unfold dropControlMark
  split
  · rename_i marked
    exact absurd (by rw [marked]; rfl) bare.2
  · rfl

/-- The first part of a name has no colon in it and starts the name. -/
theorem first_of_splitAt {s first : String} {rest : List String}
    (parts : Text.splitAt ":" s = first :: rest) :
    ':' ∉ first.toList ∧ first.toList <+: s.toList := by
  unfold Text.splitAt at parts
  obtain ⟨cs, css, split, rfl, rfl⟩ := List.map_eq_cons_iff.mp parts
  have whole := Text.intercalate_splitChars (show ":".toList ≠ [] by decide) s.toList [] 0
  rw [split] at whole
  rw [String.toList_ofList]
  constructor
  · exact Text.not_mem_of_mem_splitChars List.not_mem_nil (split ▸ List.mem_cons_self)
  · cases css with
    | nil => exact ⟨[], by simpa using whole⟩
    | cons cs' css =>
      rw [List.intercalate_cons_of_ne_nil (by simp), List.append_assoc] at whole
      exact ⟨_, whole⟩

/-- What a data input names is bare. -/
theorem isBare_of_parse {s : String} {t : TensorName} (data : s.toList.head? ≠ some '^')
    (run : parse s = .ok t) : IsBare t.op := by
  have bare : ∀ {op rest}, Text.splitAt ":" s = op :: rest → IsBare op := by
    intro op rest parts
    obtain ⟨noColon, start, whole⟩ := first_of_splitAt parts
    refine ⟨noColon, fun marked => data ?_⟩
    rw [← whole, List.head?_append, marked]
    rfl
  unfold parse at run
  split at run
  case h_1 op parts =>
    cases run
    have here := bare parts
    rw [← dropControlMark_of_isBare here] at here
    exact here
  case h_2 op index parts =>
    split at run
    · cases run
      have here := bare parts
      rw [← dropControlMark_of_isBare here] at here
      exact here
    · cases run
  case h_3 => cases run

/-- A text with one colon has two parts. -/
theorem splitAt_of_one_colon {left right : String} (leftFree : ':' ∉ left.toList)
    (rightFree : ':' ∉ right.toList) :
    Text.splitAt ":" (left ++ ":" ++ right) = [left, right] := by
  unfold Text.splitAt
  rw [String.toList_append, String.toList_append, List.append_assoc]
  change (Text.splitChars [':'] (left.toList ++ ':' :: right.toList) [] 0).map String.ofList = _
  rw [Text.splitChars_append leftFree, Text.splitChars_of_not_mem rightFree]
  simp only [List.reverse_nil, List.nil_append, List.map_cons, List.map_nil, String.ofList_toList]

/-- A full name is taken apart into what it was made of, if its place is not too long to be read. -/
theorem eq_of_parse_full {op : String} {i : Nat} {t : TensorName} (bare : IsBare op)
    (run : parse (op ++ ":" ++ toString i) = .ok t) : t = ⟨op, i⟩ := by
  have digits : ':' ∉ (toString i).toList := by
    intro member
    cases Text.isDigit_of_mem_decimal member
  have parts := splitAt_of_one_colon bare.1 digits
  unfold parse at run
  rw [parts] at run
  dsimp only at run
  split at run
  case h_1 index read =>
    cases run
    rw [dropControlMark_of_isBare bare, Text.eq_of_readInt?_decimal read]
  case h_2 => cases run

end TensorName

/-! ## Nodes and their inputs -/

namespace Node

variable {nodes : List Node}

theorem source_eq_ok_iff {s : String} {m : Node} {out : NodeOutput} {i : Nat} :
    source nodes s = .ok (m, out, i) ↔ ∃ name, TensorName.parse s = .ok name ∧
      find? nodes name.op = some m ∧ pick m.outputs.zipIdx name.index = some (out, i) := by
  unfold source
  rw [bind_eq_ok_iff]
  constructor
  · rintro ⟨name, parsed, run⟩
    refine ⟨name, parsed, ?_⟩
    split at run
    · cases run
    case h_2 n found =>
      split at run
      · cases run
      case h_2 made picked =>
        cases run
        exact ⟨found, picked⟩
  · rintro ⟨name, parsed, here, picked⟩
    refine ⟨name, parsed, ?_⟩
    rw [here]
    dsimp only
    rw [picked]
    rfl

theorem find?_name {name : String} {m : Node} (found : find? nodes name = some m) :
    m.name = name := by
  have holds := List.find?_some found
  simpa using holds

/-- A node is found under its name if no other node has it. -/
theorem find?_of_mem {n : Node} (distinct : (nodes.map Node.name).Nodup) (member : n ∈ nodes) :
    find? nodes n.name = some n := by
  cases found : find? nodes n.name with
  | none =>
    rw [find?, List.find?_eq_none] at found
    exact absurd (decide_eq_true rfl) (found n (List.mem_reverse.mpr member))
  | some m =>
    have inside : m ∈ nodes := List.mem_reverse.mp (List.mem_of_find?_eq_some found)
    rw [List.inj_on_of_nodup_map distinct inside member (find?_name found)]

theorem body_of_mem (distinct : (nodes.map Node.name).Nodup) {n : Node} (member : n ∈ nodes) :
    n.body nodes = n := by
  unfold body
  rw [find?_of_mem distinct member, Option.getD_some]

theorem producer_of_source {s : String} {m : Node} {out : NodeOutput} {i : Nat}
    (found : source nodes s = .ok (m, out, i)) : TensorName.producer s = .ok m.name := by
  obtain ⟨name, parsed, here, _⟩ := source_eq_ok_iff.mp found
  rw [find?_name here]
  exact map_eq_ok_iff.mpr ⟨name, parsed, rfl⟩

/-- The full name of what a data input names names the same. -/
theorem source_full {s p : String} {m : Node} {out : NodeOutput} {i : Nat}
    (data : s.toList.head? ≠ some '^') (found : source nodes s = .ok (m, out, i))
    (produced : TensorName.producer (m.name ++ ":" ++ toString i) = .ok p) :
    source nodes (m.name ++ ":" ++ toString i) = .ok (m, out, i) := by
  obtain ⟨name, parsed, here, picked⟩ := source_eq_ok_iff.mp found
  have same := find?_name here
  have bare := TensorName.isBare_of_parse data parsed
  rw [← same] at here bare
  obtain ⟨name', parsed', _⟩ := map_eq_ok_iff.mp produced
  cases TensorName.eq_of_parse_full bare parsed'
  refine source_eq_ok_iff.mpr ⟨_, parsed', here, ?_⟩
  have listed := List.mem_zipIdx_iff_getElem?.mp (mem_of_pick picked)
  simp [pick, List.getElem?_zipIdx, listed]

/-- Two inputs name the same output of the same node. -/
def SameSource (nodes : List Node) (s s' : String) : Prop :=
  ∃ m out i, source nodes s = .ok (m, out, i) ∧ source nodes s' = .ok (m, out, i)

/-- The name of a tensor, if it can be taken apart, names what the data input names. -/
theorem Names.sameSource {s p : String} {t : Tensor} (data : s.toList.head? ≠ some '^')
    (named : Names nodes s t) (produced : TensorName.producer t.name = .ok p) :
    SameSource nodes s t.name := by
  obtain ⟨m, out, i, found, content⟩ := named
  have name : t.name = m.name ++ ":" ++ toString i :=
    Tensor.name_of_content (t := m.outputTensor 0 0 i out) content
  rw [name] at produced ⊢
  exact ⟨m, out, i, found, source_full data found produced⟩

theorem head_of_mem_dataInputs {n : Node} {s : String} (member : s ∈ n.dataInputs) :
    s.toList.head? ≠ some '^' := by
  simpa using (List.mem_filter.mp member).2

/-- A node reads from another node. -/
def ReadsFrom (nodes : List Node) (name need : String) : Prop :=
  ∃ n ∈ nodes, n.name = name ∧
    ∃ s ∈ n.dataInputs, ∃ m out i, source nodes s = .ok (m, out, i) ∧ m.name = need

/-- Outputs need a node, directly or through the data inputs of others. -/
def Needed (nodes : List Node) (outputs : List String) (name : String) : Prop :=
  ∃ out ∈ outputs, Relation.ReflTransGen (ReadsFrom nodes) out name

/-- A node that is written is as it was read, with attributes that were neutral in between, and its
inputs name the same tensors. -/
structure Restored (nodes : List Node) (n n' : Node) : Prop where
  name : n'.name = n.name
  type : n'.type = n.type
  device : n'.device = n.device
  attrs : n'.attrs = Value.attrsReturned n.attrs
  same : n'.attrs = n.attrs ↔ Value.AttrsKept n.attrs
  inputs : List.Forall₂ (SameSource nodes) n.dataInputs n'.inputs

end Node

/-! ## Graphs of nodes of different names -/

namespace Graph

variable {nodes : List Node} {g : Graph}

/-- The operations of a graph are read from nodes of different names, one for each node. -/
structure ReadOnce (g : Graph) (nodes : List Node) : Prop where
  distinct : (nodes.map Node.name).Nodup
  ops : List.Forall₂ (Node.Read nodes) nodes g.ops

/-- An operation has a tensor for each data input of its node. -/
theorem ReadOnce.reads (once : g.ReadOnce nodes) :
    List.Forall₂ (fun n op => n.Read nodes op ∧
      List.Forall₂ (Node.Names nodes) n.dataInputs op.inputs) nodes g.ops := by
  refine ((List.forall₂_and_left _ _).mpr ⟨fun n member => member, once.ops⟩).imp ?_
  rintro n op ⟨member, read⟩
  have inputs := read.inputs
  rw [Node.body_of_mem once.distinct member] at inputs
  exact ⟨read, inputs⟩

theorem ReadOnce.nodup (once : g.ReadOnce nodes) : (g.ops.map Operation.name).Nodup := by
  have names := views_of_forall₂ (once.ops.imp fun _ _ read => read.name)
  rw [names]
  exact once.distinct

theorem ReadOnce.readsFrom_of_needs (once : g.ReadOnce nodes) {name need : String}
    (needs : g.Needs name need) : Node.ReadsFrom nodes name need := by
  obtain ⟨op, found, t, read, produced⟩ := needs
  obtain ⟨n, inside, made, inputs⟩ := exists_left_of_forall₂ once.reads (mem_of_find? found)
  obtain ⟨s, listed, named⟩ := exists_left_of_forall₂ inputs read
  obtain ⟨m, out, i, source, full⟩ :=
    named.sameSource (Node.head_of_mem_dataInputs listed) produced
  rw [Node.producer_of_source full] at produced
  exact ⟨n, inside, made.name.symm.trans (find?_name found), s, listed, m, out, i, source,
    Except.ok.inj produced⟩

theorem ReadOnce.needed_of_reachable (once : g.ReadOnce nodes) {name : String}
    (reached : g.Reachable name) : Node.Needed nodes g.outputs name := by
  obtain ⟨out, output, path⟩ := reached
  exact ⟨out, output, Relation.ReflTransGen.mono (fun _ _ => once.readsFrom_of_needs) _ _ path⟩

/-- A name of the order and the node that is written for it. -/
structure Written (g : Graph) (nodes : List Node) (name : String) (n' : Node) : Prop where
  named : n'.name = name
  inputs : ∃ op, g.find? name = some op ∧ n'.inputs = op.inputs.map Tensor.name
  restored : ∃ n ∈ nodes, n.Restored nodes n'

theorem ReadOnce.written (once : g.ReadOnce nodes) (plain : ∀ n ∈ nodes, n.Plain)
    {names : List String} (ordered : g.Ordered names) {name : String} (listed : name ∈ names) :
    ∃ n', (g.find name >>= Operation.node) = .ok n' ∧ g.Written nodes name n' := by
  obtain ⟨op, found⟩ := ordered.found listed
  obtain ⟨n, inside, made, inputs⟩ := exists_left_of_forall₂ once.reads (mem_of_find? found)
  have sources : List.Forall₂ (Node.SameSource nodes) n.dataInputs (op.inputs.map Tensor.name) := by
    rw [List.forall₂_map_right_iff]
    refine List.forall₂_iff_zip.mpr ⟨inputs.length_eq, fun {s t} pair => ?_⟩
    obtain ⟨input, read⟩ := List.of_mem_zip pair
    obtain ⟨p, produced⟩ := ordered.producer listed found read
    exact ((List.forall₂_iff_zip.mp inputs).2 pair).sameSource
      (Node.head_of_mem_dataInputs input) produced
  have node := (plain n inside).node_of_read made
  refine ⟨_, bind_eq_ok_iff.mpr ⟨op, find_eq_ok_iff.mpr found, node⟩, ?_, ⟨op, found, rfl⟩, n,
    inside, rfl, rfl, rfl, rfl, Value.attrsReturned_eq_self_iff n.attrs, sources⟩
  exact made.name.symm.trans (find?_name found)

/-- A graph that was read from nodes of different names. -/
theorem readOnce_of_addNodes {id : GraphId} {base : Nat} {names : List String}
    (distinct : (nodes.map Node.name).Nodup)
    (run : Graph.addNodes nodes id base ⟨[], [], names, tensorBackend⟩ nodes = .ok g) :
    g.ReadOnce nodes := by
  obtain ⟨ops, same, related⟩ := ops_of_addNodes distinct (by simp) run
  rw [List.nil_append] at same
  rw [← same] at related
  exact ⟨distinct, related⟩

/-- A quantised constant, an operation with a list attribute that reads it, and a node that it only
has to follow. -/
def listedNodes : List Node :=
  let levels : Value := .wireTensor (.array ⟨.quint8, [2], [3, 250]⟩)
  [⟨"levels", "Const", [], .text "",
     [("dtype", .wireAttr (some "type") (.int 12)), ("value", .wireAttr (some "tensor") levels)],
     [⟨.quint8, some [.int 2]⟩]⟩,
   ⟨"first", "NoOp", [], .text "", [], []⟩,
   ⟨"y", "Pack", ["levels", "levels:0", "^first"], .text "/cpu:0",
     [("all", .wireAttr (some "list") (.wireItems [.bytes [1]] [.int 7] [] [.bool true] []
       [.writtenShape (some [.int 2, .none]), .writtenShape none] [levels] [.wireFunc "relu" []]))],
     [⟨.quint8, none⟩]⟩]

attribute [local instance] Importer.strict

end Graph

end TensorEmit
