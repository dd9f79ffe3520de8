import TensorEmit.Proofs.UseCounts

/-!
# Graphs over histories of changes

A graph holds its operations and, apart from them, an order of evaluation, and not every change
touches both. `Graph.Consistent` says what the two always have to do with each other. It is weaker
than `Graph.Ordered`: an operation of the order may read a tensor of one that was taken out.

`Workspace.Edit` lists the changes, and `Workspace.Edit.run` makes one of them whether it fails or
not. Every change keeps all graphs of a workspace consistent (`Workspace.Edit.sound_run`), so after
any history of changes, failed ones included, every graph can be listed and written without a look
for an operation that is not there.
-/

namespace TensorEmit

namespace Graph

/-! ## Consistent graphs -/

/-- The names in the order of evaluation do not repeat, each is that of exactly one operation, and
an operation that needs another one of the order stands behind it. -/
structure Consistent (g : Graph) : Prop where
  distinct : (g.ops.map Operation.name).Nodup
  nodup : g.order.Nodup
  found : ∀ name ∈ g.order, ∃ op, g.find? name = some op ∧ op.name = name
  behind : ∀ before name after, g.order = before ++ name :: after →
    ∀ need ∈ g.order, g.Needs name need → need ∈ before

theorem consistent_of_ordered {g : Graph} (distinct : (g.ops.map Operation.name).Nodup)
    (ordered : g.Ordered g.order) : g.Consistent := by
  refine ⟨distinct, ordered.nodup, ?_, ?_⟩
  · intro name listed
    obtain ⟨op, found⟩ := ordered.found listed
    exact ⟨op, found, find?_name found⟩
  · intro before name after parts need _ needs
    obtain ⟨_, _, op, found, inputs⟩ := ordered.split parts
    obtain ⟨op', found', t, read, made⟩ := needs
    have same : op = op' := Option.some.inj (found.symm.trans found')
    subst same
    obtain ⟨p, earlier, made'⟩ := inputs t read
    have producer : p = need := Except.ok.inj (made'.symm.trans made)
    exact producer ▸ earlier

/-- Without an order there is nothing to be consistent with. -/
theorem consistent_of_order_nil {g : Graph} (distinct : (g.ops.map Operation.name).Nodup)
    (none : g.order = []) : g.Consistent := by
  refine ⟨distinct, none ▸ List.nodup_nil, ?_, ?_⟩
  · intro name listed
    rw [none] at listed
    cases listed
  · intro before name after parts
    have empty := none.symm.trans parts
    simp at empty

theorem consistent_empty : empty.Consistent := consistent_of_order_nil List.nodup_nil rfl

theorem has_iff_mem_names {g : Graph} {name : String} :
    g.has name = true ↔ name ∈ g.ops.map Operation.name := by
  unfold has find?
  rw [List.find?_isSome]
  simp

theorem found_iff_mem_names {g : Graph} {name : String} :
    (∃ op, g.find? name = some op ∧ op.name = name) ↔ name ∈ g.ops.map Operation.name := by
  rw [← has_iff_mem_names, has, Option.isSome_iff_exists]
  constructor
  · rintro ⟨op, found, _⟩
    exact ⟨op, found⟩
  · rintro ⟨op, found⟩
    exact ⟨op, found, find?_name found⟩

/-- Consistency depends on the wires and the order only. -/
theorem Consistent.congr {g g' : Graph} (consistent : g.Consistent) (wires : g'.wires = g.wires)
    (order : g'.order = g.order) : g'.Consistent := by
  have names : g'.ops.map Operation.name = g.ops.map Operation.name := by
    rw [names_eq_wires, wires, ← names_eq_wires]
  have needs : ∀ a b, g'.Needs a b ↔ g.Needs a b := by
    intro a b
    rw [needs_iff_wires, needs_iff_wires, wires]
  refine ⟨names ▸ consistent.distinct, order ▸ consistent.nodup, ?_, ?_⟩
  · intro name listed
    rw [found_iff_mem_names, names, ← found_iff_mem_names]
    exact consistent.found name (order ▸ listed)
  · intro before name after parts need listed needs'
    rw [order] at parts listed
    exact consistent.behind before name after parts need listed ((needs name need).mp needs')

/-! ## Changes of one graph -/

theorem find?_put_of_ne {g : Graph} {op : Operation} {name : String} (fresh : g.has op.name = false)
    (other : name ≠ op.name) : (g.put op).find? name = g.find? name := by
  have added : (g.put op).ops = g.ops ++ [op] := by
    unfold put
    rw [if_neg (by simp [fresh])]
  unfold find?
  rw [added, List.find?_append]
  simp [Ne.symm other]

/-- An operation of a new name leaves a graph consistent, also before the graph is sorted again. -/
theorem Consistent.put {g : Graph} (consistent : g.Consistent) {op : Operation}
    (fresh : g.has op.name = false) : (g.put op).Consistent := by
  have order : (g.put op).order = g.order := by
    unfold Graph.put
    rw [if_neg (by simp [fresh])]
  -- The new operation is not in the order, so the order looks up what it did before.
  have same : ∀ name ∈ g.order, (g.put op).find? name = g.find? name := by
    intro name listed
    apply find?_put_of_ne fresh
    rintro rfl
    have known := found_iff_mem_names.mp (consistent.found _ listed)
    rw [← has_iff_mem_names, fresh] at known
    cases known
  refine ⟨nodup_put consistent.distinct, order ▸ consistent.nodup, ?_, ?_⟩
  · intro name listed
    rw [order] at listed
    rw [same name listed]
    exact consistent.found name listed
  · intro before name after parts need listed needs
    rw [order] at parts listed
    have inOrder : name ∈ g.order := by simp [parts]
    unfold Needs at needs
    rw [same name inOrder] at needs
    exact consistent.behind before name after parts need listed needs

theorem find?_forget_of_ne {g : Graph} {dropped name : String} (other : name ≠ dropped) :
    (g.forget dropped).find? name = g.find? name := by
  unfold find? forget
  rw [List.find?_filter]
  congr 1
  funext op
  by_cases same : op.name = name
  · simp [same, other]
  · simp [same]

/-- A graph without an operation, which its order does not list any more. -/
def dropped (g : Graph) (name : String) : Graph :=
  { g.forget name with order := g.order.erase name }

theorem order_dropped {g : Graph} (nodup : g.order.Nodup) (gone : String) :
    (g.dropped gone).order = g.order.filter fun name => name ≠ gone := by
  change g.order.erase gone = _
  rw [nodup.erase_eq_filter]
  refine List.filter_congr fun name _ => ?_
  by_cases same : name = gone
  · simp [same]
  · simp [same]

theorem mem_order_dropped {g : Graph} (nodup : g.order.Nodup) {gone name : String} :
    name ∈ (g.dropped gone).order ↔ name ∈ g.order ∧ name ≠ gone := by
  rw [order_dropped nodup, List.mem_filter, decide_eq_true_eq]

/-- A list without repetition has one split at each of its members. -/
theorem eq_of_split {xs before after front back : List String} {x : String} (nodup : xs.Nodup)
    (parts : xs = before ++ x :: after) (parts' : xs = front ++ x :: back) : before = front := by
  rw [parts', List.nodup_append, List.nodup_cons] at nodup
  obtain ⟨_, ⟨notBehind, _⟩, apart⟩ := nodup
  have notBefore : x ∉ front := fun early => apart x early x (by simp) rfl
  have heads := (List.append_cons_inj_of_notMem notBefore notBehind).mp (parts'.symm.trans parts)
  exact heads.1.symm

/-- An operation that is taken out of a graph and out of its order leaves both consistent. -/
theorem Consistent.dropped {g : Graph} (consistent : g.Consistent) (gone : String) :
    (g.dropped gone).Consistent := by
  have nodup := consistent.nodup
  have same : ∀ name, name ≠ gone → (g.dropped gone).find? name = g.find? name :=
    fun name other => find?_forget_of_ne other
  have nodup' : (g.dropped gone).order.Nodup := nodup.erase gone
  refine ⟨consistent.distinct.sublist (List.filter_sublist.map _), nodup', ?_, ?_⟩
  · intro name listed
    have inside := (mem_order_dropped nodup).mp listed
    rw [same name inside.2]
    exact consistent.found name inside.1
  · intro before name after parts need listed needs
    have member : name ∈ (g.dropped gone).order := by
      rw [parts]
      simp
    have inside := (mem_order_dropped nodup).mp member
    have needed := (mem_order_dropped nodup).mp listed
    unfold Needs at needs
    rw [same name inside.2] at needs
    -- The split of the shorter order comes from a split of the whole one.
    obtain ⟨front, back, whole⟩ := List.append_of_mem inside.1
    have earlier := consistent.behind front name back whole need needed.1 needs
    have shorter : (g.dropped gone).order =
        front.filter (fun n => n ≠ gone) ++ name :: back.filter fun n => n ≠ gone := by
      rw [order_dropped nodup, whole, List.filter_append,
        List.filter_cons_of_pos (by simpa using inside.2)]
    rw [eq_of_split nodup' parts shorter, List.mem_filter, decide_eq_true_eq]
    exact ⟨earlier, needed.2⟩

theorem Consistent.sort {g g' : Graph} (consistent : g.Consistent) (run : g.sort = .ok g') :
    g'.Consistent := by
  obtain ⟨names, sorted, rfl⟩ := sort_eq_ok_iff.mp run
  refine consistent_of_ordered consistent.distinct ?_
  exact (ordered_of_sorted sorted).transport fun _ _ op found => ⟨op, found, rfl⟩

theorem Consistent.copied {g g' : Graph} (consistent : g.Consistent) (copied : g.Copied g') :
    g'.Consistent :=
  consistent.congr (wires_of_alike copied.ops) copied.order

theorem order_of_counted {g g' : Graph} (run : g.counted = .ok g') : g'.order = g.order := by
  rw [eq_of_counted run]
  rfl

theorem Consistent.dropoutRemoved {g g' : Graph} (consistent : g.Consistent) {base : Nat}
    {owner : GraphId} (run : g.dropoutRemoved base owner = .ok g') : g'.Consistent := by
  have distinct : (g'.ops.map Operation.name).Nodup := by
    rw [names_of_dropoutRemoved run]
    exact consistent.nodup.filter _
  obtain ⟨_, _, _, _, rfl⟩ := dropoutRemoved_eq_ok_iff.mp run
  exact consistent_of_order_nil distinct rfl

theorem consistent_of_ofNodes [Importer] {base : Nat} {id : GraphId} {nodes : List Node}
    {outputs : Value}
    {g : Graph} (run : Graph.ofNodes base id nodes outputs = .ok g) : g.Consistent := by
  refine consistent_of_ordered ?_ (ordered_of_ofNodes run)
  obtain ⟨names, g₁, _, _, added, sort⟩ := ofNodes_ok run
  obtain ⟨order, _, rfl⟩ := sort_eq_ok_iff.mp sort
  have distinct : (g₁.ops.map Operation.name).Nodup :=
    nodup_addNodes (g := ⟨[], [], names, tensorBackend⟩) List.nodup_nil added
  exact distinct

/-! ## Listing and writing -/

/-- Loops one after the other go through the same members. -/
theorem mapM_bind_of_mapM {α β γ : Type} {f : α → Except Fault β} {h : β → Except Fault γ}
    {xs : List α} {ys : List β} (run : xs.mapM f = .ok ys) :
    (xs.mapM fun x => f x >>= h) = ys.mapM h := by
  have related := mapM_eq_ok_iff.mp run
  clear run
  induction related with
  | nil => rfl
  | cons head _ ih => rw [List.mapM_cons, List.mapM_cons, head, ok_bind, ih]

/-- The operations of a consistent graph can be listed in order, and to write the graph is to write
these operations. -/
theorem Consistent.listed {g : Graph} (consistent : g.Consistent) :
    ∃ ops, g.inOrder = .ok ops ∧ ops.map Operation.name = g.order ∧
      g.nodes = if g.backend = tensorBackend then ops.mapM Operation.node
        else .error .foreignBackend := by
  have each : ∀ name ∈ g.order, ∃ op, g.find name = .ok op ∧ op.name = name := by
    intro name listed
    obtain ⟨op, found, named⟩ := consistent.found name listed
    exact ⟨op, find_eq_ok_iff.mpr found, named⟩
  obtain ⟨ops, run, related⟩ := exists_mapM_related each
  have names := views_of_forall₂ (u := id) related
  rw [List.map_id] at names
  refine ⟨ops, run, names, ?_⟩
  unfold Graph.nodes
  by_cases own : g.backend = tensorBackend
  · rw [if_neg (by simp [own]), if_pos own]
    exact mapM_bind_of_mapM run
  · rw [if_pos own, if_neg own]
    rfl

end Graph

/-! ## Changes of a workspace -/

namespace Workspace

/-- Every graph of a workspace is consistent. -/
def Sound (w : Workspace) : Prop := ∀ id, (w.graph id).Consistent

theorem graph_add_eq (w : Workspace) (g : Graph) (id : GraphId) :
    (w.add g).graph id = if id = w.nextGraph then g else w.graph id := by
  by_cases last : id = w.nextGraph
  · rw [if_pos last, last, graph_add]
  · rw [if_neg last]
    unfold Workspace.graph Workspace.add
    rw [List.getD, List.getD, List.getElem?_append]
    split
    · rfl
    · rename_i outside
      have beyond : w.graphs.length < id :=
        Nat.lt_of_le_of_ne (Nat.le_of_not_lt outside) (Ne.symm last)
      have tail : [g].length ≤ id - w.graphs.length := Nat.le_sub_of_add_le' beyond
      rw [List.getElem?_eq_none tail, List.getElem?_eq_none (Nat.le_of_lt beyond)]

theorem graph_set_cases (w : Workspace) (id : GraphId) (g : Graph) (other : GraphId) :
    (w.set id g).graph other = g ∨ (w.set id g).graph other = w.graph other := by
  unfold Workspace.graph Workspace.set
  rw [List.getD, List.getD, List.getElem?_set]
  split
  · split
    · exact .inl rfl
    · rename_i same outside
      subst same
      exact .inr (by rw [List.getElem?_eq_none (by omega)])
  · exact .inr rfl

theorem sound_empty : Workspace.empty.Sound := fun _ => Graph.consistent_empty

theorem Sound.add {w : Workspace} (sound : w.Sound) {g : Graph} (consistent : g.Consistent) :
    (w.add g).Sound := by
  intro id
  rw [graph_add_eq]
  split
  · exact consistent
  · exact sound id

theorem Sound.adding {w : Workspace} (sound : w.Sound) {r : Except Fault Graph}
    (consistent : ∀ g, r = .ok g → g.Consistent) (n : Nat) : (w.adding n r).1.Sound := by
  cases r with
  | error f => exact sound
  | ok g => exact sound.add (consistent g rfl)

theorem Sound.set {w : Workspace} (sound : w.Sound) (id : GraphId) {g : Graph}
    (consistent : g.Consistent) : (w.set id g).Sound := by
  intro other
  rcases w.graph_set_cases id g other with new | old
  · rw [new]
    exact consistent
  · rw [old]
    exact sound other

theorem Sound.sort {w : Workspace} (sound : w.Sound) (id : GraphId) : (w.sort id).1.Sound := by
  unfold Workspace.sort
  split
  · exact sound
  · rename_i g sorted
    exact sound.set id ((sound id).sort sorted)

theorem Sound.copy {w : Workspace} (sound : w.Sound) (id : GraphId) : (w.copy id).1.Sound :=
  sound.adding (fun _ copied => (sound id).copied (Graph.copied_of_copy copied)) w.next

theorem Sound.addShared {w : Workspace} (sound : w.Sound) (id : GraphId) (op : Operation) :
    (w.addShared id op).1.Sound := by
  unfold Workspace.addShared
  split
  · exact sound
  · rename_i absent
    have fresh : (w.graph id).has op.name = false := by simpa using absent
    exact (sound.set id ((sound id).put fresh)).sort id

theorem Sound.dropOperation {w : Workspace} (sound : w.Sound) (id : GraphId) (name : String) :
    (w.dropOperation id name).1.Sound := by
  unfold Workspace.dropOperation
  dsimp only
  split
  · exact sound.set id ((sound id).dropped name)
  · exact sound

theorem Sound.ofNodes [Importer] {w : Workspace} (sound : w.Sound) (nodes : List Node)
    (outputs : Value) : (w.ofNodes nodes outputs).1.Sound :=
  sound.adding (fun _ read => Graph.consistent_of_ofNodes read) (Node.numbersOf nodes)

/-! ### Building -/

/-- What putting a new operation into a graph keeps is kept by adding new operations, whether this
fails or not. -/
theorem addAllNew_invariant {P : Workspace → Prop} {id : GraphId}
    (put : ∀ {w s op}, makeOperation w.next id s = .ok op → P w →
      P ((w.set id ((w.graph id).put op)).reserve (numbersFor s)))
    {w w' : Workspace} {specs : List OperationSpec} {r : Except Fault Unit} (start : P w)
    (run : w.addAllNew id specs = (w', r)) : P w' := by
  induction specs generalizing w with
  | nil =>
    cases run
    exact start
  | cons s rest ih =>
    unfold addAllNew addNew at run
    cases made : makeOperation w.next id s with
    | error f =>
      rw [made] at run
      cases run
      exact start
    | ok op =>
      rw [made] at run
      exact ih (put made start) run

theorem addAllNew_sound {w : Workspace} (sound : w.Sound) {id : GraphId}
    (unsorted : (w.graph id).order = []) (specs : List OperationSpec) :
    (w.addAllNew id specs).1.Sound := by
  -- While a graph is built it has no order.
  refine (addAllNew_invariant (P := fun w => w.Sound ∧ (w.graph id).order = []) ?_
    ⟨sound, unsorted⟩ rfl).1
  rintro w s op - ⟨sound, unsorted⟩
  have order : ((w.graph id).put op).order = [] := by
    unfold Graph.put
    split
    · exact unsorted
    · exact unsorted
  have put : ((w.graph id).put op).Consistent :=
    Graph.consistent_of_order_nil (Graph.nodup_put (sound id).distinct) order
  refine ⟨sound.set id put, ?_⟩
  rw [graph_reserve]
  rcases w.graph_set_cases id ((w.graph id).put op) id with new | old
  · rw [new]
    exact order
  · rw [old]
    exact unsorted

theorem Sound.build {w : Workspace} (sound : w.Sound) (backend : String) (outputs : List String)
    (specs : List OperationSpec) (sorted : Bool) :
    (w.build backend outputs specs sorted).1.Sound := by
  have start : (w.add ⟨[], [], outputs, backend⟩).Sound :=
    sound.add (Graph.consistent_of_order_nil List.nodup_nil rfl)
  have unsorted : ((w.add ⟨[], [], outputs, backend⟩).graph w.nextGraph).order = [] := by
    rw [graph_add]
  have added := addAllNew_sound start unsorted specs
  unfold Workspace.build
  dsimp only
  split
  · exact sound
  · rename_i w₁ _ ran
    rw [ran] at added
    split
    · have ordered := Sound.sort added w.nextGraph
      split
      · exact sound
      · rename_i w₂ _ ran'
        rw [ran'] at ordered
        exact ordered
    · exact added

/-! ### Passes -/

theorem Sound.inlineAll {w : Workspace} (sound : w.Sound) (id : GraphId) (names : List String) :
    (w.inlineAll id names).1.Sound := by
  intro other
  have retyped := w.retyped_of_inlineAll id names other
  refine (sound other).congr retyped.wires ?_
  obtain ⟨type, _, same⟩ := retyped
  rw [same]
  rfl

theorem Sound.apply [Importer] {quantizer : Quantizer} {w : Workspace} (sound : w.Sound)
    (id : GraphId) (pass : Pass) : (w.apply quantizer id pass).1.Sound := by
  cases pass with
  | refCount =>
    refine sound.adding (fun g counted => ?_) w.next
    obtain ⟨c, copied, counts⟩ := bind_eq_ok_iff.mp counted
    have consistent := (sound id).copied (Graph.copied_of_copy copied)
    exact consistent.congr (Graph.wires_of_counted counts) (Graph.order_of_counted counts)
  | dropout =>
    exact sound.adding (fun _ removed => (sound id).dropoutRemoved removed) (w.graph id).numbers
  | batchNorm => exact sound
  | quantize =>
    simp only [Workspace.apply, Workspace.quantize]
    split
    · exact sound
    · split
      · exact sound
      · rename_i nodes _ _ nodes' _
        -- What was handed over is noted, but no graph changes before the new one is read.
        have noted : Workspace.Sound { w with
            handovers := w.handovers ++ [⟨nodes, [], (w.graph id).outputs, quantizeTransforms⟩] } :=
          sound
        exact noted.ofNodes nodes' _
  | inline => exact sound.inlineAll id _

theorem Sound.prune {w : Workspace} (sound : w.Sound) {id : GraphId} {g₀ : Graph}
    (sorted : g₀.sort = .ok (w.graph id)) : (w.prune id).1.Sound := by
  refine sound.adding (fun g pruned => ?_) w.next
  obtain ⟨c, copied, kept⟩ := bind_eq_ok_iff.mp pruned
  have settled : g₀.Settled (.bool true) g :=
    .pruned rfl sorted (Graph.prunedCopy_of_pruned copied kept)
  refine Graph.consistent_of_ordered ?_ settled.ordered
  obtain ⟨names, search, rfl⟩ := Graph.pruned_eq_ok_iff.mp kept
  have distinct := ((sound id).copied (Graph.copied_of_copy copied)).distinct
  exact distinct.sublist (List.filter_sublist.map _)

theorem Sound.runStep [Importer] {quantizer : Quantizer} {w : Workspace} (sound : w.Sound)
    (id : GraphId) (s : PassStep) : (w.runStep quantizer id s).1.Sound := by
  have applied : (w.apply quantizer id s.pass).1.Sound := sound.apply id s.pass
  have ordered : ∀ {w₁ w₂ : Workspace} {id₁ : GraphId} {r : Except Fault Unit},
      w.apply quantizer id s.pass = (w₁, .ok id₁) → w₁.sort id₁ = (w₂, r) → w₂.Sound := by
    intro w₁ w₂ id₁ r ran sorts
    rw [ran] at applied
    have sorted := Sound.sort applied id₁
    rw [sorts] at sorted
    exact sorted
  generalize run : w.runStep quantizer id s = x
  cases outcome_of_runStep run with
  | failed ran =>
    rw [ran] at applied
    exact applied
  | unsorted ran sorts => exact ordered ran sorts
  | undecided ran sorts _ => exact ordered ran sorts
  | sorted ran sorts _ => exact ordered ran sorts
  | pruned ran sorts _ made =>
    rw [← made]
    exact Sound.prune (ordered ran sorts) (graph_of_sort sorts)

/-! ## Histories -/

/-- A change of a workspace. -/
inductive Edit where
  /-- Builds a graph from operations and sorts it. -/
  | build (backend : String) (outputs : List String) (ops : List OperationSpec)
  | read (nodes : List Node) (outputs : Value)
  /-- Adds an operation, which may be one of another graph. -/
  | addShared (id : GraphId) (op : Operation)
  | addValue (v : Value)
  | drop (id : GraphId) (name : String)
  | copy (id : GraphId)
  | transform (id : GraphId) (s : PassStep)

/-- The workspace after a change; one that fails may have done a part of it. -/
def Edit.run [Importer] (quantizer : Quantizer) (w : Workspace) : Edit → Workspace
  | build backend outputs ops => (w.build backend outputs ops true).1
  | read nodes outputs => (w.ofNodes nodes outputs).1
  | addShared id op => (w.addShared id op).1
  | addValue v => (w.addValue v).1
  | drop id name => (w.dropOperation id name).1
  | copy id => (w.copy id).1
  | transform id s => (w.runStep quantizer id s).1

theorem Edit.sound_run [Importer] {quantizer : Quantizer} {w : Workspace} (sound : w.Sound)
    (edit : Edit) : (edit.run quantizer w).Sound := by
  cases edit with
  | build backend outputs ops => exact sound.build backend outputs ops true
  | read nodes outputs => exact sound.ofNodes nodes outputs
  | addShared id op => exact sound.addShared id op
  | addValue v => exact sound
  | drop id name => exact sound.dropOperation id name
  | copy id => exact sound.copy id
  | transform id s => exact sound.runStep id s

/-- The workspace after a history of changes. -/
def afterAll [Importer] (quantizer : Quantizer) (edits : List Edit) : Workspace :=
  edits.foldl (Edit.run quantizer) Workspace.empty

theorem sound_afterAll [Importer] (quantizer : Quantizer) (edits : List Edit) :
    (afterAll quantizer edits).Sound := by
  have run : ∀ w : Workspace, w.Sound → (edits.foldl (Edit.run quantizer) w).Sound := by
    induction edits with
    | nil => exact fun w sound => sound
    | cons edit rest ih => exact fun w sound => ih _ (edit.sound_run sound)
  exact run _ sound_empty

/-- After any history of changes, failed ones included, every graph is consistent, and its
operations are found when it is listed or written. -/
theorem consistent_after_history [Importer] (quantizer : Quantizer) (edits : List Edit)
    (id : GraphId) : ((afterAll quantizer edits).graph id).Consistent ∧
      ∃ ops, ((afterAll quantizer edits).graph id).inOrder = .ok ops ∧
        ops.map Operation.name = ((afterAll quantizer edits).graph id).order ∧
        ((afterAll quantizer edits).graph id).nodes =
          if ((afterAll quantizer edits).graph id).backend = tensorBackend then
            ops.mapM Operation.node
          else .error .foreignBackend := by
  have consistent := sound_afterAll quantizer edits id
  exact ⟨consistent, consistent.listed⟩

end Workspace

end TensorEmit
