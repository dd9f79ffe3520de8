import TensorEmit.Proofs.Notes

/-!
# Counts of uses

After dropout has been removed, with the pruning behind it, a graph holds nothing but what its
outputs need (`Graph.Trimmed`), and all later passes of a plain pipeline keep it so. In such a graph
the notes of counting give the uses of every output among all operations (`Graph.UseCounted`);
inlining and counting again keep that true.
-/

namespace TensorEmit

namespace Graph

/-! ## Wires -/

theorem uses_eq_wires (g : Graph) (name : String) :
    g.uses name = (g.wires.flatMap Prod.snd).count name := by
  unfold uses wires
  rw [List.flatMap_map]

/-- The uses of a tensor depend on the wires only. -/
theorem uses_congr {g g' : Graph} (wires : g'.wires = g.wires) (name : String) :
    g'.uses name = g.uses name := by
  rw [uses_eq_wires, uses_eq_wires, wires]

theorem names_eq_wires (g : Graph) : g.ops.map Operation.name = g.wires.map Prod.fst := by
  unfold wires
  rw [List.map_map]
  rfl

/-- A change of operations that keeps names and inputs keeps the wires. -/
theorem wires_mapOps {g : Graph} {f : Operation → Operation}
    (keeps : ∀ op, (f op).name = op.name ∧ (f op).inputs = op.inputs) :
    (g.mapOps f).wires = g.wires := by
  unfold wires mapOps
  rw [List.map_map]
  refine List.map_congr_left fun op _ => ?_
  rw [Function.comp, (keeps op).1, (keeps op).2]

theorem wires_of_counted {g g' : Graph} (run : g.counted = .ok g') : g'.wires = g.wires := by
  rw [eq_of_counted run]
  refine wires_mapOps fun op => ?_
  split
  · exact ⟨rfl, rfl⟩
  · exact ⟨rfl, rfl⟩

theorem Retyped.wires {g g' : Graph} (retyped : g.Retyped g') : g'.wires = g.wires := by
  obtain ⟨type, _, rfl⟩ := retyped
  exact wires_mapOps fun _ => ⟨rfl, rfl⟩

theorem outputs_of_counted {g g' : Graph} (run : g.counted = .ok g') : g'.outputs = g.outputs := by
  rw [eq_of_counted run]
  rfl

theorem Retyped.outputs {g g' : Graph} (retyped : g.Retyped g') : g'.outputs = g.outputs := by
  obtain ⟨type, _, rfl⟩ := retyped
  rfl

/-! ## Graphs without spare operations -/

/-- Every operation has a name of its own, and the outputs need it. -/
structure Trimmed (g : Graph) : Prop where
  nodup : (g.ops.map Operation.name).Nodup
  listed : ∀ op ∈ g.ops, op.name ∈ g.order
  reachable : ∀ op ∈ g.ops, g.Reachable op.name

/-- What the outputs need is needed in a pruned copy too. -/
theorem PrunedCopy.reachable {g g' : Graph} (copy : g.PrunedCopy g') {name : String}
    (reached : g.Reachable name) : g'.Reachable name := by
  have both : g.Reachable name ∧ g'.Reachable name := by
    refine reached.induct (P := fun n => g.Reachable n ∧ g'.Reachable n) ?_ ?_
    · intro out output
      exact ⟨.output output, .output (by rw [copy.outputs]; exact output)⟩
    · rintro a b ⟨reachA, reachA'⟩ needs
      refine ⟨reachA.step needs, reachA'.step ?_⟩
      obtain ⟨op, found, t, read, made⟩ := needs
      obtain ⟨op', found', alike⟩ := copy.find? reachA found
      obtain ⟨t', read', same⟩ := exists_right_of_forall₂ (forall₂_of_views alike.inputs) read
      exact ⟨op', found', t', read', by rw [Tensor.name_of_content same]; exact made⟩
  exact both.2

section Settled

variable {prune : Value} {g g' : Graph}

/-- A settled graph is trimmed if pruning was asked for or if nothing was to be pruned. -/
theorem Settled.trimmed (settled : g.Settled prune g') (nodup : (g.ops.map Operation.name).Nodup)
    (enough : prune.truth? = some true ∨ ∀ op ∈ g.ops, g.Reachable op.name) : g'.Trimmed := by
  have inOrder := mem_sorted_iff settled.sorted_eq
  cases settled with
  | sorted keep sort =>
    obtain ⟨names, _, rfl⟩ := sort_eq_ok_iff.mp sort
    rcases enough with pruned | reachable
    · rw [keep] at pruned
      cases pruned
    · exact ⟨nodup, fun op member => (inOrder op.name).mpr (reachable op member), reachable⟩
  | pruned _ sort copy =>
    obtain ⟨names, _, rfl⟩ := sort_eq_ok_iff.mp sort
    refine ⟨?_, fun op' member => ?_, fun op' member => ?_⟩
    · obtain ⟨kept, _, alike⟩ := copy.ops
      have same := views_of_forall₂ (alike.imp fun _ _ both => both.name)
      rw [same]
      exact nodup.sublist (List.filter_sublist.map _)
    · obtain ⟨op, _, alike, reached⟩ := copy.exists_alike member
      rw [alike.name]
      exact (inOrder op.name).mpr reached
    · obtain ⟨op, _, alike, reached⟩ := copy.exists_alike member
      rw [alike.name]
      exact copy.reachable reached

end Settled

/-! ## Passes on trimmed graphs -/

/-- Removing dropout leaves no two operations of one name. -/
theorem nodup_of_dropoutRemoved {g g' : Graph} {base : Nat} {owner : GraphId}
    (ordered : g.Ordered g.order) (run : g.dropoutRemoved base owner = .ok g') :
    (g'.ops.map Operation.name).Nodup := by
  rw [names_of_dropoutRemoved run]
  exact ordered.nodup.filter _

/-- No pass gives two operations one name. -/
theorem Applied.nodup [Importer] {quantizer : Quantizer} {g g' : Graph} {pass : Pass}
    (applied : g.Applied quantizer pass g') (ordered : g.Ordered g.order)
    (nodup : (g.ops.map Operation.name).Nodup) : (g'.ops.map Operation.name).Nodup := by
  cases applied with
  | refCount copied counted =>
    rw [names_eq_wires, wires_of_counted counted, wires, wires_of_alike copied.ops]
    rw [names_eq_wires] at nodup
    exact nodup
  | dropout removed => exact nodup_of_dropoutRemoved ordered removed
  | quantize _ _ read =>
    obtain ⟨names, g₁, _, _, added, sort⟩ := ofNodes_ok read
    obtain ⟨order, _, rfl⟩ := sort_eq_ok_iff.mp sort
    have distinct : (g₁.ops.map Operation.name).Nodup :=
      nodup_addNodes (g := ⟨[], [], names, tensorBackend⟩) List.nodup_nil added
    exact distinct
  | inline retyped =>
    rw [names_eq_wires, retyped.wires, ← names_eq_wires]
    exact nodup

/-- Operations stay needed as long as the wires stay. -/
theorem allReachable_congr {g g' : Graph} (wires : g'.wires = g.wires)
    (outputs : g'.outputs = g.outputs) (all : ∀ op ∈ g.ops, g.Reachable op.name) :
    ∀ op ∈ g'.ops, g'.Reachable op.name := by
  intro op' member
  rw [reachable_congr wires outputs]
  have name : op'.name ∈ g'.ops.map Operation.name := List.mem_map_of_mem member
  rw [names_eq_wires, wires, ← names_eq_wires] at name
  obtain ⟨op, inside, same⟩ := List.mem_map.mp name
  rw [← same]
  exact all op inside

/-! ## Counted graphs -/

/-- The notes of every operation give the uses of its outputs in the graph. -/
def UseCounted (g : Graph) : Prop :=
  ∀ op ∈ g.ops, Noted op.attrs (.list (op.outputs.map fun t => .int (g.uses t.name)))

/-- The counts of the outputs of operations that are alike are those of the same names. -/
theorem counts_congr {g g' : Graph} (wires : g'.wires = g.wires) {ts ts' : List Tensor}
    (contents : ts'.map Tensor.content = ts.map Tensor.content) :
    (ts'.map fun t => Value.int (g'.uses t.name)) = ts.map fun t => Value.int (g.uses t.name) := by
  refine views_of_forall₂ ((forall₂_of_views contents).imp ?_)
  intro t t' same
  rw [Tensor.name_of_content same, uses_congr wires]

/-- Counting on a trimmed graph reaches all operations. -/
theorem useCounted_of_counted {g c g' : Graph} (trimmed : g.Trimmed)
    (tidy : ∀ op ∈ g.ops, Tidy op.attrs) (copied : g.Copied c) (counted : c.counted = .ok g') :
    g'.UseCounted := by
  have sameWires := wires_of_counted counted
  intro op' member
  rw [eq_of_counted counted] at member
  obtain ⟨op, inside, rfl⟩ := List.mem_map.mp member
  obtain ⟨op₀, inside₀, alike⟩ := exists_left_of_forall₂ copied.ops inside
  have listed : op.name ∈ c.order := by
    rw [copied.order, alike.name]
    exact trimmed.listed op₀ inside₀
  rw [if_pos listed]
  have noted := c.noted_annotate (alike.tidy (tidy op₀ inside₀))
  have same := counts_congr sameWires (Eq.refl (op.outputs.map Tensor.content))
  rwa [← same] at noted

/-- Other types of operations leave the counts right. -/
theorem useCounted_of_retyped {g g' : Graph} (retyped : g.Retyped g') (counted : g.UseCounted) :
    g'.UseCounted := by
  have sameWires := retyped.wires
  obtain ⟨type, _, rfl⟩ := retyped
  intro op' member
  obtain ⟨op, inside, rfl⟩ := List.mem_map.mp member
  have noted := counted op inside
  have same := counts_congr sameWires (Eq.refl (op.outputs.map Tensor.content))
  rwa [← same] at noted

/-- Settling leaves the counts right if nothing is to be pruned. -/
theorem useCounted_of_settled {prune : Value} {g g' : Graph} (settled : g.Settled prune g')
    (all : ∀ op ∈ g.ops, g.Reachable op.name) (counted : g.UseCounted) : g'.UseCounted := by
  cases settled with
  | sorted _ sort =>
    obtain ⟨names, _, rfl⟩ := sort_eq_ok_iff.mp sort
    exact counted
  | pruned _ sort copy =>
    obtain ⟨names, _, rfl⟩ := sort_eq_ok_iff.mp sort
    obtain ⟨kept, needed, alike⟩ := copy.ops
    -- Nothing is pruned, so no use is lost either.
    have whole : g.ops.filter (fun op => op.name ∈ kept) = g.ops := by
      rw [List.filter_eq_self]
      intro op member
      exact decide_eq_true ((needed op.name).mpr (all op member))
    rw [whole] at alike
    have sameWires : g'.wires = g.wires := wires_of_alike alike
    intro op' member
    obtain ⟨op, inside, both⟩ := exists_left_of_forall₂ alike member
    rw [counts_congr sameWires both.outputs]
    exact both.noted (counted op inside)

end Graph

/-! ## Plain pipelines -/

/-- A pass without options: all but counting prune. -/
def Pass.plain (p : Pass) : PassStep := ⟨p, .bool (p != .refCount)⟩

/-- Passes that are asked for by name and without options are plain. -/
theorem Pipeline.ofMethods_plain (passes : List Pass) :
    Pipeline.ofMethods (.list (passes.map fun p => .text p.method)) [] =
      .ok (passes.map Pass.plain) := by
  have one : ∀ p : Pass, (Pass.ofValue (.text p.method) >>= fun p => p.configure []) =
      .ok p.plain := by
    intro p
    cases p <;> rfl
  change ((passes.map fun p => Value.text p.method).mapM fun m =>
    Pass.ofValue m >>= fun p => p.configure []) = _
  rw [mapM_eq_ok_iff, List.forall₂_map_left_iff, List.forall₂_map_right_iff, List.forall₂_same]
  exact fun p _ => one p

namespace Graph

variable {quantizer : Quantizer} {g g₁ g' : Graph}

/-- A plain pass keeps a graph trimmed. -/
theorem Applied.trimmed [Importer] {p : Pass} (applied : g.Applied quantizer p g₁)
    (settled : g₁.Settled p.plain.prune g') (ordered : g.Ordered g.order) (trimmed : g.Trimmed) :
    g'.Trimmed := by
  refine settled.trimmed (applied.nodup ordered trimmed.nodup) ?_
  cases applied with
  | refCount copied counted =>
    have wires := (wires_of_counted counted).trans (wires_of_alike copied.ops)
    have outputs := (outputs_of_counted counted).trans copied.outputs
    exact .inr (allReachable_congr wires outputs trimmed.reachable)
  | dropout _ => exact .inl rfl
  | quantize _ _ _ => exact .inl rfl
  | inline _ => exact .inl rfl

theorem Runs.trimmed [Importer] {passes : List Pass}
    (runs : Runs quantizer g (passes.map Pass.plain) g')
    (ordered : g.Ordered g.order) (trimmed : g.Trimmed) : g'.Trimmed := by
  induction passes generalizing g with
  | nil =>
    cases runs
    exact trimmed
  | cons p passes ih =>
    cases runs with
    | cons applied settled rest =>
      exact ih rest settled.ordered (applied.trimmed settled ordered trimmed)

/-- Inlining and counting leave the counts of a trimmed graph right; counting makes them right. -/
theorem Applied.useCounted [Importer] {p : Pass} (applied : g.Applied quantizer p g₁)
    (settled : g₁.Settled p.plain.prune g') (trimmed : g.Trimmed)
    (tidy : ∀ op ∈ g.ops, Tidy op.attrs) (right : p = .refCount ∨ p = .inline ∧ g.UseCounted) :
    g'.UseCounted := by
  cases applied with
  | refCount copied counted =>
    have wires := (wires_of_counted counted).trans (wires_of_alike copied.ops)
    have outputs := (outputs_of_counted counted).trans copied.outputs
    exact useCounted_of_settled settled (allReachable_congr wires outputs trimmed.reachable)
      (useCounted_of_counted trimmed tidy copied counted)
  | inline retyped =>
    rcases right with other | ⟨_, counted⟩
    · cases other
    · exact useCounted_of_settled settled
        (allReachable_congr retyped.wires retyped.outputs trimmed.reachable)
        (useCounted_of_retyped retyped counted)
  | dropout _ =>
    rcases right with other | ⟨other, _⟩
    · cases other
    · cases other
  | quantize _ _ _ =>
    rcases right with other | ⟨other, _⟩
    · cases other
    · cases other

theorem Runs.useCounted [Importer] {passes : List Pass} (keeps : quantizer.KeepsUnmarked)
    (runs : Runs quantizer g (passes.map Pass.plain) g')
    (only : ∀ p ∈ passes, p = .inline ∨ p = .refCount) (ordered : g.Ordered g.order)
    (trimmed : g.Trimmed) (tidy : ∀ op ∈ g.ops, Tidy op.attrs) (counted : g.UseCounted) :
    g'.UseCounted := by
  induction passes generalizing g with
  | nil =>
    cases runs
    exact counted
  | cons p passes ih =>
    cases runs with
    | @cons _ g₁ g₂ _ _ _ applied settled rest =>
      have step : Runs quantizer g [p.plain] g₂ := .cons applied settled (.nil g₂)
      have right : p = .refCount ∨ p = .inline ∧ g.UseCounted := by
        rcases only p (by simp) with inline | refCount
        · exact .inr ⟨inline, counted⟩
        · exact .inl refCount
      exact ih rest (fun q member => only q (by simp [member])) settled.ordered
        (applied.trimmed settled ordered trimmed)
        (step.forall_ops (operationInvariant_tidy keeps) ordered tidy)
        (applied.useCounted settled trimmed tidy right)

/-- A plain pipeline that starts with removing dropout and ends in counting, up to inlining and
counting again, leaves a trimmed graph with right counts. -/
theorem Runs.trimmed_and_useCounted [Importer] {mid tail : List Pass}
    (keeps : quantizer.KeepsUnmarked)
    (runs : Runs quantizer g ((.dropout :: mid ++ .refCount :: tail).map Pass.plain) g')
    (only : ∀ p ∈ tail, p = .inline ∨ p = .refCount) (ordered : g.Ordered g.order)
    (tidy : ∀ op ∈ g.ops, Tidy op.attrs) : g'.Trimmed ∧ g'.UseCounted := by
  rw [List.map_append] at runs
  obtain ⟨m, front, back⟩ := runs.split
  have tidyM := front.forall_ops (operationInvariant_tidy keeps) ordered tidy
  have orderedM := front.ordered ordered
  have trimmedM : m.Trimmed := by
    cases front with
    | cons applied settled rest =>
      cases applied with
      | dropout removed =>
        exact Runs.trimmed rest settled.ordered
          (settled.trimmed (nodup_of_dropoutRemoved ordered removed) (.inl rfl))
  refine ⟨Runs.trimmed back orderedM trimmedM, ?_⟩
  cases back with
  | @cons _ g₁ g₂ _ _ _ applied settled rest =>
    have step : Runs quantizer m [Pass.refCount.plain] g₂ := .cons applied settled (.nil g₂)
    exact Runs.useCounted keeps rest only settled.ordered
      (applied.trimmed settled orderedM trimmedM)
      (step.forall_ops (operationInvariant_tidy keeps) orderedM tidyM)
      (applied.useCounted settled trimmedM tidyM (.inl rfl))

end Graph

end TensorEmit
