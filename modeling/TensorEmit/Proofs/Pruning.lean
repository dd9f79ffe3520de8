import TensorEmit.Graph.Prune
import TensorEmit.Proofs.Order

/-!
# What pruning keeps

Pruning goes breadth first from the outputs and sorting depth first, but both meet the same names:
those that the outputs need (`Graph.mem_needed_iff`). The search of `Graph.meet` has a bound, and
the bound suffices: each round takes one name off the waiting list, and a name is put on it only
for an input that was not met before, so the waiting names and the inputs not yet met shrink
together (`Graph.unmet_append`).
-/

namespace TensorEmit

namespace Graph

/-! ## The bound -/

/-- Whether an input names an operation that was not met. -/
def isUnmet (met : List String) (t : Tensor) : Bool :=
  match TensorName.producer t.name with
  | .ok p => p ∉ met
  | .error _ => false

/-- The number of inputs whose operation was not met. -/
def unmet (g : Graph) (met : List String) : Nat :=
  Number.total (g.ops.map fun op => op.inputs.countP (isUnmet met))

theorem isUnmet_append {met more : List String} {t : Tensor} (unmet : isUnmet (met ++ more) t) :
    isUnmet met t := by
  unfold isUnmet at unmet ⊢
  cases made : TensorName.producer t.name with
  | error _ => simp [made] at unmet
  | ok p =>
    simp only [made, List.mem_append, not_or, decide_eq_true_eq] at unmet ⊢
    exact unmet.1

/-- The producers of inputs that were not met are as many as these inputs. -/
theorem length_filter_producers {inputs : List Tensor} {names : List String} (met : List String)
    (run : (inputs.mapM fun t => TensorName.producer t.name) = .ok names) :
    (names.filter fun n => n ∉ met).length = inputs.countP (isUnmet met) := by
  have related := mapM_eq_ok_iff.mp run
  induction related with
  | nil => rfl
  | @cons t p inputs names made tail ih =>
    have later := ih (mapM_eq_ok_iff.mpr tail)
    by_cases known : p ∈ met
    · have now : isUnmet met t = false := by simp [isUnmet, made, known]
      rw [List.countP_cons_of_neg (by simp [now]), ← later,
        List.filter_cons_of_neg (by simp [known])]
    · have now : isUnmet met t = true := by simp [isUnmet, made, known]
      rw [List.countP_cons_of_pos now, ← later, List.filter_cons_of_pos (by simp [known]),
        List.length_cons]

/-- Once the producers of an operation are met, none of its inputs is unmet. -/
theorem countP_isUnmet_eq_zero {inputs : List Tensor} {names met : List String}
    (run : (inputs.mapM fun t => TensorName.producer t.name) = .ok names)
    (all : ∀ n ∈ names, n ∈ met) : inputs.countP (isUnmet met) = 0 := by
  rw [List.countP_eq_zero]
  intro t read
  obtain ⟨p, listed, made⟩ := exists_result_of_mem run read
  simp [isUnmet, made, all p listed]

/-- A sum whose terms do not grow, and of which one term shrinks by `k`, shrinks by `k`. -/
theorem total_add_le {α : Type} {f f' : α → Nat} {xs : List α} {x : α} {k : Nat} (member : x ∈ xs)
    (each : ∀ y, f' y ≤ f y) (one : f' x + k ≤ f x) :
    Number.total (xs.map f') + k ≤ Number.total (xs.map f) := by
  obtain ⟨before, after, rfl⟩ := List.append_of_mem member
  have monotone : ∀ ys : List α, Number.total (ys.map f') ≤ Number.total (ys.map f) := by
    intro ys
    induction ys with
    | nil => exact Nat.le_refl _
    | cons y ys ih =>
      have first := each y
      simp only [List.map_cons, Number.total]
      omega
  have left := monotone before
  have right := monotone after
  simp only [List.map_append, List.map_cons, Number.total_append, Number.total]
  omega

/-- Meeting the producers of an operation takes its unmet inputs off the count. -/
theorem unmet_append {g : Graph} {op : Operation} {names : List String} (met : List String)
    (member : op ∈ g.ops) (run : op.inputNames = .ok names) :
    g.unmet (met ++ names.filter fun n => n ∉ met) + (names.filter fun n => n ∉ met).length ≤
      g.unmet met := by
  refine total_add_le member ?_ ?_
  · intro other
    exact List.countP_mono_left fun t _ => isUnmet_append
  · have now : op.inputs.countP (isUnmet (met ++ names.filter fun n => n ∉ met)) = 0 := by
      refine countP_isUnmet_eq_zero run ?_
      intro n listed
      by_cases known : n ∈ met <;> simp [known, listed]
    rw [now, Nat.zero_add]
    exact Nat.le_of_eq (length_filter_producers met run)

/-- The bound of the search covers the outputs and all inputs. -/
theorem unmet_le_meetBound (g : Graph) : g.outputs.length + g.unmet [] ≤ g.meetBound := by
  have sums : ∀ ops : List Operation,
      Number.total (ops.map fun op => op.inputs.countP (isUnmet [])) ≤
        Number.total (ops.map fun op => op.inputs.length) := by
    intro ops
    induction ops with
    | nil => exact Nat.le_refl _
    | cons op ops ih =>
      have first : op.inputs.countP (isUnmet []) ≤ op.inputs.length := List.countP_le_length
      simp only [List.map_cons, Number.total]
      omega
  have all := sums g.ops
  unfold unmet meetBound
  omega

/-! ## The search -/

theorem mem_inputNames_iff {op : Operation} {names : List String} (run : op.inputNames = .ok names)
    (need : String) :
    need ∈ names ↔ ∃ t ∈ op.inputs, TensorName.producer t.name = .ok need := by
  constructor
  · exact fun listed => exists_of_mem_mapM run listed
  · rintro ⟨t, read, made⟩
    obtain ⟨p, listed, made'⟩ := exists_result_of_mem run read
    rw [made] at made'
    cases made'
    exact listed

/-- What a search that does not run out of fuel gives: all that was met, the needs of every waiting
name and of every newly met one, and nothing that no waiting name needs. -/
structure Met (g : Graph) (waiting met result : List String) : Prop where
  kept : ∀ n ∈ met, n ∈ result
  taken : ∀ n ∈ waiting, ∀ m, g.Needs n m → m ∈ result
  fresh : ∀ n ∈ result, n ∉ met → ∀ m, g.Needs n m → m ∈ result
  needed : ∀ n ∈ result, n ∈ met ∨ ∃ w ∈ waiting, Relation.ReflTransGen g.Needs w n

theorem Met.done (g : Graph) (met : List String) : g.Met [] met met :=
  ⟨fun _ h => h, List.forall_mem_nil _, fun _ h fresh => absurd h fresh, fun _ h => .inl h⟩

theorem needs_iff_mem_inputNames {g : Graph} {op : Operation} {name : String} {names : List String}
    (found : g.find? name = some op) (producers : op.inputNames = .ok names) (need : String) :
    g.Needs name need ↔ need ∈ names := by
  rw [mem_inputNames_iff producers]
  constructor
  · rintro ⟨op', found', read⟩
    cases found.symm.trans found'
    exact read
  · exact fun read => ⟨op, found, read⟩

/-- A waiting name is taken: what it needs is met, and what of it is new waits in its place. -/
theorem Met.take {g : Graph} {name : String} {names waiting met result : List String}
    (needsOf : ∀ need, g.Needs name need ↔ need ∈ names)
    (rest : g.Met (waiting ++ names.filter fun n => n ∉ met) (met ++ names.filter fun n => n ∉ met)
      result) : g.Met (name :: waiting) met result where
  kept n member := rest.kept n (List.mem_append_left _ member)
  taken := by
    intro n waits m needs
    rcases List.mem_cons.mp waits with rfl | waits
    · have listed := (needsOf m).mp needs
      refine rest.kept m ?_
      by_cases known : m ∈ met <;> simp [known, listed]
    · exact rest.taken n (by simp [waits]) m needs
  fresh := by
    intro n member new m needs
    by_cases listed : n ∈ names
    · exact rest.taken n (by simp [listed, new]) m needs
    · exact rest.fresh n member (by simp [listed, new]) m needs
  needed := by
    intro n member
    rcases rest.needed n member with known | ⟨w, waits, reached⟩
    · rcases List.mem_append.mp known with before | listed
      · exact .inl before
      · have needs := (needsOf n).mpr (List.mem_of_mem_filter listed)
        exact .inr ⟨name, by simp, .single needs⟩
    · rcases List.mem_append.mp waits with before | listed
      · exact .inr ⟨w, by simp [before], reached⟩
      · have needs := (needsOf w).mpr (List.mem_of_mem_filter listed)
        exact .inr ⟨name, by simp, .head needs reached⟩

theorem met_of_meet {g : Graph} {fuel : Nat} {waiting met result : List String}
    (enough : waiting.length + g.unmet met ≤ fuel) (run : g.meet fuel waiting met = .ok result) :
    g.Met waiting met result := by
  induction fuel generalizing waiting met with
  | zero =>
    cases waiting with
    | cons _ _ => simp at enough
    | nil =>
      rw [meet] at run
      cases run
      exact .done g _
  | succ fuel ih =>
    cases waiting with
    | nil =>
      rw [meet] at run
      cases run
      exact .done g _
    | cons name waiting =>
      rw [meet] at run
      simp only [bind_eq_ok_iff, find_eq_ok_iff] at run
      obtain ⟨op, found, names, producers, later⟩ := run
      have shrinks := unmet_append met (mem_of_find? found) producers
      refine Met.take (needs_iff_mem_inputNames found producers) (ih ?_ later)
      simp only [List.length_append, List.length_cons] at enough ⊢
      omega

/-- The search meets exactly what the outputs need. -/
theorem mem_needed_iff {g : Graph} {names : List String} (run : g.needed = .ok names)
    (name : String) : name ∈ names ↔ g.Reachable name := by
  unfold needed at run
  rw [bind_eq_ok_iff] at run
  obtain ⟨result, search, made⟩ := run
  rw [pure_eq_ok_iff] at made
  subst made
  have met := met_of_meet (by simpa using g.unmet_le_meetBound) search
  constructor
  · intro listed
    rcases List.mem_append.mp listed with output | member
    · exact .output output
    · rcases met.needed name member with none | ⟨out, output, reached⟩
      · cases none
      · exact ⟨out, output, reached⟩
  · intro reached
    refine reached.induct (P := fun n => n ∈ g.outputs ++ result) ?_ ?_
    · intro out output
      exact List.mem_append_left _ output
    · intro a b listed needs
      refine List.mem_append_right _ ?_
      rcases List.mem_append.mp listed with output | member
      · exact met.taken a output b needs
      · exact met.fresh a member (by simp) b needs

/-! ## The pruned graph -/

/-- A pruned graph differs from the graph in its operations only. -/
theorem pruned_eq_ok_iff {g g' : Graph} :
    g.pruned = .ok g' ↔ ∃ names, g.needed = .ok names ∧
      { g with ops := g.ops.filter fun op => op.name ∈ names } = g' := by
  unfold pruned
  rw [bind_eq_ok_iff]
  simp only [pure_eq_ok_iff]

/-- Pruning keeps exactly the operations that the outputs need. -/
theorem mem_pruned_iff {g g' : Graph} (run : g.pruned = .ok g') (op : Operation) :
    op ∈ g'.ops ↔ op ∈ g.ops ∧ g.Reachable op.name := by
  obtain ⟨names, search, rfl⟩ := pruned_eq_ok_iff.mp run
  rw [List.mem_filter, decide_eq_true_eq, mem_needed_iff search]

/-- A needed operation is found in the pruned graph as before. -/
theorem find?_pruned {g g' : Graph} (run : g.pruned = .ok g') {name : String}
    (reached : g.Reachable name) : g'.find? name = g.find? name := by
  obtain ⟨names, search, rfl⟩ := pruned_eq_ok_iff.mp run
  unfold find?
  rw [List.find?_filter]
  congr 1
  funext op
  by_cases same : op.name = name
  · have listed : name ∈ names := (mem_needed_iff search name).mpr reached
    simp [same, listed]
  · simp [same]

end Graph

end TensorEmit
