import TensorEmit.Code.Arrange
import TensorEmit.Proofs.Outcome
import TensorEmit.Proofs.Texts

/-!
# Rearranging texts

Arguments are packed into a grid before they are put in another order. A list of texts packs into
one row of text cells, and a list of whole numbers into one row of positions. So rearranging texts
that do not end in a zero character picks them by position and changes nothing else
(`arrange_texts`).
-/

namespace TensorEmit

/-! ## Flat lists -/

/-- Whether a value is one cell of a grid. -/
def Value.isLeaf : Value → Bool
  | .list _ | .array _ => false
  | _ => true

theorem Value.sizes_of_isLeaf {v : Value} (leaf : v.isLeaf) : v.sizes = ⟨[], true⟩ := by
  cases v <;> simp_all [Value.isLeaf, Value.sizes]

theorem Value.leaves_of_isLeaf {v : Value} (leaf : v.isLeaf) : v.leaves = [v] := by
  cases v <;> simp_all [Value.isLeaf, Value.leaves]

theorem Value.leafKinds_of_isLeaf {v : Value} (leaf : v.isLeaf) :
    v.leafKinds = [CellKind.of v] := by
  cases v <;> simp_all [Value.isLeaf, Value.leafKinds]

/-- A flat list has one size, its length. -/
theorem Value.sizes_of_leaves {vs : List Value} (leaves : ∀ v ∈ vs, v.isLeaf) :
    (Value.list vs).sizes = ⟨[vs.length], true⟩ := by
  have parts : ∀ v vs, (∀ w ∈ v :: vs, Value.isLeaf w) →
      Value.partSizes (v :: vs) = some ⟨[], true⟩ := by
    intro v vs leaves
    induction vs generalizing v with
    | nil => simp [Value.partSizes, Value.sizes_of_isLeaf (leaves v (by simp))]
    | cons w ws ih =>
      rw [Value.partSizes, ih w fun u member => leaves u (by simp [member]),
        Value.sizes_of_isLeaf (leaves v (by simp))]
      rfl
  cases vs with
  | nil => rfl
  | cons v vs => rw [Value.sizes, parts v vs leaves]

theorem Value.leaves_of_leaves {vs : List Value} (leaves : ∀ v ∈ vs, v.isLeaf) :
    (Value.list vs).leaves = vs := by
  rw [Value.leaves]
  induction vs with
  | nil => rw [Value.leavesOfAll]
  | cons v vs ih =>
    rw [Value.leavesOfAll, ih fun w member => leaves w (by simp [member]),
      Value.leaves_of_isLeaf (leaves v (by simp))]
    rfl

theorem Value.leafKinds_of_leaves {vs : List Value} (leaves : ∀ v ∈ vs, v.isLeaf) :
    (Value.list vs).leafKinds = vs.map CellKind.of := by
  rw [Value.leafKinds]
  induction vs with
  | nil => rw [Value.leafKindsOfAll, List.map_nil]
  | cons v vs ih =>
    rw [Value.leafKindsOfAll, ih fun w member => leaves w (by simp [member]),
      Value.leafKinds_of_isLeaf (leaves v (by simp))]
    rfl

/-- Cells of one kind have this kind in common. -/
theorem CellKind.ofAll_same {k : CellKind} {ks : List CellKind} (same : ∀ k' ∈ ks, k' = k)
    (joined : k.join k = k) (some : ks ≠ []) : CellKind.ofAll ks = k := by
  have fold : ∀ rest : List CellKind, (∀ k' ∈ rest, k' = k) → rest.foldl CellKind.join k = k := by
    intro rest same
    induction rest with
    | nil => rfl
    | cons k' rest ih =>
      rw [List.foldl_cons, same k' (by simp), joined]
      exact ih fun k'' member => same k'' (by simp [member])
  cases ks with
  | nil => exact absurd rfl some
  | cons k' rest =>
    rw [CellKind.ofAll, same k' (by simp)]
    exact fold rest fun k'' member => same k'' (by simp [member])

/-- A flat list of values of one kind becomes one row of cells of that kind. -/
theorem Grid.ofValue_of_leaves {k : CellKind} {vs cells : List Value}
    (leaves : ∀ v ∈ vs, v.isLeaf) (same : ∀ v ∈ vs, CellKind.of v = k) (joined : k.join k = k)
    (held : List.Forall₂ (fun v c => k.hold v = .ok c) vs cells) :
    ∃ kind, Grid.ofValue (.list vs) = .ok ⟨kind, [vs.length], cells⟩ ∧ (vs ≠ [] → kind = k) := by
  unfold Grid.ofValue
  rw [Value.sizes_of_leaves leaves, Value.leaves_of_leaves leaves,
    Value.leafKinds_of_leaves leaves]
  cases vs with
  | nil =>
    cases held
    exact ⟨_, rfl, fun some => absurd rfl some⟩
  | cons v vs =>
    have kind : CellKind.ofAll ((v :: vs).map CellKind.of) = k := by
      refine CellKind.ofAll_same ?_ joined (by simp)
      intro k' member
      obtain ⟨w, inside, rfl⟩ := List.mem_map.mp member
      exact same w inside
    refine ⟨k, ?_, fun _ => rfl⟩
    rw [kind]
    change ((v :: vs).mapM k.hold >>= fun cells => pure (Grid.mk k _ cells)) = _
    rw [mapM_eq_ok_iff.mpr held]
    rfl

namespace Code

/-! ## Texts and positions -/

/-- Texts become one row of text cells. -/
theorem ofValue_texts {args : List String} (unpadded : ∀ s ∈ args, Text.Unpadded s) :
    ∃ kind, Grid.ofValue (.list (args.map Value.text)) =
      .ok ⟨kind, [args.length], args.map Value.text⟩ := by
  have held : List.Forall₂ (fun v c => CellKind.text.hold v = .ok c) (args.map Value.text)
      (args.map Value.text) := by
    rw [List.forall₂_same]
    intro v member
    obtain ⟨s, inside, rfl⟩ := List.mem_map.mp member
    have kept : Text.trimRight '\x00' s = s := unpadded s inside
    simp [CellKind.hold, CellKind.textCell, Value.plain, kept]
  obtain ⟨kind, made, _⟩ := Grid.ofValue_of_leaves (by simp [Value.isLeaf])
    (by simp [CellKind.of]) (by rfl) held
  rw [List.length_map] at made
  exact ⟨kind, made⟩

/-- Whole numbers become one row of words. -/
theorem ofValue_wholes {ns : List Int} (fit : ∀ n ∈ ns, fitsWord n) :
    ∃ kind, Grid.ofValue (.list (ns.map Value.int)) =
        .ok ⟨kind, [ns.length], ns.map (Value.cell .int64)⟩ ∧
      (ns ≠ [] → kind = .element .int64) := by
  have held : List.Forall₂ (fun v c => (CellKind.element .int64).hold v = .ok c)
      (ns.map Value.int) (ns.map (Value.cell .int64)) := by
    rw [List.forall₂_map_left_iff, List.forall₂_map_right_iff, List.forall₂_same]
    intro n _
    simp [CellKind.hold, CellKind.elementCell, ElementType.castCell]
  obtain ⟨kind, made, nonempty⟩ := Grid.ofValue_of_leaves (by simp [Value.isLeaf])
    (by
      intro v member
      obtain ⟨n, inside, rfl⟩ := List.mem_map.mp member
      simp [CellKind.of, fit n inside]) (by rfl) held
  rw [List.length_map] at made
  exact ⟨kind, made, fun some => nonempty (by simpa using some)⟩

/-- Whole numbers become one row of positions. -/
theorem ofValue_positions {perm : List Int} (fit : ∀ i ∈ perm, fitsWord i) :
    ∃ order, Grid.ofValue (.list (perm.map Value.int)) = .ok order ∧ hasPositions order ∧
      order.shape = [perm.length] ∧ order.cells.map positionOf = perm := by
  obtain ⟨kind, made, nonempty⟩ := ofValue_wholes fit
  refine ⟨_, made, ?_, rfl, ?_⟩
  · cases perm with
    | nil => simp [hasPositions]
    | cons i perm =>
      rw [nonempty (by simp)]
      rfl
  · rw [List.map_map]
    conv => rhs; rw [← List.map_id perm]
    refine List.map_congr_left fun i inside => ?_
    have bounds := fit i inside
    simp only [fitsWord, Bool.and_eq_true, decide_eq_true_eq] at bounds
    simp only [Function.comp_apply, positionOf, CellKind.wholeCell, id_eq, wordSize]
    rw [Int.bmod_eq_of_le (by omega) (by omega)]

/-! ## Picking -/

theorem pickAll_eq_ok_iff {α : Type} {xs ys : List α} {positions : List Int} :
    pickAll xs positions = .ok ys ↔
      List.Forall₂ (fun i y => pick xs i = some y) positions ys := by
  induction positions generalizing ys with
  | nil =>
    rw [pickAll, List.forall₂_nil_left_iff]
    constructor
    · rintro ⟨⟩
      rfl
    · rintro rfl
      rfl
  | cons i rest ih =>
    rw [pickAll, List.forall₂_cons_left_iff]
    cases picked : pick xs i with
    | none => simp
    | some x =>
      simp only [bind_eq_ok_iff, pure_eq_ok_iff]
      constructor
      · rintro ⟨zs, later, rfl⟩
        exact ⟨x, zs, rfl, ih.mp later, rfl⟩
      · rintro ⟨y, zs, here, later, rfl⟩
        cases here
        exact ⟨zs, ih.mpr later, rfl⟩

/-- What is picked is what stands at the positions. -/
theorem filterMap_of_pickAll {α : Type} {xs ys : List α} {positions : List Int}
    (run : pickAll xs positions = .ok ys) : positions.filterMap (pick xs) = ys := by
  have related := pickAll_eq_ok_iff.mp run
  clear run
  induction related with
  | nil => rfl
  | cons here _ ih => rw [List.filterMap_cons_some here, ih]

theorem pick_map {α β : Type} (f : α → β) (xs : List α) (i : Int) :
    pick (xs.map f) i = (pick xs i).map f := by
  unfold pick
  simp only [List.length_map, List.getElem?_map]
  split
  · rfl
  · split <;> rfl

/-- The rows of one row of cells are the single cells. -/
theorem partsOfLength_one {α : Type} (xs : List α) :
    Text.partsOfLength 1 xs.length xs = xs.map fun x => [x] := by
  induction xs with
  | nil => rfl
  | cons x xs ih =>
    rw [List.length_cons, Text.partsOfLength, List.map_cons]
    simp [ih]

/-- Picking commutes with a change of every member. -/
theorem pickAll_map {α β : Type} (f : α → β) {xs : List α} {positions : List Int}
    {zs : List β} :
    pickAll (xs.map f) positions = .ok zs ↔
      ∃ ys, pickAll xs positions = .ok ys ∧ ys.map f = zs := by
  simp only [pickAll_eq_ok_iff]
  constructor
  · intro related
    induction related with
    | nil => exact ⟨[], .nil, rfl⟩
    | @cons i z positions zs here _ ih =>
      obtain ⟨ys, later, rfl⟩ := ih
      rw [pick_map, Option.map_eq_some_iff] at here
      obtain ⟨y, here, rfl⟩ := here
      exact ⟨y :: ys, .cons here later, rfl⟩
  · rintro ⟨ys, related, rfl⟩
    rw [List.forall₂_map_right_iff]
    refine related.imp fun i y here => ?_
    rw [pick_map, here, Option.map_some]

/-- Rearranging texts picks them by position and changes none of them. -/
theorem arrange_texts {args : List String} {perm : List Int} {out : List Value}
    (unpadded : ∀ s ∈ args, Text.Unpadded s) (fit : ∀ i ∈ perm, fitsWord i) :
    arrange (.list (args.map Value.text)) (.list (perm.map Value.int)) = .ok out ↔
      ∃ names, pickAll args perm = .ok names ∧ names.map Value.text = out := by
  obtain ⟨kind, texts⟩ := ofValue_texts unpadded
  obtain ⟨order, positions, isOrder, shape, perm'⟩ := ofValue_positions fit
  have rowCells : Grid.rowCells ⟨kind, [args.length], args.map Value.text⟩ =
      args.map fun s => [Value.text s] := by
    have single := partsOfLength_one (args.map Value.text)
    rw [List.length_map, List.map_map] at single
    exact single
  have reordered : reorder ⟨kind, [args.length], args.map Value.text⟩ order =
      atPositions ⟨kind, [args.length], args.map Value.text⟩ order := by
    unfold reorder
    rw [if_neg (by simp), if_pos isOrder]
  have unfolded : arrange (.list (args.map Value.text)) (.list (perm.map Value.int)) =
      Grid.rows <$> reorder ⟨kind, [args.length], args.map Value.text⟩ order := by
    unfold arrange
    rw [texts]
    simp only [positions]
    rfl
  have rows : ∀ names : List String, (names.map fun s => [Value.text s]).flatten =
      names.map Value.text := by
    intro names
    rw [List.map_eq_flatMap (f := Value.text), List.flatMap_def]
  rw [unfolded, reordered, functor_map_eq_ok_iff]
  unfold atPositions
  rw [rowCells, perm', shape]
  simp only [bind_eq_ok_iff, pure_eq_ok_iff, pickAll_map]
  constructor
  · rintro ⟨_, ⟨_, ⟨names, picked, rfl⟩, rfl⟩, rfl⟩
    exact ⟨names, picked, (rows names).symm⟩
  · rintro ⟨names, picked, rfl⟩
    exact ⟨_, ⟨_, ⟨names, picked, rfl⟩, rfl⟩, rows names⟩

end Code

end TensorEmit
