import TensorEmit.Graph.Basic
import TensorEmit.Proofs.Outcome

/-!
# The forms of attributes

The conversion to neutral form gives values in neutral form, and these it leaves as they are. So
attributes that an operation has stored once are stored a second time without a change
(`storedAttrs_idempotent`).
-/

namespace TensorEmit

/-! ## What neutral forms are built from -/

theorem Neutral.shape_ok {sizes v : Value} (run : Neutral.shape sizes = .ok v) :
    (sizes = .none ∧ v = .shape none) ∨ ∃ dims, sizes = .list dims ∧ v = .shape (some dims) := by
  unfold Neutral.shape at run
  split at run
  · exact .inl ⟨rfl, (Except.ok.inj run).symm⟩
  · split at run
    · exact .inr ⟨_, rfl, (Except.ok.inj run).symm⟩
    · cases run
  · cases run

theorem Neutral.attr_ok {kind value v : Value} (run : Neutral.attr kind value = .ok v) :
    ∃ s, kind = .text s ∧ v = .attr s value := by
  unfold Neutral.attr at run
  split at run
  · split at run
    · exact ⟨_, rfl, (Except.ok.inj run).symm⟩
    · cases run
  · cases run

theorem Neutral.func_ok {name attrs v : Value} (run : Neutral.func name attrs = .ok v) :
    ∃ s fields, name = .text s ∧ v = .func s fields := by
  unfold Neutral.func at run
  split at run
  · split at run
    · split at run
      · exact ⟨_, _, rfl, (Except.ok.inj run).symm⟩
      · cases run
    · cases run
  · cases run

theorem membersOfKind_ok {k : MemberKind} {v : Value} {vs : List Value}
    (run : membersOfKind k v = .ok vs) : v = .list vs := by
  unfold membersOfKind at run
  split at run
  · split at run
    · rw [Except.ok.inj run]
    · cases run
  · cases run

/-- A list attribute takes its lists as they are. -/
theorem Neutral.items_ok {blobs ints floats bools types shapes tensors funcs v : Value}
    (run : Neutral.items blobs ints floats bools types shapes tensors funcs = .ok v) :
    ∃ bs fs os ts ss ns gs, v = .items bs ints fs os ts ss ns gs ∧ blobs = .list bs ∧
      floats = .list fs ∧ bools = .list os ∧ types = .list ts ∧ shapes = .list ss ∧
      tensors = .list ns ∧ funcs = .list gs := by
  unfold Neutral.items at run
  simp only [bind_eq_ok_iff, pure_eq_ok_iff] at run
  obtain ⟨bs, blobs', fs, floats', os, bools', ts, types', ss, shapes', ns, tensors', gs, funcs',
    rfl⟩ := run
  exact ⟨bs, fs, os, ts, ss, ns, gs, rfl, membersOfKind_ok blobs', membersOfKind_ok floats',
    membersOfKind_ok bools', membersOfKind_ok types', membersOfKind_ok shapes',
    membersOfKind_ok tensors', membersOfKind_ok funcs'⟩

/-! ## Neutral form -/

/-- Whether a value is in neutral form. -/
def Value.isNeutral : Value → Bool
  | .bool _ | .int _ | .float _ | .text _ | .bytes _ | .tensor _ _ | .shape _ | .attr _ _
  | .func _ _ | .items .. => true
  | _ => false

/-- A value in neutral form stays as it is. -/
theorem Value.toNeutral_of_isNeutral {v : Value} (neutral : v.isNeutral) :
    v.toNeutral = .ok v := by
  cases v <;> simp [Value.isNeutral] at neutral <;> rw [Value.toNeutral]

theorem isNeutral_neutralArray {a : NumArray} {v : Value} (run : neutralArray a = .ok v) :
    v.isNeutral := by
  unfold neutralArray at run
  split at run
  · split at run
    · cases run
      rfl
    · cases run
      rfl
    · cases run
  · cases run
    rfl

/-- What the conversion gives is in neutral form. -/
theorem Value.isNeutral_of_toNeutral {v v' : Value} (run : v.toNeutral = .ok v') :
    v'.isNeutral := by
  unfold Value.toNeutral at run
  split at run
  case h_1 => exact isNeutral_neutralArray run
  case h_4 =>
    rcases Neutral.shape_ok run with ⟨_, rfl⟩ | ⟨_, _, rfl⟩
    · rfl
    · rfl
  case h_7 =>
    rw [bind_eq_ok_iff] at run
    obtain ⟨_, _, made⟩ := run
    obtain ⟨_, _, rfl⟩ := Neutral.attr_ok made
    rfl
  case h_8 =>
    rw [bind_eq_ok_iff] at run
    obtain ⟨_, _, made⟩ := run
    obtain ⟨_, _, _, rfl⟩ := Neutral.func_ok made
    rfl
  case h_9 =>
    simp only [bind_eq_ok_iff] at run
    obtain ⟨_, _, _, _, _, _, _, _, made⟩ := run
    obtain ⟨_, _, _, _, _, _, _, rfl, _⟩ := Neutral.items_ok made
    rfl
  -- All other values are refused or already in neutral form.
  all_goals cases run
  all_goals rfl

/-! ## Stored attributes -/

/-- A private attribute is stored as it is, any other under its key in neutral form. -/
theorem storedAttr_eq_ok_iff {e e' : String × Value} :
    storedAttr e = .ok e' ↔
      if Text.startsWith privateMark e.1 then e = e'
      else ∃ v, e.2.toNeutral = .ok v ∧ (e.1, v) = e' := by
  unfold storedAttr
  by_cases isPrivate : Text.startsWith privateMark e.1
  · simp [isPrivate]
  · simp [isPrivate]

/-- Storing keeps keys. -/
theorem storedAttr_key {e e' : String × Value} (run : storedAttr e = .ok e') : e'.1 = e.1 := by
  rw [storedAttr_eq_ok_iff] at run
  split at run
  · rw [run]
  · obtain ⟨v, _, rfl⟩ := run
    rfl

/-- An attribute that was stored is stored again as it is. -/
theorem storedAttr_idempotent {e e' : String × Value} (run : storedAttr e = .ok e') :
    storedAttr e' = .ok e' := by
  rw [storedAttr_eq_ok_iff] at run ⊢
  split at run
  case isTrue isPrivate =>
    subst run
    rw [if_pos isPrivate]
  case isFalse isShared =>
    obtain ⟨v, made, rfl⟩ := run
    rw [if_neg isShared]
    exact ⟨v, Value.toNeutral_of_isNeutral (Value.isNeutral_of_toNeutral made), rfl⟩

/-- Attributes that were stored are stored again as they are. -/
theorem storedAttrs_idempotent {attrs attrs' : Entries String Value}
    (run : storedAttrs attrs = .ok attrs') : storedAttrs attrs' = .ok attrs' := by
  unfold storedAttrs at run ⊢
  rw [mapM_eq_ok_iff, List.forall₂_same]
  intro e' stored
  obtain ⟨e, _, made⟩ := exists_of_mem_mapM run stored
  exact storedAttr_idempotent made

theorem Entries.mem_set {κ α : Type} [DecidableEq κ] {es : Entries κ α} {k : κ} {v : α}
    {e : κ × α} (member : e ∈ es.set k v) : e ∈ es ∨ e = (k, v) := by
  induction es with
  | nil => exact .inr (List.mem_singleton.mp member)
  | cons first rest ih =>
    obtain ⟨k', v'⟩ := first
    rw [Entries.set] at member
    split at member
    · rcases List.mem_cons.mp member with same | later
      · exact .inr same
      · exact .inl (List.mem_cons_of_mem _ later)
    · rcases List.mem_cons.mp member with same | later
      · exact .inl (List.mem_cons.mpr (.inl same))
      · exact (ih later).imp_left (List.mem_cons_of_mem _)

/-- An entry is set among those of picked keys too, if its own key is one of them. -/
theorem Entries.filter_set {κ α : Type} [DecidableEq κ] (p : κ → Bool) (es : Entries κ α) (k : κ)
    (v : α) : (es.set k v).filter (fun e => p e.1) =
      if p k then Entries.set (es.filter fun e => p e.1) k v else es.filter fun e => p e.1 := by
  induction es with
  | nil => by_cases kept : p k <;> simp [Entries.set, kept]
  | cons e es ih =>
    obtain ⟨k', u⟩ := e
    by_cases here : k' = k
    · subst here
      by_cases kept : p k' <;> simp [Entries.set, kept]
    · by_cases kept : p k' <;> by_cases kept' : p k <;> simp [Entries.set, here, kept, kept', ih]

/-- An attribute that is stored as it is can be set without storing the attributes again. -/
theorem storedAttrs_set_of_kept {attrs : Entries String Value} {key : String} {v : Value}
    (stored : storedAttrs attrs = .ok attrs) (kept : storedAttr (key, v) = .ok (key, v)) :
    storedAttrs (attrs.set key v) = .ok (attrs.set key v) := by
  unfold storedAttrs at stored ⊢
  rw [mapM_eq_ok_iff, List.forall₂_same] at stored ⊢
  intro e member
  rcases Entries.mem_set member with inside | rfl
  · exact stored e inside
  · exact kept

/-- A neutral value can be set without storing the attributes again. -/
theorem storedAttrs_set {attrs : Entries String Value} {key : String} {v : Value}
    (stored : storedAttrs attrs = .ok attrs) (neutral : v.isNeutral) :
    storedAttrs (attrs.set key v) = .ok (attrs.set key v) := by
  refine storedAttrs_set_of_kept stored (storedAttr_eq_ok_iff.mpr ?_)
  split
  · rfl
  · exact ⟨v, Value.toNeutral_of_isNeutral neutral, rfl⟩

end TensorEmit
